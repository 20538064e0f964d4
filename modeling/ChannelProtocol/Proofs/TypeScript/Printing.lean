-- The text of a type of data says all about it. Its first character tells a name,
-- an object and a union apart, each of these shows where it ends, and the rest of
-- the text says how often the type is an array.
import ChannelProtocol.Proofs.TypeScript.Literals

namespace ChannelProtocol.TypeScript

/-! ## Types of data -/

/-- A character that may stand in an identifier. Beyond ASCII none is excluded, whatever the
script. -/
def isNameChar (c : Char) : Bool :=
  isIdentifierPart c || 128 ≤ c.toNat

/-- A name that can refer to a type: one of such characters, and no keyword. -/
def IsTypeName (name : String) : Prop :=
  name ≠ "" ∧ (∀ c ∈ name.toList, isNameChar c) ∧ ∀ word : Keyword, name ≠ word.text

theorem isTypeName_of_isIdentifier {name : String} (h : isIdentifier name)
    (apart : ∀ word : Keyword, name ≠ word.text) : IsTypeName name := by
  refine ⟨?_, fun c mem => ?_, apart⟩
  · rintro rfl
    cases h
  · rw [isNameChar, isIdentifierPart_of_mem h mem, Bool.true_or]

/-- The types of data: keywords, names, arrays, unions of literals and objects. -/
inductive Ty.IsData : Ty → Prop
  | keyword (word : Keyword) : IsData (.keyword word)
  | ref {name : String} : IsTypeName name → IsData (.ref name)
  | array {element : Ty} : IsData element → IsData (.array element)
  | union (texts : List String) : IsData (.union (texts.map .literal))
  | object {fields : List Field} : (∀ field ∈ fields, IsData field.ty) → IsData (.object fields)

theorem Keyword.text_inj {word word' : Keyword} (h : word.text = word'.text) : word = word' := by
  cases word <;> cases word' <;> simp_all [Keyword.text]

namespace Ty

variable {a b ty : Ty} {level : Nat} {rest other : List Char}

/-! ## Arrays -/

/-- What an array is made of in the end. -/
def base : Ty → Ty
  | .array element => element.base
  | ty => ty

/-- How often a type is an array. -/
def depth : Ty → Nat
  | .array element => element.depth + 1
  | _ => 0

theorem depth_of_ne_array (notArray : ∀ element, ty ≠ .array element) : ty.depth = 0 := by
  cases ty <;> simp_all [depth]

theorem base_of_depth_eq_zero (flat : ty.depth = 0) : ty.base = ty := by
  cases ty <;> simp_all [base, depth]

theorem eq_of_base (hb : a.base = b.base) (hd : a.depth = b.depth) : a = b := by
  fun_induction depth a generalizing b with
  | case1 element ih =>
    cases b with
    | array element' =>
      rw [base, base] at hb
      rw [ih hb (by simpa [depth] using hd)]
    | keyword | union | object | literal | ref | generic | function | conditional =>
      simp [depth] at hd
  | case2 ty notArray =>
    have flat := depth_of_ne_array notArray
    rw [base_of_depth_eq_zero flat, base_of_depth_eq_zero hd.symm] at hb
    exact hb

theorem IsData.base (data : ty.IsData) : ty.base.IsData := by
  induction data with
  | keyword word => exact .keyword word
  | ref named => exact .ref named
  | array element ih => exact ih
  | union texts => exact .union texts
  | object fields => exact .object fields

theorem base_ne_array (ty element : Ty) : ty.base ≠ .array element := by
  fun_induction Ty.base ty with
  | case1 inner ih => exact ih
  | case2 ty notArray => exact notArray element

theorem sizeOf_base_le (ty : Ty) : sizeOf ty.base ≤ sizeOf ty := by
  fun_induction Ty.base ty with
  | case1 inner ih =>
    simp only [array.sizeOf_spec]
    omega
  | case2 ty notArray => exact Nat.le_refl _

/-- The marks behind the text of what an array is made of. -/
def arrayMarks (depth : Nat) : List Char :=
  (List.replicate depth ['[', ']']).flatten

@[simp]
theorem arrayMarks_zero : arrayMarks 0 = [] := rfl

@[simp]
theorem arrayMarks_succ (depth : Nat) : arrayMarks (depth + 1) = '[' :: ']' :: arrayMarks depth :=
  rfl

/-- The text in front of the array marks. -/
def stem (level : Nat) (ty : Ty) : List Char :=
  if ty.depth ≠ 0 ∧ ty.base.needsBrackets then '(' :: ((ty.base.print level).toList ++ [')'])
  else (ty.base.print level).toList

theorem depth_of_needsBrackets (h : ty.needsBrackets) : ty.depth = 0 := by
  cases ty <;> simp_all [needsBrackets, depth]

/-- An array adds a mark to the text of its elements, and brackets where that is a bare union. -/
theorem toList_print (level : Nat) (ty : Ty) :
    (ty.print level).toList = ty.stem level ++ arrayMarks ty.depth := by
  fun_induction depth ty with
  | case1 element ih =>
    have marks : arrayMarks (element.depth + 1) = arrayMarks element.depth ++ ['[', ']'] := by
      simp [arrayMarks, List.replicate_succ']
    rw [Ty.print]
    split
    · rename_i brackets
      have flat := depth_of_needsBrackets brackets
      have same := base_of_depth_eq_zero flat
      simp [stem, depth, Ty.base, flat, same, brackets]
    · rename_i plain
      have same : (Ty.array element).stem level = element.stem level := by
        by_cases flat : element.depth = 0
        · simp [stem, depth, Ty.base, flat, base_of_depth_eq_zero flat, plain]
        · simp [stem, depth, Ty.base, flat]
      rw [same, marks, String.toList_append, ih, List.append_assoc]
      rfl
  | case2 ty notArray =>
    have flat := depth_of_ne_array notArray
    simp [stem, flat, base_of_depth_eq_zero flat]

/-- A type ends where the text does or at a comma. -/
def Stops (rest : List Char) : Prop :=
  rest = [] ∨ ∃ tail, rest = ',' :: tail

theorem arrayMarks_append_inj {m n : Nat} (hr : Stops rest) (ho : Stops other)
    (h : arrayMarks m ++ rest = arrayMarks n ++ other) : m = n ∧ rest = other := by
  induction m generalizing n with
  | zero =>
    cases n with
    | zero => exact ⟨rfl, h⟩
    | succ n => rcases hr with rfl | ⟨tail, rfl⟩ <;> simp at h
  | succ m ih =>
    cases n with
    | zero => rcases ho with rfl | ⟨tail, rfl⟩ <;> simp at h
    | succ n =>
      obtain ⟨rfl, rfl⟩ := ih (n := n) (by simpa using h)
      exact ⟨rfl, rfl⟩

/-! ## How the texts start -/

/-- What the first character of a text says. -/
inductive Lead where
  | nothing
  | name
  | quote
  | bracket
  | brace

def leadOf (text : List Char) : Lead :=
  match text.head? with
  | none => .nothing
  | some c =>
    if isNameChar c then .name
    else if c = '\x22' then .quote
    else if c = '(' then .bracket
    else if c = '\x7b' then .brace
    else .nothing

/-! ## Names -/

/-- The name that a type is, if it is one. -/
def name? : Ty → Option String
  | .keyword word => some word.text
  | .ref name => some name
  | _ => none

theorem IsData.eq_of_name? {name : String} (ha : a.IsData) (hb : b.IsData)
    (na : a.name? = some name) (nb : b.name? = some name) : a = b := by
  cases ha with
  | keyword word =>
    cases hb with
    | keyword word' =>
      rw [Keyword.text_inj ((Option.some.inj na).trans (Option.some.inj nb).symm)]
    | ref named =>
      exact absurd ((Option.some.inj nb).trans (Option.some.inj na).symm) (named.2.2 word)
    | array | union | object => cases nb
  | ref named =>
    cases hb with
    | keyword word =>
      exact absurd ((Option.some.inj na).trans (Option.some.inj nb).symm) (named.2.2 word)
    | ref named' => rw [Option.some.inj na, Option.some.inj nb]
    | array | union | object => cases nb
  | array | union | object => cases na

theorem IsData.chars_of_name? {name : String} (data : ty.IsData) (h : ty.name? = some name) :
    name.toList ≠ [] ∧ ∀ c ∈ name.toList, isNameChar c := by
  cases data with
  | keyword word =>
    cases h
    rw [← List.all_eq_true]
    cases word <;> decide
  | ref named =>
    cases h
    exact ⟨by simpa using named.1, named.2.1⟩
  | array | union | object => cases h

theorem stem_of_name? {name : String} (h : ty.base.name? = some name) :
    ty.stem level = name.toList := by
  cases base : ty.base <;> simp_all [stem, name?, needsBrackets, Ty.print]

theorem leadOf_name {name : String} (data : ty.IsData) (h : ty.base.name? = some name) :
    leadOf (ty.stem level ++ rest) = .name := by
  obtain ⟨ne, chars⟩ := data.base.chars_of_name? h
  rw [stem_of_name? h]
  cases text : name.toList with
  | nil => exact absurd text ne
  | cons c more =>
    rw [text] at chars
    simp [leadOf, chars c (by simp)]

theorem head?_arrayMarks (depth : Nat) (hr : Stops rest) :
    (arrayMarks depth ++ rest).head?.any isNameChar = false := by
  cases depth with
  | zero => rcases hr with rfl | ⟨tail, rfl⟩ <;> rfl
  | succ depth => rfl

theorem name_append_inj {name name' : String} (ha : a.IsData) (hb : b.IsData)
    (na : a.base.name? = some name) (nb : b.base.name? = some name') (hr : Stops rest)
    (ho : Stops other)
    (h : a.stem level ++ (arrayMarks a.depth ++ rest) =
      b.stem level ++ (arrayMarks b.depth ++ other)) :
    a.base = b.base ∧ arrayMarks a.depth ++ rest = arrayMarks b.depth ++ other := by
  rw [stem_of_name? na, stem_of_name? nb] at h
  obtain ⟨same, tail⟩ := word_append_inj (ha.base.chars_of_name? na).2
    (hb.base.chars_of_name? nb).2 (head?_arrayMarks _ hr) (head?_arrayMarks _ ho) h
  rw [← String.toList_inj.mp same] at nb
  exact ⟨ha.base.eq_of_name? hb.base na nb, tail⟩

/-! ## Unions of literals -/

def unionText (texts : List String) : List Char :=
  (" | ".intercalate (texts.map quoted)).toList

theorem printAll_literals (level : Nat) (texts : List String) :
    printAll level (texts.map .literal) = texts.map quoted := by
  induction texts with
  | nil => rfl
  | cons text texts ih => rw [List.map_cons, printAll, ih, Ty.print, List.map_cons]

theorem stem_union {texts : List String} (h : ty.base = .union (texts.map .literal)) :
    ty.stem level =
      if ty.depth = 0 then unionText texts else '(' :: (unionText texts ++ [')']) := by
  have text : ((Ty.union (texts.map .literal)).print level).toList = unionText texts := by
    rw [Ty.print, printAll_literals, unionText]
  simp only [stem, h, text, needsBrackets]
  by_cases flat : ty.depth = 0 <;> simp [flat]

theorem leadOf_unionText (texts : List String) (hr : Stops rest) :
    leadOf (unionText texts ++ rest) = .nothing ∨ leadOf (unionText texts ++ rest) = .quote := by
  cases texts with
  | nil => rcases hr with rfl | ⟨tail, rfl⟩ <;> exact .inl rfl
  | cons text texts =>
    rw [unionText, intercalate_quoted_cons, toList_quoted]
    exact .inr rfl

/-- A union stands alone or in brackets, and ends where the type does or at its bracket. -/
theorem unionText_append_inj {texts texts' : List String} (hr : Stops rest ∨ rest.head? = some ')')
    (ho : Stops other ∨ other.head? = some ')')
    (h : unionText texts ++ rest = unionText texts' ++ other) : texts = texts' ∧ rest = other := by
  have apart {tail : List Char} (ht : Stops tail ∨ tail.head? = some ')') :
      ¬ " | ".toList <+: tail ∧ tail.head? ≠ some '\x22' := by
    rcases ht with (rfl | ⟨tail, rfl⟩) | ht
    · simp
    · simp
    · cases tail <;> simp_all
  exact intercalate_quoted_append_inj (apart hr).1 (apart ho).1 (apart hr).2 (apart ho).2 h

theorem leadOf_union {texts : List String} (h : ty.base = .union (texts.map .literal))
    (hr : Stops rest) :
    leadOf (ty.stem level ++ (arrayMarks ty.depth ++ rest)) ≠ .name ∧
      leadOf (ty.stem level ++ (arrayMarks ty.depth ++ rest)) ≠ .brace := by
  rw [stem_union h]
  split
  · rename_i flat
    rw [flat, arrayMarks_zero, List.nil_append]
    rcases leadOf_unionText texts hr with lead | lead <;> simp [lead]
  · exact ⟨nofun, nofun⟩

theorem union_append_inj {texts texts' : List String} (ua : a.base = .union (texts.map .literal))
    (ub : b.base = .union (texts'.map .literal)) (hr : Stops rest) (ho : Stops other)
    (h : a.stem level ++ (arrayMarks a.depth ++ rest) =
      b.stem level ++ (arrayMarks b.depth ++ other)) :
    texts = texts' ∧ arrayMarks a.depth ++ rest = arrayMarks b.depth ++ other := by
  have lead := congrArg leadOf h
  rw [stem_union ua, stem_union ub] at h lead
  by_cases flat : a.depth = 0
  · by_cases flat' : b.depth = 0
    · rw [if_pos flat, if_pos flat', flat, flat'] at h
      rw [flat, flat']
      exact unionText_append_inj (.inl hr) (.inl ho) h
    · rw [if_pos flat, if_neg flat', flat] at lead
      rcases leadOf_unionText texts hr with bare | bare <;> cases bare.symm.trans lead
  · by_cases flat' : b.depth = 0
    · rw [if_neg flat, if_pos flat', flat'] at lead
      rcases leadOf_unionText texts' ho with bare | bare <;> cases bare.symm.trans lead.symm
    · rw [if_neg flat, if_neg flat'] at h
      simp only [List.cons_append, List.append_assoc, List.cons.injEq, true_and] at h
      obtain ⟨same, tail⟩ := unionText_append_inj (.inr rfl) (.inr rfl) h
      exact ⟨same, (List.cons.inj tail).2⟩

/-! ## Objects -/

theorem stem_object {fields : List Field} (h : ty.base = .object fields) :
    ty.stem level = ((Ty.object fields).print level).toList := by
  simp [stem, h, needsBrackets]

theorem leadOf_object {fields : List Field} (h : ty.base = .object fields) :
    leadOf (ty.stem level ++ rest) = .brace := by
  rw [stem_object h]
  cases fields with
  | nil =>
    rw [Ty.print]
    rfl
  | cons field fields =>
    rw [Ty.print]
    simp only [String.toList_append, List.append_assoc]
    rfl

theorem sizeOf_field_lt {fields : List Field} {field : Field} (h : field ∈ fields) :
    sizeOf field.ty < sizeOf (Ty.object fields) := by
  have small := List.sizeOf_lt_of_mem h
  obtain ⟨name, ty, optional⟩ := field
  simp only [Field.mk.sizeOf_spec, object.sizeOf_spec] at small ⊢
  omega

/-- Two types cannot be taken for each other, whether the text ends behind them or a comma
follows. -/
def PrintsApart (level : Nat) (a b : Ty) : Prop :=
  ∀ rest other, Stops rest → Stops other →
    (a.print level).toList ++ rest = (b.print level).toList ++ other → a = b ∧ rest = other

theorem optionalMark_append_inj {optional optional' : Bool}
    (h : (optionalMark optional).toList ++ ':' :: rest =
      (optionalMark optional').toList ++ ':' :: other) : optional = optional' ∧ rest = other := by
  cases optional <;> cases optional' <;> simp_all [optionalMark]

theorem head?_optionalMark (optional : Bool) :
    ((optionalMark optional).toList ++ ':' :: rest).head?.any isIdentifierPart = false := by
  cases optional <;> rfl

theorem toList_printLines_cons (level : Nat) (field : Field) (fields : List Field) :
    (Field.printLines level (field :: fields)).toList =
      (indentation level).toList ++ ((key field.name).toList ++
        ((optionalMark field.optional).toList ++ ':' :: ' ' :: ((field.ty.print level).toList ++
          ',' :: '\n' :: (Field.printLines level fields).toList))) := by
  obtain ⟨name, ty, optional⟩ := field
  simp [Field.printLines, Field.print]

/-- The line of a property starts further in than the brace that closes the object. -/
theorem printLines_append_ne (level : Nat) (field : Field) (fields : List Field) :
    (Field.printLines (level + 1) (field :: fields)).toList ++ rest ≠
      (indentation level).toList ++ '\x7d' :: other := by
  simp [toList_printLines_cons, indentation_succ]

/-- The properties of an object go on up to the closing brace, which stands further out. -/
theorem printLines_append_inj (level : Nat) (fields fields' : List Field)
    (each : ∀ field ∈ fields, ∀ field' ∈ fields', PrintsApart (level + 1) field.ty field'.ty)
    (h : (Field.printLines (level + 1) fields).toList ++
        ((indentation level).toList ++ '\x7d' :: rest) =
      (Field.printLines (level + 1) fields').toList ++
        ((indentation level).toList ++ '\x7d' :: other)) :
    fields = fields' ∧ rest = other := by
  induction fields generalizing fields' with
  | nil =>
    cases fields' with
    | nil => simpa [Field.printLines] using h
    | cons field' fields' => exact absurd h.symm (printLines_append_ne level field' fields')
  | cons field fields ih =>
    cases fields' with
    | nil => exact absurd h (printLines_append_ne level field fields)
    | cons field' fields' =>
      obtain ⟨name, ty, optional⟩ := field
      obtain ⟨name', ty', optional'⟩ := field'
      have here : PrintsApart (level + 1) ty ty' :=
        each ⟨name, ty, optional⟩ (by simp) ⟨name', ty', optional'⟩ (by simp)
      simp only [toList_printLines_cons, List.append_assoc, List.cons_append] at h
      obtain ⟨rfl, line⟩ := key_append_inj (head?_optionalMark _) (head?_optionalMark _)
        (List.append_cancel_left h)
      obtain ⟨rfl, typed⟩ := optionalMark_append_inj line
      obtain ⟨rfl, more⟩ := here _ _ (.inr ⟨_, rfl⟩) (.inr ⟨_, rfl⟩) (List.cons.inj typed).2
      obtain ⟨rfl, rfl⟩ := ih fields'
        (fun field mem field' mem' => each field (by simp [mem]) field' (by simp [mem']))
        (List.cons.inj (List.cons.inj more).2).2
      exact ⟨rfl, rfl⟩

theorem object_append_inj {fields fields' : List Field}
    (each : ∀ field ∈ fields, ∀ field' ∈ fields', PrintsApart (level + 1) field.ty field'.ty)
    (h : ((Ty.object fields).print level).toList ++ rest =
      ((Ty.object fields').print level).toList ++ other) : fields = fields' ∧ rest = other := by
  cases fields with
  | nil =>
    cases fields' with
    | nil => simpa [Ty.print] using h
    | cons field' fields' => simp [Ty.print] at h
  | cons field fields =>
    cases fields' with
    | nil => simp [Ty.print] at h
    | cons field' fields' =>
      rw [Ty.print, Ty.print] at h
      simp only [String.toList_append, List.append_assoc] at h
      exact printLines_append_inj level _ _ each (List.append_cancel_left h)

/-! ## Whole texts -/

theorem IsData.base_cases (data : ty.IsData) :
    (∃ name, ty.base.name? = some name) ∨
      (∃ texts : List String, ty.base = .union (texts.map .literal)) ∨
      ∃ fields, ty.base = .object fields ∧ ∀ field ∈ fields, field.ty.IsData := by
  have inner := data.base
  have notArray := base_ne_array ty
  generalize ty.base = base at inner notArray
  cases inner with
  | keyword word => exact .inl ⟨_, rfl⟩
  | ref named => exact .inl ⟨_, rfl⟩
  | array element => exact absurd rfl (notArray _)
  | union texts => exact .inr (.inl ⟨texts, rfl⟩)
  | object fields => exact .inr (.inr ⟨_, rfl, fields⟩)

/-- What stands in front of the array marks says what the array is made of. The recursion is on the
types of the properties of an object. -/
theorem printsApart (level : Nat) {a b : Ty} (ha : a.IsData) (hb : b.IsData) :
    PrintsApart level a b := by
  intro rest other hr ho h
  rw [toList_print, toList_print, List.append_assoc, List.append_assoc] at h
  suffices same : a.base = b.base ∧
      arrayMarks a.depth ++ rest = arrayMarks b.depth ++ other by
    obtain ⟨depths, tail⟩ := arrayMarks_append_inj hr ho same.2
    exact ⟨eq_of_base same.1 depths, tail⟩
  have lead := congrArg leadOf h
  rcases ha.base_cases with ⟨name, na⟩ | ⟨texts, ua⟩ | ⟨fields, oa, fa⟩
  · rcases hb.base_cases with ⟨name', nb⟩ | ⟨texts', ub⟩ | ⟨fields', ob, -⟩
    · exact name_append_inj ha hb na nb hr ho h
    · exact absurd (lead.symm.trans (leadOf_name ha na)) (leadOf_union ub ho).1
    · cases (leadOf_name ha na).symm.trans (lead.trans (leadOf_object ob))
  · rcases hb.base_cases with ⟨name', nb⟩ | ⟨texts', ub⟩ | ⟨fields', ob, -⟩
    · exact absurd (lead.trans (leadOf_name hb nb)) (leadOf_union ua hr).1
    · obtain ⟨rfl, tail⟩ := union_append_inj ua ub hr ho h
      exact ⟨ua.trans ub.symm, tail⟩
    · exact absurd (lead.trans (leadOf_object ob)) (leadOf_union ua hr).2
  · rcases hb.base_cases with ⟨name', nb⟩ | ⟨texts', ub⟩ | ⟨fields', ob, fb⟩
    · cases (leadOf_object oa).symm.trans (lead.trans (leadOf_name hb nb))
    · exact absurd (lead.symm.trans (leadOf_object oa)) (leadOf_union ub ho).2
    · rw [stem_object oa, stem_object ob] at h
      have each : ∀ field ∈ fields, ∀ field' ∈ fields',
          PrintsApart (level + 1) field.ty field'.ty := by
        intro field mem field' mem'
        have smaller : sizeOf field.ty < sizeOf a := by
          have inner := sizeOf_field_lt mem
          have outer := sizeOf_base_le a
          rw [oa] at outer
          omega
        exact printsApart (level + 1) (fa field mem) (fb field' mem')
      obtain ⟨rfl, tail⟩ := object_append_inj each h
      exact ⟨oa.trans ob.symm, tail⟩
termination_by sizeOf a

/-- Types of data that are printed alike, at whatever level, are the same type. -/
theorem print_unambiguous (level : Nat) {a b : Ty} (ha : a.IsData) (hb : b.IsData)
    (same : a.print level = b.print level) : a = b :=
  (printsApart level ha hb [] [] (.inl rfl) (.inl rfl) (by rw [same])).1

/-- Boxes with the states that each of them may be in. -/
def stateList (states : Ty) : Ty :=
  .array (.object [⟨"states", .array states, true⟩, ⟨"the box", .ref "Box", false⟩])

theorem stateList_isData (texts : List String) : (stateList (.literals texts)).IsData := by
  have box : IsTypeName "Box" :=
    isTypeName_of_isIdentifier (by decide) fun word => by cases word <;> decide
  refine .array (.object ?_)
  rw [List.forall_mem_cons, List.forall_mem_singleton]
  exact ⟨.array (.union texts), .ref box⟩

/-- One literal that looks like two is told from them, also deep in a type. -/
theorem stateLists_told_apart :
    stateList (.literals ["on", "off"]) =
        stateList (.union [.literal "on", .literal "off"]) ∧
      (stateList (.literals ["on", "off"])).print 1 ≠
        (stateList (.literals ["on\" | \"off"])).print 1 := by
  have data := stateList_isData
  refine ⟨print_unambiguous 1 (data _) (data ["on", "off"]) rfl, fun same => ?_⟩
  have equal := print_unambiguous 1 (data _) (data _) same
  simp [stateList, literals] at equal

end Ty

end ChannelProtocol.TypeScript
