-- Types and property lists as YAML values. A word for what a word can say and
-- a mapping for the rest, with a question mark behind what is optional. What
-- is spelled in this way reads back as it was.
import ChannelProtocol.Proofs.Schema.Classification

namespace ChannelProtocol

/-! ## White space at the ends -/

/-- What a list starts with after something was dropped is not dropped from a part that starts in
the same way. -/
theorem dropWhile_eq_self_of_prefix {α : Type} {drop : α → Bool} {list start : List α}
    (h : start <+: list.dropWhile drop) : start.dropWhile drop = start := by
  cases start with
  | nil => rfl
  | cons first rest =>
    obtain ⟨more, same⟩ := h
    have kept := List.head?_dropWhile_not drop list
    rw [← same] at kept
    simp only [List.cons_append, List.head?_cons] at kept
    rw [List.dropWhile_cons_of_neg (by simp [kept])]

theorem Text.trim_trim (text : String) : Text.trim (Text.trim text) = Text.trim text := by
  unfold Text.trim
  generalize front : text.toList.dropWhile isBlank = start
  generalize back : start.reverse.dropWhile isBlank = rest
  have inside : rest.reverse <+: text.toList.dropWhile isBlank := by
    rw [front, ← List.reverse_reverse start, List.reverse_prefix, ← back]
    exact List.dropWhile_suffix isBlank
  have outside : rest <+: start.reverse.dropWhile isBlank := back ▸ List.prefix_refl _
  rw [String.toList_ofList, dropWhile_eq_self_of_prefix inside, List.reverse_reverse,
    dropWhile_eq_self_of_prefix outside]

namespace Schema

open Yaml (Value Entry)

/-! ## Words -/

/-- A word with the question mark that makes it optional. -/
def markedWord (word : String) (optional : Bool) : String :=
  if optional then word ++ "?" else word

theorem markedWord_splitOptional (word : String) :
    markedWord (splitOptional word).1 (splitOptional word).2 = word := by
  unfold splitOptional Text.dropLast?
  cases h : word.toList.reverse with
  | nil => rfl
  | cons last rest =>
    by_cases marked : last = '?'
    · have whole : word.toList = rest.reverse ++ ['?'] := by
        rw [← List.reverse_reverse word.toList, h, marked, List.reverse_cons]
      simp only [marked, if_true, markedWord]
      rw [← String.toList_inj, String.toList_append, String.toList_ofList, whole]
      rfl
    · simp [marked, markedWord]

/-- The word by which a shape is told. -/
def Shape.word : Shape → String
  | .string => "string"
  | .boolean => "boolean"
  | .number => "number"
  | .undefined => "undefined"
  | .binary => "binary"
  | .any => "any"
  | .anyChannel => "Channel"
  | .reference name | .channel name => name
  | .array _ => "array"
  | .literals _ => "enum"
  | .object _ => "object"

variable {channels : List String}

theorem word_shapeOfWord (word : String) :
    (shapeOfWord channels word).word = word ∨ word = "json" := by
  unfold shapeOfWord
  repeat' split
  all_goals grind [Shape.word]

/-- The word by which the type of a text is told stands for the same type. It is the text without
white space around it, unless that is a synonym. -/
theorem tyOfWord_word (text : String) :
    tyOfWord channels (markedWord (tyOfWord channels text).shape.word
      (tyOfWord channels text).optional) = tyOfWord channels text := by
  generalize same : splitOptional (Text.trim text) = parts
  obtain ⟨base, optional⟩ := parts
  have whole : tyOfWord channels text = ⟨shapeOfWord channels base, optional⟩ := by
    unfold tyOfWord
    rw [same]
  have back : tyOfWord channels (markedWord base optional) = tyOfWord channels text := by
    have marked := markedWord_splitOptional (Text.trim text)
    rw [same] at marked
    simp only at marked
    unfold tyOfWord
    rw [marked, Text.trim_trim]
  rw [whole] at back ⊢
  rcases word_shapeOfWord base with told | rfl
  · rw [told, back]
  · have split : splitOptional (Text.trim (markedWord "any" optional)) = ("any", optional) := by
      cases optional <;> decide +kernel
    have synonym : shapeOfWord channels "json" = .any := by simp [shapeOfWord]
    simp only [synonym, Shape.word, tyOfWord, split]
    simp [shapeOfWord]

/-! ## Spelling -/

/-- Entries whose keys are untagged strings. -/
def recordEntries (fields : List (String × Value)) : List Entry :=
  fields.map fun field => plainEntry field.1 field.2

/-- A mapping whose keys are untagged strings. -/
def record (fields : List (String × Value)) : Value := .mapping (recordEntries fields)

/-- The key of a splice, told from others by how many splices come before it. -/
def spliceKey (before : Nat) : String := spliceMark ++ String.ofList (List.replicate before '1')

mutual

def Ty.spell : Ty → Value
  | ⟨shape, optional⟩ => shape.spell (markedWord shape.word optional)

/-- A shape as a value, under the word by which it is told. -/
def Shape.spell (word : String) : Shape → Value
  | .array element => record [("type", .string word), ("items", element.spell)]
  | .literals texts =>
    record [("type", .string word), ("literals", .sequence (texts.map .string))]
  | .object properties =>
    record [("type", .string word), ("properties", record (spellProperties 0 properties))]
  | _ => .string word

/-- The fields of a list of properties, after some splices. -/
def spellProperties (splices : Nat) : List Property → List (String × Value)
  | [] => []
  | .field name ty :: rest => (name, ty.spell) :: spellProperties splices rest
  | .splice mixin :: rest =>
    (spliceKey splices, .string mixin) :: spellProperties (splices + 1) rest

end

def spellList (properties : List Property) : Value := record (spellProperties 0 properties)

/-! ## What can be spelled -/

/-- The fields of a list have different names, and none is that of a splice. -/
structure FieldsApart (properties : List Property) : Prop where
  distinct : (fieldNames properties).Nodup
  fields : ∀ name ∈ fieldNames properties, isSpliceKey name = false

/-- A type that can be spelled: each of its words stands for what it says, no literal is empty,
and its fields are apart. -/
inductive Spellable (channels : List String) : Ty → Prop
  | word (text : String) {ty : Ty} : tyOfWord channels text = ty → Spellable channels ty
  | array {element : Ty} {optional : Bool} : Spellable channels element →
      Spellable channels ⟨.array element, optional⟩
  | literals {texts : List String} {optional : Bool} : "" ∉ texts →
      Spellable channels ⟨.literals texts, optional⟩
  | object {properties : List Property} {optional : Bool} : FieldsApart properties →
      (∀ name ty, .field name ty ∈ properties → Spellable channels ty) →
      Spellable channels ⟨.object properties, optional⟩

structure SpellableList (channels : List String) (properties : List Property) : Prop where
  apart : FieldsApart properties
  types : ∀ name ty, .field name ty ∈ properties → Spellable channels ty

/-! ## Reading what is spelled -/

theorem lookup_record (name : String) (fields : List (String × Value)) :
    Yaml.lookup name (recordEntries fields) = fields.lookup name := by
  unfold recordEntries
  induction fields with
  | nil => rfl
  | cons field rest ih =>
    obtain ⟨other, value⟩ := field
    rw [List.map_cons, plainEntry, Yaml.lookup, ih, List.lookup_cons]
    by_cases same : other = name
    · simp [same]
    · have differ : (name == other) = false := by simpa using Ne.symm same
      simp [same, differ]

theorem splitOptional_compound (optional : Bool) :
    splitOptional (markedWord "array" optional) = ("array", optional) ∧
      splitOptional (markedWord "enum" optional) = ("enum", optional) ∧
      splitOptional (markedWord "object" optional) = ("object", optional) := by
  cases optional <;> decide +kernel

theorem isSpliceKey_spliceKey (before : Nat) : isSpliceKey (spliceKey before) = true := by
  unfold isSpliceKey spliceKey
  rw [String.toList_append, List.isPrefixOf_iff_prefix]
  exact List.prefix_append _ _

theorem literalTexts_spell {location : Location} {owner : Value} {texts : List String}
    (full : "" ∉ texts) : literalTexts location owner (texts.map .string) = .ok texts := by
  induction texts with
  | nil => rfl
  | cons text rest ih =>
    simp only [List.mem_cons, not_or] at full
    have read : literalText location (.string text) = .ok text := rfl
    rw [List.map_cons, literalTexts, read, ih full.2]
    exact if_neg (Ne.symm full.1)

theorem readLiterals_spell {location : Location} {owner : Value} {word : String}
    {texts : List String} (full : "" ∉ texts) :
    readLiterals location owner (recordEntries [("type", .string word),
      ("literals", .sequence (texts.map .string))]) = .ok texts := by
  unfold readLiterals
  rw [lookup_record]
  exact literalTexts_spell full

theorem Ty.spell_eq (ty : Ty) :
    ty.spell = ty.shape.spell (markedWord ty.shape.word ty.optional) := by
  cases ty
  rw [Ty.spell]

theorem spell_shapeOfWord (base word : String) :
    (shapeOfWord channels base).spell word = .string word := by
  unfold shapeOfWord
  repeat' split
  all_goals rw [Shape.spell]
  all_goals simp

theorem typeWord?_record (word : String) (rest : List (String × Value)) :
    typeWord? (recordEntries (("type", .string word) :: rest)) = some word := by
  unfold typeWord?
  rw [lookup_record]
  rfl

/-- A list reads back if its fields do. -/
theorem readProperties_spell {properties : List Property}
    (keys : ∀ name ∈ fieldNames properties, isSpliceKey name = false)
    (types : ∀ name ty, .field name ty ∈ properties →
      ∀ location, readTy channels location ty.spell = .ok ty) (splices : Nat)
    (location : Location) :
    readProperties channels location (recordEntries (spellProperties splices properties)) =
      .ok properties := by
  unfold recordEntries
  induction properties generalizing splices with
  | nil =>
    rw [spellProperties]
    rfl
  | cons property rest ih =>
    have typed := fun name ty mem => types name ty (List.mem_cons_of_mem _ mem)
    cases property with
    | field name ty =>
      rw [fieldNames_field_cons, List.forall_mem_cons] at keys
      have read := types name ty (by simp) (.member location name)
      rw [spellProperties, List.map_cons, plainEntry, readProperties]
      simp [keyText, Value.asString?, Value.untagged, keys.1, read, ih keys.2 typed, Except.map]
    | splice mixin =>
      rw [fieldNames_splice_cons] at keys
      rw [spellProperties, List.map_cons, plainEntry, readProperties]
      simp [keyText, Value.asString?, Value.untagged, isSpliceKey_spliceKey, ih keys typed,
        Except.map]

theorem readSection_spell {properties : List Property}
    (keys : ∀ name ∈ fieldNames properties, isSpliceKey name = false)
    (types : ∀ name ty, .field name ty ∈ properties →
      ∀ location, readTy channels location ty.spell = .ok ty) (location : Location) :
    readSection channels location (spellList properties) = .ok (some properties) := by
  rw [spellList, record, readSection, readProperties_spell keys types]
  rfl

/-- A type that can be spelled reads back, wherever it stands. -/
theorem readTy_spell {ty : Ty} (spellable : Spellable channels ty) (location : Location) :
    readTy channels location ty.spell = .ok ty := by
  induction spellable generalizing location with
  | @word text ty same =>
    subst same
    rw [Ty.spell_eq, shape_tyOfWord, spell_shapeOfWord, readTy, ← shape_tyOfWord, tyOfWord_word]
  | @array element optional _ ih =>
    have split := (splitOptional_compound optional).1
    rw [Ty.spell, Shape.spell, record, readTy, typeWord?_record]
    simp only [Shape.word, split]
    simp [recordEntries, readElement, plainEntry, isKey, ih]
  | @literals texts optional full =>
    have split := (splitOptional_compound optional).2.1
    rw [Ty.spell, Shape.spell, record, readTy, typeWord?_record]
    simp only [Shape.word, split]
    simp [readLiterals_spell full, Except.map]
  | @object properties optional apart _ ih =>
    have split := (splitOptional_compound optional).2.2
    have read := readSection_spell apart.fields ih location
    rw [Ty.spell, Shape.spell, ← spellList, record, readTy, typeWord?_record]
    simp only [Shape.word, split]
    simp [recordEntries, readInline, plainEntry, isKey, read, Except.map]

theorem readSection_spellList {properties : List Property}
    (spellable : SpellableList channels properties) (location : Location) :
    readSection channels location (spellList properties) = .ok (some properties) :=
  readSection_spell spellable.apart.fields
    (fun name ty mem => readTy_spell (spellable.types name ty mem)) location

/-! ## The keys of what is spelled -/

theorem plain_record {fields : List (String × Value)} (distinct : (fields.map Prod.fst).Nodup)
    (values : ∀ field ∈ fields, field.2.Plain) : (record fields).Plain := by
  unfold record recordEntries
  rw [Value.plain_mapping_iff, List.pairwise_map]
  constructor
  · refine (List.pairwise_map.mp distinct).imp fun differ => ?_
    simpa [plainEntry, Value.same] using Ne.symm differ
  · intro entry mem
    obtain ⟨field, held, rfl⟩ := List.mem_map.mp mem
    exact ⟨Value.plain_string field.1, values field held⟩

theorem spliceKey_inj {first second : Nat} (same : spliceKey first = spliceKey second) :
    first = second := by
  have lengths := congrArg String.length same
  simpa [spliceKey] using lengths

/-- A key that is spelled is the name of a field, or that of a splice not spelled before. -/
theorem mem_keys_spellProperties {properties : List Property} {splices : Nat} {key : String}
    (mem : key ∈ (spellProperties splices properties).map Prod.fst) :
    key ∈ fieldNames properties ∨ ∃ index, splices ≤ index ∧ key = spliceKey index := by
  induction properties generalizing splices with
  | nil => simp [spellProperties] at mem
  | cons property rest ih =>
    cases property with
    | field name ty =>
      rw [spellProperties, List.map_cons, List.mem_cons] at mem
      rcases mem with rfl | mem
      · exact .inl List.mem_cons_self
      · exact (ih mem).imp_left (List.mem_cons_of_mem _)
    | splice mixin =>
      rw [spellProperties, List.map_cons, List.mem_cons] at mem
      rcases mem with rfl | mem
      · exact .inr ⟨splices, Nat.le_refl _, rfl⟩
      · rcases ih mem with mem | ⟨index, later, same⟩
        · exact .inl mem
        · exact .inr ⟨index, by omega, same⟩

theorem nodup_keys_spellProperties {properties : List Property} (apart : FieldsApart properties)
    (splices : Nat) : ((spellProperties splices properties).map Prod.fst).Nodup := by
  induction properties generalizing splices with
  | nil => simp [spellProperties]
  | cons property rest ih =>
    obtain ⟨distinct, fields⟩ := apart
    cases property with
    | field name ty =>
      rw [fieldNames_field_cons, List.nodup_cons] at distinct
      rw [fieldNames_field_cons, List.forall_mem_cons] at fields
      rw [spellProperties, List.map_cons, List.nodup_cons]
      refine ⟨fun mem => ?_, ih ⟨distinct.2, fields.2⟩ splices⟩
      rcases mem_keys_spellProperties mem with mem | ⟨index, -, same⟩
      · exact distinct.1 mem
      · have marked := isSpliceKey_spliceKey index
        rw [← same, fields.1] at marked
        cases marked
    | splice mixin =>
      rw [fieldNames_splice_cons] at distinct fields
      rw [spellProperties, List.map_cons, List.nodup_cons]
      refine ⟨fun mem => ?_, ih ⟨distinct, fields⟩ (splices + 1)⟩
      rcases mem_keys_spellProperties mem with mem | ⟨index, later, same⟩
      · have marked := isSpliceKey_spliceKey splices
        rw [fields _ mem] at marked
        cases marked
      · have := spliceKey_inj same
        omega

theorem plain_spellProperties {properties : List Property}
    (types : ∀ name ty, .field name ty ∈ properties → ty.spell.Plain) (splices : Nat) :
    ∀ field ∈ spellProperties splices properties, field.2.Plain := by
  induction properties generalizing splices with
  | nil => simp [spellProperties]
  | cons property rest ih =>
    have later := ih fun name ty mem => types name ty (List.mem_cons_of_mem _ mem)
    cases property with
    | field name ty =>
      rw [spellProperties, List.forall_mem_cons]
      exact ⟨types name ty (by simp), later splices⟩
    | splice mixin =>
      rw [spellProperties, List.forall_mem_cons]
      exact ⟨Value.plain_string mixin, later (splices + 1)⟩

theorem plain_spellList_of {properties : List Property} (apart : FieldsApart properties)
    (types : ∀ name ty, .field name ty ∈ properties → ty.spell.Plain) :
    (spellList properties).Plain :=
  plain_record (nodup_keys_spellProperties apart 0) (plain_spellProperties types 0)

theorem plain_strings (texts : List String) : (Value.sequence (texts.map .string)).Plain := by
  rw [Value.plain_sequence_iff]
  intro item mem
  obtain ⟨text, -, rfl⟩ := List.mem_map.mp mem
  exact Value.plain_string text

/-- What is spelled has no tags and no key twice. -/
theorem plain_spell {ty : Ty} (spellable : Spellable channels ty) : ty.spell.Plain := by
  -- The mapping of a compound type has two keys, and the first one is `type`.
  have compound {word key : String} {value : Value} (other : "type" ≠ key) (plain : value.Plain) :
      (record [("type", .string word), (key, value)]).Plain := by
    apply plain_record
    · simpa using other
    · simpa using plain
  induction spellable with
  | @word text ty same =>
    subst same
    rw [Ty.spell_eq, shape_tyOfWord, spell_shapeOfWord]
    exact Value.plain_string _
  | array _ ih =>
    rw [Ty.spell, Shape.spell]
    exact compound (by decide) ih
  | literals =>
    rw [Ty.spell, Shape.spell]
    exact compound (by decide) (plain_strings _)
  | object apart _ ih =>
    rw [Ty.spell, Shape.spell]
    exact compound (by decide) (plain_spellList_of apart ih)

theorem plain_spellList {properties : List Property}
    (spellable : SpellableList channels properties) : (spellList properties).Plain :=
  plain_spellList_of spellable.apart fun name ty mem => plain_spell (spellable.types name ty mem)

/-! ## What is read can be spelled -/

theorem nodup_keyTexts {entries : List Entry} (plain : (Value.mapping entries).Plain) :
    (keyTexts entries).Nodup := by
  obtain ⟨untagged, distinct⟩ := Value.plain_iff.mp plain
  exact List.nodup_iff_sublist.mpr fun text twice =>
    not_toldByTag untagged text (toldByTag_of_twice (distinct _ .refl) twice)

theorem fieldsApart_of_keyedIn {source : Value} {properties : List Property}
    (plain : source.Plain) (keyed : KeyedIn source properties) : FieldsApart properties := by
  rcases keyed with none | ⟨entries, within, names⟩
  · exact ⟨by simp [none], by simp [none]⟩
  · have keys := nodup_keyTexts fun inner deeper => plain inner (deeper.trans within)
    refine ⟨names ▸ keys.filter _, fun name mem => ?_⟩
    rw [names, List.mem_filter] at mem
    simpa using mem.2

/-- What is read from a part of a value without tags can be spelled. -/
theorem spellable_of_readIn {source : Value} (plain : source.Plain) {ty : Ty}
    (read : ReadIn channels source ty) : Spellable channels ty := by
  induction read with
  | word text same => exact .word text same
  | array _ ih => exact .array ih
  | literals full => exact .literals full
  | object keyed _ ih => exact .object (fieldsApart_of_keyedIn plain keyed) ih

theorem spellableList_of_readIn {source : Value} (plain : source.Plain)
    {properties : List Property} (read : ListReadIn channels source properties) :
    SpellableList channels properties where
  apart := fieldsApart_of_keyedIn plain read.keyed
  types name ty mem := spellable_of_readIn plain (read.types name ty mem)

end Schema

end ChannelProtocol
