-- The text of a validator says all about it: whatever follows the text, one
-- validator is told from another, and so is what follows.
import ChannelProtocol.Proofs.TypeScript.Literals
import ChannelProtocol.Validator

namespace ChannelProtocol.Validator

open TypeScript

variable {rest other : List Char}

/-- A list of literals goes on up to its bracket. -/
theorem quotedList_append_inj {texts words : List String}
    (h : (quotedList texts).toList ++ ']' :: rest = (quotedList words).toList ++ ']' :: other) :
    texts = words ∧ rest = other := by
  obtain ⟨same, tail⟩ :=
    intercalate_quoted_append_inj (by simp) (by simp) (by simp) (by simp) h
  exact ⟨same, (List.cons.inj tail).2⟩

/-! ## How the texts start -/

/-- The kinds of validators, each of which has a word of its own. -/
inductive Kind where
  | string
  | boolean
  | number
  | undefined
  | binary
  | any
  | optional
  | array
  | enum
  | object
  | anyChannel
  | channel
  | named
  deriving DecidableEq

/-- The text up to the first part that is not the same for all validators of a kind. -/
def Kind.opening : Kind → String
  | .string => "tString"
  | .boolean => "tBoolean"
  | .number => "tNumber"
  | .undefined => "tUndefined"
  | .binary => "tBinary"
  | .any => "tAny"
  | .optional => "tOptional("
  | .array => "tArray("
  | .enum => "tEnum(["
  | .object => "tObject(\x7b"
  | .anyChannel => "tChannel(\"*\")"
  | .channel => "tChannel(["
  | .named => "tType("

def kind : Validator → Kind
  | .string => .string
  | .boolean => .boolean
  | .number => .number
  | .undefined => .undefined
  | .binary => .binary
  | .any => .any
  | .optional _ => .optional
  | .array _ => .array
  | .enum _ => .enum
  | .object _ => .object
  | .anyChannel => .anyChannel
  | .channel _ => .channel
  | .named _ => .named

/-- The text behind the opening. -/
def remainder (level : Nat) : Validator → String
  | .optional inner | .array inner => inner.print level ++ ")"
  | .enum texts | .channel texts => quotedList texts ++ "])"
  | .object [] => "\x7d)"
  | .object (slot :: slots) =>
    "\n" ++ printSlots (level + 1) (slot :: slots) ++ indentation level ++ "\x7d)"
  | .named name => quoted name ++ ")"
  | _ => ""

theorem print_eq (level : Nat) (validator : Validator) :
    validator.print level = validator.kind.opening ++ validator.remainder level := by
  cases validator with
  | object slots =>
    cases slots <;> simp [print, kind, Kind.opening, remainder, ← String.append_assoc]
  | _ => simp [print, kind, Kind.opening, remainder, ← String.append_assoc]

/-- No opening goes on to another one. -/
theorem Kind.eq_of_prefix (a b : Kind) :
    a.opening.toList <+: b.opening.toList → a = b := by
  cases a <;> cases b <;> decide

theorem opening_append_inj {a b : Kind}
    (h : a.opening.toList ++ rest = b.opening.toList ++ other) : a = b ∧ rest = other := by
  have same : a = b := by
    rcases List.prefix_or_prefix_of_prefix (List.prefix_append _ rest)
      (h ▸ List.prefix_append _ other) with ab | ba
    · exact Kind.eq_of_prefix a b ab
    · exact (Kind.eq_of_prefix b a ba).symm
  rw [same] at h
  exact ⟨same, List.append_cancel_left h⟩

/-- Equal texts come from validators of one kind, and go on equally. -/
theorem remainder_of_print {level : Nat} {v w : Validator}
    (h : (v.print level).toList ++ rest = (w.print level).toList ++ other) :
    v.kind = w.kind ∧
      (v.remainder level).toList ++ rest = (w.remainder level).toList ++ other := by
  rw [print_eq, print_eq, String.toList_append, String.toList_append, List.append_assoc,
    List.append_assoc] at h
  exact opening_append_inj h

/-! ## Whole texts -/

theorem toList_printSlots_cons (level : Nat) (slot : Slot) (slots : List Slot) :
    (printSlots level (slot :: slots)).toList =
      (indentation level).toList ++ ((key slot.name).toList ++ ':' :: ' ' ::
        ((slot.validator.print level).toList ++
          ',' :: '\n' :: (printSlots level slots).toList)) := by
  obtain ⟨name, validator⟩ := slot
  simp [printSlots]

/-- The line of a field starts further in than the brace that closes the object. -/
theorem printSlots_append_ne (level : Nat) (slot : Slot) (slots : List Slot) :
    (printSlots (level + 1) (slot :: slots)).toList ++ rest ≠
      (indentation level).toList ++ '\x7d' :: other := by
  simp [toList_printSlots_cons, indentation_succ]

mutual

theorem print_append_inj (level : Nat) (v w : Validator) {rest other : List Char}
    (h : (v.print level).toList ++ rest = (w.print level).toList ++ other) :
    v = w ∧ rest = other := by
  obtain ⟨same, tail⟩ := remainder_of_print h
  cases v with
  | string | boolean | number | undefined | binary | any | anyChannel =>
    cases w <;> cases same
    simpa [remainder] using tail
  | optional inner | array inner =>
    cases w <;> cases same
    rename_i inner'
    simp only [remainder, String.toList_append, List.append_assoc] at tail
    obtain ⟨rfl, tail⟩ := print_append_inj level inner inner' tail
    simpa using tail
  | enum texts | channel texts =>
    cases w <;> cases same
    rename_i words
    simp only [remainder, String.toList_append, List.append_assoc] at tail
    obtain ⟨rfl, tail⟩ := quotedList_append_inj tail
    simpa using tail
  | object slots =>
    cases w <;> cases same
    rename_i slots'
    cases slots with
    | nil =>
      cases slots' with
      | nil => simpa [remainder] using tail
      | cons slot' slots' => simp [remainder] at tail
    | cons slot slots =>
      cases slots' with
      | nil => simp [remainder] at tail
      | cons slot' slots' =>
        simp only [remainder, String.toList_append, List.append_assoc] at tail
        obtain ⟨same, tail⟩ := printSlots_append_inj level (slot :: slots) (slot' :: slots')
          (List.append_cancel_left tail)
        exact ⟨by rw [same], by simpa using tail⟩
  | named name =>
    cases w <;> cases same
    rename_i word
    simp only [remainder, String.toList_append, List.append_assoc] at tail
    obtain ⟨rfl, tail⟩ := quoted_append_inj tail
    simpa using tail

/-- The fields of an object go on up to the closing brace, which stands further out. -/
theorem printSlots_append_inj (level : Nat) (slots slots' : List Slot) {rest other : List Char}
    (h : (printSlots (level + 1) slots).toList ++ ((indentation level).toList ++ '\x7d' :: rest) =
      (printSlots (level + 1) slots').toList ++ ((indentation level).toList ++ '\x7d' :: other)) :
    slots = slots' ∧ rest = other := by
  cases slots with
  | nil =>
    cases slots' with
    | nil => simpa [printSlots] using h
    | cons slot' slots' => exact absurd h.symm (printSlots_append_ne level slot' slots')
  | cons slot slots =>
    cases slots' with
    | nil => exact absurd h (printSlots_append_ne level slot slots)
    | cons slot' slots' =>
      obtain ⟨name, validator⟩ := slot
      obtain ⟨name', validator'⟩ := slot'
      simp only [toList_printSlots_cons, List.append_assoc, List.cons_append] at h
      obtain ⟨rfl, line⟩ := key_append_inj rfl rfl (List.append_cancel_left h)
      obtain ⟨rfl, more⟩ := print_append_inj (level + 1) validator validator'
        (List.cons.inj (List.cons.inj line).2).2
      obtain ⟨rfl, rfl⟩ := printSlots_append_inj level slots slots'
        (List.cons.inj (List.cons.inj more).2).2
      exact ⟨rfl, rfl⟩

end

end ChannelProtocol.Validator
