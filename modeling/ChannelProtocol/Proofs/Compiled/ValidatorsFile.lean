-- A validators file says all that a registry checks: the names and the
-- validators of the entries can be told from its text.
import ChannelProtocol.Compiled
import ChannelProtocol.Proofs.Registry.Printing

namespace ChannelProtocol

open TypeScript

/-- The names of a registry with their validators, in order. -/
def Registry.validators (registry : Registry) : List (String × Validator) :=
  registry.entries.map fun entry => (entry.1, entry.2.validator)

namespace Compiled

/-! ## The lines of a file -/

def entryLine (entry : String × Validator) : String :=
  "scheme" ++ "." ++ entry.1 ++ " = " ++ entry.2.print 0 ++ ";\n"

theorem print_entryItem (entry : String × Registered) :
    (entryItem entry).print = entryLine (entry.1, entry.2.validator) := by
  simp only [entryItem, Item.print, Statement.print, Expr.print, entryLine]

theorem toList_entryLine (entry : String × Validator) :
    (entryLine entry).toList = "scheme.".toList ++ (entry.1.toList ++ ' ' :: '=' :: ' ' ::
      ((entry.2.print 0).toList ++ [';', '\n'])) := by
  simp [entryLine]

/-- What stands above the entries is the same in every file with this schema's name. -/
theorem print_validatorsModule (registry : Registry) (schemaName : String) :
    (validatorsModule registry schemaName).print =
      (validatorsModule .empty schemaName).print ++ String.join (registry.validators.map entryLine)
    := by
  have lines : (registry.entries.map entryItem).map Item.print =
      registry.validators.map entryLine := by
    rw [Registry.validators, List.map_map, List.map_map]
    exact List.map_congr_left fun entry _ => print_entryItem entry
  have none : String.join ((Registry.empty.entries.map entryItem).map Item.print) = "" := rfl
  unfold Module.print validatorsModule
  rw [lines, none, String.append_empty]

/-- Lines for names that are identifiers can be told apart: a name ends at the blank, and its
validator shows itself where it ends. -/
theorem entryLines_inj (first second : List (String × Validator))
    (hf : ∀ entry ∈ first, isIdentifier entry.1) (hs : ∀ entry ∈ second, isIdentifier entry.1)
    (h : (String.join (first.map entryLine)).toList =
      (String.join (second.map entryLine)).toList) : first = second := by
  induction first generalizing second with
  | nil =>
    cases second with
    | nil => rfl
    | cons entry second => simp [toList_entryLine] at h
  | cons entry first ih =>
    cases second with
    | nil => simp [toList_entryLine] at h
    | cons entry' second =>
      obtain ⟨name, validator⟩ := entry
      obtain ⟨name', validator'⟩ := entry'
      rw [List.forall_mem_cons] at hf hs
      simp only [List.map_cons, String.join_cons, toList_entryLine, String.toList_append,
        List.append_assoc, List.cons_append] at h
      obtain ⟨rfl, line⟩ := identifier_append_inj hf.1 hs.1 rfl rfl (List.append_cancel_left h)
      simp only [List.cons.injEq, true_and] at line
      obtain ⟨rfl, more⟩ := Validator.print_append_inj 0 validator validator' line
      simp only [List.nil_append, List.cons.injEq, true_and] at more
      rw [ih second hf.2 hs.2 more]

/-! ## What a file says -/

/-- Registries whose names are identifiers and whose files are the same have the same entries.
More generally, the text of a validator tells it from any other one, at every level and with
anything behind it. -/
theorem validators_file_tells_registry :
    (∀ (first second : Registry) (schemaName : String),
      (∀ entry ∈ first.entries, isIdentifier entry.1) →
      (∀ entry ∈ second.entries, isIdentifier entry.1) →
      (validatorsModule first schemaName).print = (validatorsModule second schemaName).print →
      first.validators = second.validators) ∧
    ∀ (level : Nat) (v w : Validator) (rest other : String),
      v.print level ++ rest = w.print level ++ other → v = w ∧ rest = other := by
  constructor
  · intro first second schemaName hf hs h
    rw [print_validatorsModule first, print_validatorsModule second, String.append_right_inj] at h
    refine entryLines_inj _ _ ?_ ?_ (congrArg String.toList h)
    · rw [Registry.validators, List.forall_mem_map]
      exact hf
    · rw [Registry.validators, List.forall_mem_map]
      exact hs
  · intro level v w rest other h
    have chars := congrArg String.toList h
    rw [String.toList_append, String.toList_append] at chars
    obtain ⟨same, tail⟩ := Validator.print_append_inj level v w chars
    exact ⟨same, String.toList_inj.mp tail⟩

/-- A registry with one entry. -/
def singleRegistry (name : String) (validator : Validator) (origin : Schema.Origin) : Registry :=
  ⟨⟨[(name, ⟨validator, origin⟩)], by simp⟩⟩

/-- Where an entry comes from is not in the file. A literal that looks like two is told from
them, and so is an object with one field from one whose field is named like its text. -/
theorem size_files_agree :
    (singleRegistry "Size" (.enum ["small"]) (.enum "Size")).validators =
        (singleRegistry "Size" (.enum ["small"]) (.other "by hand")).validators ∧
      (Validator.enum ["a", "b"]).print 0 ≠ (Validator.enum ["a\", \"b"]).print 0 ∧
      (Validator.object [⟨"a", .any⟩, ⟨"b", .any⟩]).print 1 ≠
        (Validator.object [⟨"a: tAny,\n    b", .any⟩]).print 1 := by
  obtain ⟨files, texts⟩ := validators_file_tells_registry
  have size : isIdentifier "Size" := by decide
  have named (origin : Schema.Origin) :
      ∀ entry ∈ (singleRegistry "Size" (.enum ["small"]) origin).entries,
        isIdentifier entry.1 := by
    intro entry mem
    rw [List.mem_singleton.mp mem]
    exact size
  refine ⟨files _ _ "protocol.yml" (named _) (named _) rfl, fun same => ?_, fun same => ?_⟩
  · have equal := (texts 0 _ _ "" "" (congrArg (· ++ "") same)).1
    simp at equal
  · have equal := (texts 1 _ _ "" "" (congrArg (· ++ "") same)).1
    simp at equal

end Compiled

end ChannelProtocol
