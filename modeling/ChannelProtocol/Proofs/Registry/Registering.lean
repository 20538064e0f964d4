-- Registering is conservative: a name that is taken changes nothing, and a new name
-- changes no check that came to an end without asking for it.
import ChannelProtocol.Proofs.Compiled.Registrations
import ChannelProtocol.Proofs.Registry.Evaluation

namespace ChannelProtocol.Registry

/-! ## Registering as a program -/

/-- Registers a validator in a registry that is changed in place. -/
def enroll (new : Registration) : EStateM Schema.Error Registry Unit := do
  match (← get).table.get? new.name with
  | some old => throw (.nameCollision new.name old.origin new.origin)
  | none => modify fun registry => ⟨registry.table.insert new.name ⟨new.validator, new.origin⟩⟩

variable {registry next : Registry} {new : Registration}

theorem run_enroll_taken {old : Registered} (taken : registry.table.get? new.name = some old) :
    (enroll new).run registry =
      .error (.nameCollision new.name old.origin new.origin) registry := by
  unfold enroll
  simp only [EStateM.run_bind, EStateM.run_get, taken]
  rfl

theorem register_taken {old : Registered} (taken : registry.table.get? new.name = some old) :
    registry.register new = .error (.nameCollision new.name old.origin new.origin) := by
  unfold register
  split
  · rename_i found
    cases taken.symm.trans found
    rfl
  · rename_i missing
    cases taken.symm.trans missing

/-- In place or not, a new entry comes last. -/
theorem run_enroll_fresh (registered : registry.register new = .ok next) :
    (enroll new).run registry = .ok () next := by
  obtain ⟨fresh, entries⟩ := register_eq_ok_iff.mp registered
  have missing := (Table.get?_eq_none_iff ..).mpr fresh
  have pushed : next = ⟨registry.table.insert new.name ⟨new.validator, new.origin⟩⟩ := by
    rw [Table.insert, dif_neg fresh]
    exact eq_of_entries entries
  unfold enroll
  simp only [EStateM.run_bind, EStateM.run_get, missing, pushed]
  rfl

/-! ## Checks with one more name -/

theorem get?_of_register (registered : registry.register new = .ok next) {name : String}
    (other : name ≠ new.name) : next.get? name = registry.get? name := by
  have absent : (name == new.name) = false := by simpa using other
  unfold get? Table.get?
  rw [show next.table.entries = _ from (register_eq_ok_iff.mp registered).2, List.lookup_append,
    Registration.entry, List.lookup_cons, absent, List.lookup_nil, Option.or_none]
  rfl

/-- A run that ends goes the same way in a registry with one more name, unless it ends because
that name is unknown. -/
theorem Evaluates.of_more {channels : Channels} {path : List PathStep} {task : Task} {name : String}
    {outcome : Except Failure (Option Payload)} (fresh : registry.get? name = none)
    (others : ∀ other, other ≠ name → next.get? other = registry.get? other)
    (run : registry.Evaluates channels path task outcome)
    (known : ∀ place, outcome ≠ .error ⟨place, .unknownType name⟩) :
    next.Evaluates channels path task outcome := by
  induction run with
  | leftOut => exact .leftOut
  | option there _ ih => exact .option there (ih known)
  | @lookup path other entry payload outcome found _ ih =>
    have ne : other ≠ name := by
      rintro rfl
      simp [fresh] at found
    exact .lookup ((others other ne).trans found) (ih known)
  | @unknown path other payload missing =>
    have ne : other ≠ name := by
      rintro rfl
      exact known path rfl
    exact .unknown ((others other ne).trans missing)
  | reject isRule complained => exact .reject isRule complained
  | accept leaf passed => exact .accept leaf passed
  | array _ ih => exact .array (ih known)
  | object _ ih => exact .object (ih known)
  | noItem => exact .noItem
  -- What was accepted on the way asked for no unknown name at all.
  | item _ _ first rest => exact .item (first (by simp)) (rest known)
  | itemFails _ ih => exact .itemFails (ih known)
  | noSlot => exact .noSlot
  | slot _ _ first rest => exact .slot (first (by simp)) (rest known)
  | slotFails _ ih => exact .slotFails (ih known)

/-- Registering under a name that is taken fails with the origin of the older entry first, and
leaves the registry as it was. A new name comes last and changes no entry, and every check that
came to an end comes to the same end afterwards, unless it ended because this name was unknown.
Checks come to an end exactly if they do not say that a name is endless. -/
theorem register_conservative (registry : Registry) (new : Registration) :
    (∀ channels validator input, registry.Terminates channels validator input ↔
      ¬ Endless (registry.check channels validator input)) ∧
    (∀ old, registry.table.get? new.name = some old →
      registry.register new = .error (.nameCollision new.name old.origin new.origin) ∧
      (enroll new).run registry =
        .error (.nameCollision new.name old.origin new.origin) registry) ∧
    (registry.contains new.name = false → ∃ next,
      registry.register new = .ok next ∧
      (enroll new).run registry = .ok () next ∧
      next.entries = registry.entries ++ [(new.name, ⟨new.validator, new.origin⟩)] ∧
      ∀ channels validator input, registry.Terminates channels validator input →
        (∀ path, registry.check channels validator input ≠
          .error ⟨path, .unknownType new.name⟩) →
        next.Terminates channels validator input ∧
        next.check channels validator input = registry.check channels validator input) := by
  refine ⟨fun _ _ _ => terminates_iff,
    fun old taken => ⟨register_taken taken, run_enroll_taken taken⟩, fun absent => ?_⟩
  have missing : registry.table.get? new.name = none := by
    simpa [contains, Table.contains] using absent
  obtain ⟨next, registered⟩ := exists_register ((Table.get?_eq_none_iff ..).mp missing)
  refine ⟨next, registered, run_enroll_fresh registered, (register_eq_ok_iff.mp registered).2, ?_⟩
  rintro channels validator input ⟨outcome, run⟩ known
  rw [check_of_evaluates run] at known ⊢
  have fresh : registry.get? new.name = none := by rw [get?, missing, Option.map_none]
  have again := run.of_more fresh (fun _ other => get?_of_register registered other) known
  exact ⟨⟨outcome, again⟩, check_of_evaluates again⟩

/-! ## A registry that waits for a name -/

/-- Lines start at a point, and may have a color, which is not registered. -/
def lineRegistry : Registry where
  table :=
    { entries := [
        ("Point", ⟨.object [⟨"x", .number⟩], .object "Point"⟩),
        ("Line", ⟨.object [⟨"start", .named "Point"⟩, ⟨"color", .optional (.named "Color")⟩],
          .object "Line"⟩)]
      distinct := by decide }

def colorRegistration : Registration := ⟨"Color", .enum ["red"], .enum "Color"⟩

/-- A line without a color. -/
def plainLine : Payload := .object [⟨"start", .object [⟨"x", .number ⟨1, 0⟩⟩]⟩]

theorem evaluates_plainLine (channels : Channels) :
    lineRegistry.Evaluates channels [] (.whole (.named "Line") plainLine)
      (.ok (some plainLine)) := by
  have point : lineRegistry.Evaluates channels [.key "start"]
      (.whole (.named "Point") (.object [⟨"x", .number ⟨1, 0⟩⟩]))
      (.ok (some (.object [⟨"x", .number ⟨1, 0⟩⟩]))) :=
    .lookup rfl (.object (.slot (.accept rfl rfl) .noSlot))
  exact .lookup rfl (.object (.slot point (.slot .leftOut .noSlot)))

/-- With the color, the plain line is checked as before. Points are taken. -/
theorem lineRegistry_keeps_plainLine :
    lineRegistry.contains "Color" = false ∧
    lineRegistry.Terminates (fun _ => none) (.named "Line") (some plainLine) ∧
    lineRegistry.check (fun _ => none) (.named "Line") (some plainLine) =
      .ok (some plainLine) ∧
    (∃ next, lineRegistry.register colorRegistration = .ok next ∧
      next.entries = lineRegistry.entries ++ [("Color", ⟨.enum ["red"], .enum "Color"⟩)] ∧
      next.check (fun _ => none) (.named "Line") (some plainLine) = .ok (some plainLine)) ∧
    (enroll ⟨"Point", .string, .enum "Point"⟩).run lineRegistry =
      .error (.nameCollision "Point" (.object "Point") (.enum "Point")) lineRegistry := by
  have ends : lineRegistry.Terminates (fun _ => none) (.named "Line") (some plainLine) :=
    ⟨_, evaluates_plainLine _⟩
  have checked : lineRegistry.check (fun _ => none) (.named "Line") (some plainLine) =
      .ok (some plainLine) := check_of_evaluates (evaluates_plainLine _)
  have absent : lineRegistry.contains "Color" = false := by decide
  obtain ⟨next, registered, -, entries, same⟩ :=
    (register_conservative lineRegistry colorRegistration).2.2 absent
  have kept := (same _ _ _ ends (by simp [checked])).2
  have taken := (register_conservative lineRegistry ⟨"Point", .string, .enum "Point"⟩).2.1 _ rfl
  exact ⟨absent, ends, checked, ⟨next, registered, entries, kept.trans checked⟩, taken.2⟩

end ChannelProtocol.Registry
