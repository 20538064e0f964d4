-- Checks as runs that come to an end, step by step and without a record of the names that
-- were looked up. A check ends with an outcome exactly if it does not say that a name is
-- endless.
import ChannelProtocol.Proofs.Registry.Calls
import ChannelProtocol.Proofs.Registry.Sanitizing

namespace ChannelProtocol.Registry

variable {registry : Registry} {channels : Channels} {path : List PathStep} {payload : Payload}
  {validator : Validator}

/-! ## Runs -/

/-- What a check is at work on: a payload, the items of an array of which some are checked, or the
declared fields of an object of which some are collected. -/
inductive Task where
  | whole (validator : Validator) (payload : Payload)
  | items (element : Validator) (checked rest : List Payload)
  | slots (declared : List Slot) (fields checked : List PayloadField)

/-- The fields that are collected after one more was checked. -/
def collect (name : String) (value : Option Payload) (checked : List PayloadField) :
    List PayloadField :=
  match value with
  | some value => Payload.setField name value checked
  | none => checked

/-- A task at a path is done with an outcome. Names are looked up as often as they come. -/
inductive Evaluates (registry : Registry) (channels : Channels) :
    List PathStep → Task → Except Failure (Option Payload) → Prop
  | leftOut {path : List PathStep} {inner : Validator} :
      Evaluates registry channels path (.whole (.optional inner) .null) (.ok none)
  | option {path : List PathStep} {inner : Validator} {payload : Payload}
      {outcome : Except Failure (Option Payload)} : payload.isThere →
      Evaluates registry channels path (.whole inner payload) outcome →
      Evaluates registry channels path (.whole (.optional inner) payload) outcome
  | lookup {path : List PathStep} {name : String} {entry : Validator} {payload : Payload}
      {outcome : Except Failure (Option Payload)} : registry.get? name = some entry →
      Evaluates registry channels path (.whole entry payload) outcome →
      Evaluates registry channels path (.whole (.named name) payload) outcome
  | unknown {path : List PathStep} {name : String} {payload : Payload} :
      registry.get? name = none →
      Evaluates registry channels path (.whole (.named name) payload)
        (.error ⟨path, .unknownType name⟩)
  | reject {path : List PathStep} {rule : Validator} {payload : Payload} {complaint : Complaint} :
      rule.isRule → complaint? channels payload rule = some complaint →
      Evaluates registry channels path (.whole rule payload) (.error ⟨path, complaint⟩)
  | accept {path : List PathStep} {rule : Validator} {payload : Payload} :
      rule.isLeaf → complaint? channels payload rule = none →
      Evaluates registry channels path (.whole rule payload) (.ok (present? payload))
  | array {path : List PathStep} {element : Validator} {items : List Payload}
      {outcome : Except Failure (Option Payload)} :
      Evaluates registry channels path (.items element [] items) outcome →
      Evaluates registry channels path (.whole (.array element) (.array items)) outcome
  | object {path : List PathStep} {slots : List Slot} {fields : List PayloadField}
      {outcome : Except Failure (Option Payload)} :
      Evaluates registry channels path (.slots slots fields []) outcome →
      Evaluates registry channels path (.whole (.object slots) (.object fields)) outcome
  | noItem {path : List PathStep} {element : Validator} {checked : List Payload} :
      Evaluates registry channels path (.items element checked []) (.ok (some (.array checked)))
  | item {path : List PathStep} {element : Validator} {checked rest : List Payload}
      {item : Payload} {value : Option Payload} {outcome : Except Failure (Option Payload)} :
      Evaluates registry channels (path ++ [.index checked.length]) (.whole element item)
        (.ok value) →
      Evaluates registry channels path (.items element (checked ++ [value.getD .null]) rest)
        outcome →
      Evaluates registry channels path (.items element checked (item :: rest)) outcome
  | itemFails {path : List PathStep} {element : Validator} {checked rest : List Payload}
      {item : Payload} {failure : Failure} :
      Evaluates registry channels (path ++ [.index checked.length]) (.whole element item)
        (.error failure) →
      Evaluates registry channels path (.items element checked (item :: rest)) (.error failure)
  | noSlot {path : List PathStep} {fields checked : List PayloadField} :
      Evaluates registry channels path (.slots [] fields checked) (.ok (some (.object checked)))
  | slot {path : List PathStep} {slot : Slot} {rest : List Slot}
      {fields checked : List PayloadField} {value : Option Payload}
      {outcome : Except Failure (Option Payload)} :
      Evaluates registry channels (path ++ [.key slot.name])
        (.whole slot.validator (Payload.valueAt slot.name fields)) (.ok value) →
      Evaluates registry channels path (.slots rest fields (collect slot.name value checked))
        outcome →
      Evaluates registry channels path (.slots (slot :: rest) fields checked) outcome
  | slotFails {path : List PathStep} {slot : Slot} {rest : List Slot}
      {fields checked : List PayloadField} {failure : Failure} :
      Evaluates registry channels (path ++ [.key slot.name])
        (.whole slot.validator (Payload.valueAt slot.name fields)) (.error failure) →
      Evaluates registry channels path (.slots (slot :: rest) fields checked) (.error failure)

/-- A check of an input comes to an end. -/
def Terminates (registry : Registry) (channels : Channels) (validator : Validator)
    (input : Option Payload) : Prop :=
  ∃ outcome, registry.Evaluates channels [] (.whole validator (input.getD .null)) outcome

/-- The outcome that stands for a run without an end. -/
def Endless (outcome : Except Failure (Option Payload)) : Prop :=
  ∃ path name, outcome = .error ⟨path, .endlessType name⟩

theorem not_endless_ok (value : Option Payload) : ¬ Endless (.ok value) := by
  rintro ⟨path, name, h⟩
  cases h

/-! ## Following names and options -/

/-- Names and options of a validator lead to what is left of it, over these names. -/
inductive Unwinds (registry : Registry) (present : Bool) :
    List String → Validator → Settled → Prop
  | leftOut {inner : Validator} : present = false →
      Unwinds registry present [] (.optional inner) .leftOut
  | option {names : List String} {inner : Validator} {settled : Settled} : present = true →
      Unwinds registry present names inner settled →
      Unwinds registry present names (.optional inner) settled
  | lookup {names : List String} {name : String} {entry : Validator} {settled : Settled} :
      registry.get? name = some entry → Unwinds registry present names entry settled →
      Unwinds registry present (name :: names) (.named name) settled
  | unknown {name : String} : registry.get? name = none →
      Unwinds registry present [name] (.named name) (.unknown name)
  | rule {rule : Validator} : rule.isRule → Unwinds registry present [] rule (.rule rule)

namespace Unwinds

variable {present : Bool} {names others : List String} {settled other : Settled} {name : String}

theorem unique (first : registry.Unwinds present names validator settled)
    (second : registry.Unwinds present others validator other) : names = others := by
  induction first generalizing others with
  | leftOut absent =>
    cases second with
    | leftOut => rfl
    | option there => simp [absent] at there
    | rule rule => cases rule
  | option there _ ih =>
    cases second with
    | leftOut absent => simp [there] at absent
    | option _ second => exact ih second
    | rule rule => cases rule
  | lookup found _ ih =>
    cases second with
    | lookup found' second =>
      rw [found] at found'
      cases found'
      rw [ih second]
    | unknown missing => simp [found] at missing
    | rule rule => cases rule
  | unknown missing =>
    cases second with
    | lookup found => simp [missing] at found
    | unknown => rfl
    | rule rule => cases rule
  | rule rule =>
    cases second with
    | leftOut | option | lookup | unknown => cases rule
    | rule => rfl

/-- The way goes on from each of its names. -/
theorem from_name (unwinds : registry.Unwinds present names validator settled)
    (mem : name ∈ names) :
    ∃ later, registry.Unwinds present later (.named name) settled ∧
      later.length ≤ names.length := by
  induction unwinds with
  | leftOut | rule => cases mem
  | option _ _ ih => exact ih mem
  | lookup found rest ih =>
    rcases List.mem_cons.mp mem with rfl | mem
    · exact ⟨_, .lookup found rest, Nat.le_refl _⟩
    · obtain ⟨later, unwinds, short⟩ := ih mem
      exact ⟨later, unwinds, Nat.le_succ_of_le short⟩
  | unknown missing =>
    rw [List.mem_singleton] at mem
    subst mem
    exact ⟨_, .unknown missing, Nat.le_refl _⟩

/-- No name comes twice, as the way from it would be as long as what is left of it. -/
theorem not_mem_of_lookup {entry : Validator} (found : registry.get? name = some entry)
    (unwinds : registry.Unwinds present names entry settled) : name ∉ names := by
  intro mem
  obtain ⟨later, again, short⟩ := unwinds.from_name mem
  have same := again.unique (.lookup found unwinds)
  rw [same, List.length_cons] at short
  omega

theorem settle_eq (unwinds : registry.Unwinds present names validator settled)
    {seen : List String} (fresh : ∀ name ∈ names, name ∉ seen) :
    registry.settle present seen validator = settled := by
  induction unwinds generalizing seen with
  | leftOut absent => rw [settle, if_neg (by simp [absent])]
  | option there _ ih =>
    rw [settle, if_pos there]
    exact ih fresh
  | lookup found rest ih =>
    obtain ⟨here, later⟩ := List.forall_mem_cons.mp fresh
    rw [settle_named here found]
    refine ih fun name mem => ?_
    have ne := ne_of_mem_of_not_mem mem (not_mem_of_lookup found rest)
    simp [ne, later name mem]
  | unknown missing => exact settle_unknown (fresh _ (by simp)) missing
  | rule rule => exact settle_of_isRule rule

end Unwinds

theorem exists_unwinds {present : Bool} {seen : List String}
    (h : ∀ name, registry.settle present seen validator ≠ .endless name) :
    ∃ names, registry.Unwinds present names validator (registry.settle present seen validator) := by
  fun_induction registry.settle present seen validator with
  | case1 seen inner there ih =>
    obtain ⟨names, unwinds⟩ := ih h
    exact ⟨names, .option there unwinds⟩
  | case2 seen inner absent => exact ⟨[], .leftOut (by simpa using absent)⟩
  | case3 seen name used => exact absurd rfl (h name)
  | case4 seen name fresh missing => exact ⟨[name], .unknown missing⟩
  | case5 seen name fresh entry found _ ih =>
    obtain ⟨names, unwinds⟩ := ih h
    exact ⟨name :: names, .lookup found unwinds⟩
  | case6 seen validator noOption noName =>
    exact ⟨[], .rule (Validator.isRule_of_ne noOption noName)⟩

/-- Unless it is endless, what is left of an entry is left of its name. -/
theorem settle_lookup {present : Bool} {name : String} {entry : Validator}
    (found : registry.get? name = some entry)
    (h : ∀ other, registry.settle present [] entry ≠ .endless other) :
    registry.settle present [] (.named name) = registry.settle present [] entry := by
  obtain ⟨names, unwinds⟩ := exists_unwinds h
  exact (Unwinds.lookup found unwinds).settle_eq (by simp)

/-- Where no rule is left, nothing of the payload is looked at. -/
theorem checkAt_of_settle {settled : Settled} (noRule : ∀ rule, settled ≠ .rule rule)
    (h : registry.settle payload.isThere [] validator = settled) :
    registry.checkAt channels path validator payload = verdict channels path payload settled := by
  subst h
  refine checkAt_eq_verdict ?_ ?_
  · intro kind element
    cases payload <;> cases kind
    exact noRule _
  · intro kind slots
    cases payload <;> cases kind
    exact noRule _

/-! ## Runs and checks -/

/-- What the check gives for a task. -/
def Task.outcome (registry : Registry) (channels : Channels) (path : List PathStep) :
    Task → Except Failure (Option Payload)
  | .whole validator payload => registry.checkAt channels path validator payload
  | .items element checked rest =>
    (registry.checkItems channels path element checked.length rest).map fun more =>
      some (.array (checked ++ more))
  | .slots declared fields checked =>
    (registry.checkSlots channels path declared fields checked).map (some ∘ .object)

theorem outcome_item {element : Validator} {checked rest : List Payload} {item : Payload}
    {value : Option Payload}
    (passed : registry.checkAt channels (path ++ [.index checked.length]) element item =
      .ok value) :
    Task.outcome registry channels path (.items element checked (item :: rest)) =
      Task.outcome registry channels path
        (.items element (checked ++ [value.getD .null]) rest) := by
  simp only [Task.outcome, checkItems, passed, List.length_append, List.length_singleton]
  cases registry.checkItems channels path element (checked.length + 1) rest <;>
    simp [bind, Except.bind, pure, Except.pure, Except.map]

theorem outcome_itemFails {element : Validator} {checked rest : List Payload} {item : Payload}
    {failure : Failure}
    (failed : registry.checkAt channels (path ++ [.index checked.length]) element item =
      .error failure) :
    Task.outcome registry channels path (.items element checked (item :: rest)) =
      .error failure := by
  simp only [Task.outcome, checkItems, failed]
  rfl

theorem outcome_slot {slot : Slot} {rest : List Slot} {fields checked : List PayloadField}
    {value : Option Payload}
    (passed : registry.checkAt channels (path ++ [.key slot.name]) slot.validator
      (Payload.valueAt slot.name fields) = .ok value) :
    Task.outcome registry channels path (.slots (slot :: rest) fields checked) =
      Task.outcome registry channels path
        (.slots rest fields (collect slot.name value checked)) := by
  simp only [Task.outcome, checkSlots, List.foldlM_cons, checkSlot_eq, passed]
  cases value <;> rfl

theorem outcome_slotFails {slot : Slot} {rest : List Slot} {fields checked : List PayloadField}
    {failure : Failure}
    (failed : registry.checkAt channels (path ++ [.key slot.name]) slot.validator
      (Payload.valueAt slot.name fields) = .error failure) :
    Task.outcome registry channels path (.slots (slot :: rest) fields checked) =
      .error failure := by
  simp only [Task.outcome, checkSlots, List.foldlM_cons, checkSlot_eq, failed]
  rfl

/-- A rule that finds something wrong with the head of a payload rejects it. -/
theorem checkAt_of_complaint {rule : Validator} {complaint : Complaint} (isRule : rule.isRule)
    (complained : complaint? channels payload rule = some complaint) :
    registry.checkAt channels path rule payload = .error ⟨path, complaint⟩ := by
  rw [checkAt_eq_verdict, settle_of_isRule isRule, verdict, complained]
  · intro kind element settled
    cases (settle_of_isRule isRule).symm.trans settled
    simp [complaint?, complaint?.expect, kind] at complained
  · intro kind slots settled
    cases (settle_of_isRule isRule).symm.trans settled
    simp [complaint?, complaint?.expect, kind] at complained

/-- A run that ends gives what the check gives, and that is not endless. -/
theorem Evaluates.outcome_eq {task : Task} {outcome : Except Failure (Option Payload)}
    (run : registry.Evaluates channels path task outcome) :
    Task.outcome registry channels path task = outcome ∧ ¬ Endless outcome := by
  induction run with
  | leftOut => exact ⟨checkAt_optional_null _, not_endless_ok _⟩
  | option there _ ih => exact ⟨(checkAt_optional there _).trans ih.1, ih.2⟩
  | @lookup path name entry payload outcome found _ ih =>
    refine ⟨?_, ih.2⟩
    -- The entry was not endless, so that its name is not either.
    have ends (other : String) :
        registry.settle payload.isThere [] entry ≠ .endless other := by
      intro endless
      exact ih.2 ⟨path, other, ih.1.symm.trans (checkAt_of_settle (by simp) endless)⟩
    exact (checkAt_congr (settle_lookup found ends)).trans ih.1
  | @unknown path name payload missing =>
    refine ⟨?_, fun ⟨_, _, h⟩ => by cases h⟩
    exact checkAt_of_settle (by simp) (settle_unknown List.not_mem_nil missing)
  | reject isRule complained =>
    refine ⟨checkAt_of_complaint isRule complained, fun ⟨_, _, h⟩ => ?_⟩
    cases h
    exact complaint?_ne.2 complained
  | accept leaf fine =>
    refine ⟨?_, not_endless_ok _⟩
    rw [Task.outcome, checkAt_of_isLeaf leaf, verdict, fine]
  | array _ ih =>
    refine ⟨?_, ih.2⟩
    rw [Task.outcome, checkAt_array_of_settle (settle_array _)]
    exact ih.1
  | object _ ih =>
    refine ⟨?_, ih.2⟩
    rw [Task.outcome, checkAt_object_of_settle (settle_object _)]
    exact ih.1
  | noItem => exact ⟨by simp [Task.outcome, checkItems, Except.map], not_endless_ok _⟩
  | item _ _ first rest => exact ⟨(outcome_item first.1).trans rest.1, rest.2⟩
  | itemFails _ first => exact ⟨outcome_itemFails first.1, first.2⟩
  | noSlot => exact ⟨rfl, not_endless_ok _⟩
  | slot _ _ first rest => exact ⟨(outcome_slot first.1).trans rest.1, rest.2⟩
  | slotFails _ first => exact ⟨outcome_slotFails first.1, first.2⟩

/-- A check that does not say that a name is endless is a run that ends. -/
def Completes (registry : Registry) (channels : Channels) (validator : Validator)
    (payload : Payload) : Prop :=
  ∀ path, ¬ Endless (registry.checkAt channels path validator payload) →
    registry.Evaluates channels path (.whole validator payload)
      (registry.checkAt channels path validator payload)

theorem evaluates_items {element : Validator} {checked rest : List Payload}
    (each : ∀ item ∈ rest, registry.Completes channels element item)
    (ends : ¬ Endless (Task.outcome registry channels path (.items element checked rest))) :
    registry.Evaluates channels path (.items element checked rest)
      (Task.outcome registry channels path (.items element checked rest)) := by
  induction rest generalizing checked with
  | nil =>
    have done : Task.outcome registry channels path (.items element checked []) =
        .ok (some (.array checked)) := by
      simp [Task.outcome, checkItems, Except.map]
    rw [done]
    exact .noItem
  | cons item rest ih =>
    obtain ⟨here, later⟩ := List.forall_mem_cons.mp each
    have run := here (path ++ [.index checked.length])
    cases first : registry.checkAt channels (path ++ [.index checked.length]) element item with
    | error failure =>
      rw [first] at run
      rw [outcome_itemFails first] at ends ⊢
      exact .itemFails (run ends)
    | ok value =>
      rw [first] at run
      rw [outcome_item first] at ends ⊢
      exact .item (run (not_endless_ok value)) (ih later ends)

theorem evaluates_slots {slots : List Slot} {fields checked : List PayloadField}
    (each : ∀ slot ∈ slots,
      registry.Completes channels slot.validator (Payload.valueAt slot.name fields))
    (ends : ¬ Endless (Task.outcome registry channels path (.slots slots fields checked))) :
    registry.Evaluates channels path (.slots slots fields checked)
      (Task.outcome registry channels path (.slots slots fields checked)) := by
  induction slots generalizing checked with
  | nil => exact .noSlot
  | cons slot rest ih =>
    obtain ⟨here, later⟩ := List.forall_mem_cons.mp each
    have run := here (path ++ [.key slot.name])
    cases first : registry.checkAt channels (path ++ [.key slot.name]) slot.validator
        (Payload.valueAt slot.name fields) with
    | error failure =>
      rw [first] at run
      rw [outcome_slotFails first] at ends ⊢
      exact .slotFails (run ends)
    | ok value =>
      rw [first] at run
      rw [outcome_slot first] at ends ⊢
      exact .slot (run (not_endless_ok value)) (ih later ends)

/-- Rules hand on only what is smaller. -/
theorem completes_of_isRule {rule : Validator} (isRule : rule.isRule)
    (smaller : ∀ validator value, sizeOf value < sizeOf payload →
      registry.Completes channels validator value) :
    registry.Completes channels rule payload := by
  intro path ends
  cases complained : complaint? channels payload rule with
  | some complaint =>
    rw [checkAt_of_complaint isRule complained]
    exact .reject isRule complained
  | none =>
    by_cases leaf : rule.isLeaf
    · rw [checkAt_of_isLeaf leaf, verdict, complained]
      exact .accept leaf complained
    · cases rule with
      | array element =>
        cases payload with
        | array items =>
          rw [checkAt_array_of_settle (settle_array _)] at ends ⊢
          exact .array (evaluates_items
            (fun item mem => smaller _ _ (Payload.sizeOf_item_lt mem)) ends)
        | null | bool | number | string | object =>
          simp [complaint?, complaint?.expect, Payload.kind] at complained
      | object slots =>
        cases payload with
        | object fields =>
          rw [checkAt_object_of_settle (settle_object _)] at ends ⊢
          exact .object (evaluates_slots
            (fun slot mem => smaller _ _ (Payload.sizeOf_valueAt_lt _ _)) ends)
        | null | bool | number | string | array =>
          simp [complaint?, complaint?.expect, Payload.kind] at complained
      | optional | named => cases isRule
      | string | boolean | number | undefined | binary | any | enum | anyChannel | channel =>
        exact absurd rfl leaf

/-- A run goes along names and options to what is left behind them. -/
theorem Unwinds.evaluates {names : List String} {settled : Settled}
    (unwinds : registry.Unwinds payload.isThere names validator settled)
    (left : ∀ rule, rule.isRule → settled = .rule rule →
      registry.Evaluates channels path (.whole rule payload)
        (registry.checkAt channels path rule payload)) :
    registry.Evaluates channels path (.whole validator payload)
      (registry.checkAt channels path validator payload) := by
  induction unwinds with
  | leftOut absent =>
    rw [Payload.isThere_eq_false_iff.mp absent, checkAt_optional_null]
    exact .leftOut
  | option there _ ih =>
    rw [checkAt_optional there]
    exact .option there (ih left)
  | lookup found rest ih =>
    have ofName := (Unwinds.lookup found rest).settle_eq fun _ _ => List.not_mem_nil
    have ofEntry := rest.settle_eq fun _ _ => List.not_mem_nil
    rw [checkAt_congr (ofName.trans ofEntry.symm)]
    exact .lookup found (ih left)
  | unknown missing =>
    rw [checkAt_of_settle (by simp) (settle_unknown List.not_mem_nil missing)]
    exact .unknown missing
  | rule isRule => exact left _ isRule rfl

theorem completes (validator : Validator) (payload : Payload) :
    registry.Completes channels validator payload := by
  induction payload using (measure (sizeOf : Payload → Nat)).wf.induction generalizing validator with
  | h payload ih =>
    intro path ends
    have settles (name : String) :
        registry.settle payload.isThere [] validator ≠ .endless name := by
      intro endless
      exact ends ⟨path, name, checkAt_of_settle (by simp) endless⟩
    obtain ⟨names, unwinds⟩ := exists_unwinds settles
    apply unwinds.evaluates
    intro rule isRule left
    -- What is left behind the names is checked as the validator is, so that it ends too.
    have same : registry.checkAt channels path validator payload =
        registry.checkAt channels path rule payload :=
      checkAt_congr (left.trans (settle_of_isRule isRule).symm)
    rw [same] at ends
    exact completes_of_isRule isRule (fun validator value small => ih value small validator)
      path ends

/-- Runs that end are the checks that do not say that a name is endless. -/
theorem evaluates_iff {outcome : Except Failure (Option Payload)} :
    registry.Evaluates channels path (.whole validator payload) outcome ↔
      registry.checkAt channels path validator payload = outcome ∧ ¬ Endless outcome := by
  refine ⟨fun run => run.outcome_eq, ?_⟩
  rintro ⟨rfl, ends⟩
  exact completes validator payload path ends

/-- A check comes to an end exactly if it does not say that a name is endless. -/
theorem terminates_iff {input : Option Payload} :
    registry.Terminates channels validator input ↔
      ¬ Endless (registry.check channels validator input) := by
  rw [check_eq]
  constructor
  · rintro ⟨outcome, run⟩
    rw [evaluates_iff] at run
    exact run.1 ▸ run.2
  · intro ends
    exact ⟨_, evaluates_iff.mpr ⟨rfl, ends⟩⟩

theorem check_of_evaluates {input : Option Payload} {outcome : Except Failure (Option Payload)}
    (run : registry.Evaluates channels [] (.whole validator (input.getD .null)) outcome) :
    registry.check channels validator input = outcome := by
  rw [check_eq]
  exact (evaluates_iff.mp run).1

end ChannelProtocol.Registry
