-- Names in a compiled registry. Each one has an entry, and an entry is at most
-- one further name away from a validator that looks at the payload. So no check
-- runs into a name that is unknown or endless.
import ChannelProtocol.Proofs.Compiled.Acceptance
import ChannelProtocol.Proofs.Registry.Lookups

namespace ChannelProtocol.Compiled

open Schema Registry

/-! ## Names and channels in twins -/

theorem within_of_within_slot {inner : Validator} {field : ResolvedField}
    (noOption : ∀ other, inner ≠ .optional other)
    (within : Validator.Within inner field.slot.validator) :
    Validator.Within inner field.type.validator := by
  unfold ResolvedField.slot at within
  dsimp only at within
  split at within
  · cases within with
    | refl => exact absurd rfl (noOption _)
    | optional within => exact within
  · exact within

/-- The names in a twin are those of objects and enums, and the kinds are those of channels. -/
theorem within_twin {doc : Document} {ty : TypeScript.Ty} {validator : Validator}
    (twin : Twin doc ty validator) :
    (∀ name, Validator.Within (.named name) validator → doc.isNamedType name) ∧
      ∀ kinds, Validator.Within (.channel kinds) validator →
        ∀ kind ∈ kinds, doc.isChannel kind := by
  induction twin with
  | string | boolean | number | undefined | binary | any | anyChannel | literals =>
    exact ⟨nofun, nofun⟩
  | named known =>
    refine ⟨fun name within => ?_, nofun⟩
    cases within
    exact known
  | channel known =>
    refine ⟨nofun, fun kinds within kind mem => ?_⟩
    cases within
    rw [List.mem_singleton.mp mem]
    exact known
  | array _ ih =>
    refine ⟨fun name within => ?_, fun kinds within => ?_⟩
    · cases within with
      | array within => exact ih.1 name within
    · cases within with
      | array within => exact ih.2 kinds within
  | object _ ih =>
    refine ⟨fun name within => ?_, fun kinds within => ?_⟩
    · cases within with
      | object mem within =>
        obtain ⟨field, listed, rfl⟩ := List.mem_map.mp mem
        exact (ih field listed).1 name (within_of_within_slot (by simp) within)
    · cases within with
      | object mem within =>
        obtain ⟨field, listed, rfl⟩ := List.mem_map.mp mem
        exact (ih field listed).2 kinds (within_of_within_slot (by simp) within)

/-! ## The entries of a compiled registry -/

variable {doc : Document} {schemaName : String} {compiled : Compiled}

theorem declaredValidator_cases {location : Location} {declared : Option (List Property)}
    {validator : Validator} (h : declaredValidator doc location declared = .ok validator) :
    (∃ ty, Twin doc ty validator ∧ validator.isRule) ∨ validator = .optional (.object []) := by
  cases declared with
  | none =>
    cases h
    exact .inr rfl
  | some list =>
    obtain ⟨fields, resolved, rfl⟩ := map_eq_ok_iff.mp h
    exact .inl ⟨_, Document.twin_of_resolve resolved, rfl⟩

/-- An undeclared list holds neither names nor channels. -/
theorem not_within_undeclared {inner : Validator} (noOption : ∀ other, inner ≠ .optional other)
    (noObject : ∀ slots, inner ≠ .object slots) :
    ¬ Validator.Within inner (.optional (.object [])) := by
  rintro (_ | within)
  · exact noOption _ rfl
  · cases within with
    | refl => exact noObject _ rfl
    | object mem => cases mem

/-- An entry is a twin, or it stands for an undeclared list, or it is the name of the parameters
that a channel takes over, which are one of the others. -/
theorem entry_cases (built : ofDocument doc schemaName = .ok compiled) {name : String}
    {validator : Validator} (found : compiled.registry.get? name = some validator) :
    ((∃ ty, Twin doc ty validator ∧ validator.isRule) ∨ validator = .optional (.object [])) ∨
    ∃ target final, validator = .named target ∧ compiled.registry.get? target = some final ∧
      final.isBare := by
  obtain ⟨origin, registers⟩ := (get?_registry_iff built).mp found
  cases registers with
  | initializer _ resolved => exact .inl (.inl ⟨_, Document.twin_of_resolve resolved, rfl⟩)
  | event _ _ h | parameters _ _ h | result _ _ h => exact .inl (declaredValidator_cases h)
  | object _ resolved => exact .inl (.inl ⟨_, Document.twin_of_resolve resolved, rfl⟩)
  | enum => exact .inl (.inl ⟨_, .literals _, rfl⟩)
  | inherited _ _ parent mem _ =>
    obtain ⟨⟨command, body⟩, hc, rfl⟩ := List.mem_map.mp mem
    obtain ⟨final, made⟩ := ((succeeds_channelValidators built parent).2.2 _ hc).1
    refine .inr ⟨_, final, rfl, (get?_registry_iff built).mpr ⟨_, .parameters parent hc made⟩, ?_⟩
    rcases declaredValidator_cases made with ⟨ty, -, rule⟩ | rfl
    · exact Validator.isBare_of_isRule rule
    · rfl

theorem shallow_registry (built : ofDocument doc schemaName = .ok compiled) :
    compiled.registry.Shallow := by
  intro name entry found
  rcases entry_cases built found with (⟨ty, -, rule⟩ | rfl) | last
  · exact .inl (Validator.isBare_of_isRule rule)
  · exact .inl rfl
  · exact .inr last

/-- Each name in an entry has an entry, and each kind is that of a channel. -/
theorem within_entry (built : ofDocument doc schemaName = .ok compiled) {name : String}
    {entry : Validator} (found : compiled.registry.get? name = some entry) :
    compiled.registry.Bound entry ∧
      ∀ kinds, Validator.Within (.channel kinds) entry → ∀ kind ∈ kinds, doc.isChannel kind := by
  rcases entry_cases built found with (⟨ty, twin, -⟩ | rfl) | ⟨target, final, rfl, last, -⟩
  · refine ⟨fun other within => ?_, (within_twin twin).2⟩
    have known := (within_twin twin).1 other within
    obtain ⟨-, validator, -, -, registered, -⟩ := twins_of_name built (.inl known)
    exact contains_iff_get?.mpr ⟨validator, registered⟩
  · exact ⟨fun other within => absurd within (not_within_undeclared nofun nofun),
      fun kinds within => absurd within (not_within_undeclared nofun nofun)⟩
  · refine ⟨fun other within => ?_, nofun⟩
    cases within
    exact contains_iff_get?.mpr ⟨final, last⟩

/-! ## Checks against a compiled registry -/

theorem pageDocument_inherits (built : ofDocument pageDocument "protocol.yml" = .ok compiled) :
    compiled.registry.get? (paramsName "Page" "click") =
      some (.named (paramsName "Node" "click")) :=
  (get?_registry_iff built).mpr
    ⟨.inherited "Page" "Node" "click", .inherited rfl rfl rfl (by decide) (by decide)⟩

/-- A compiled registry is closed. Each name in an entry has an entry, each kind is that of a
channel of the document, and no check against a registered name fails at an unknown one. -/
theorem registry_closed (built : ofDocument doc schemaName = .ok compiled) :
    (∀ name entry, compiled.registry.get? name = some entry →
      (∀ other, Validator.Within (.named other) entry → compiled.registry.contains other) ∧
      ∀ kinds, Validator.Within (.channel kinds) entry → ∀ kind ∈ kinds, doc.isChannel kind) ∧
    ∀ name, compiled.registry.contains name → ∀ channels payload failure,
      compiled.registry.validate channels name payload = .error failure →
        ∀ other, failure.complaint ≠ .unknownType other := by
  have entries (name : String) (entry : Validator)
      (found : compiled.registry.get? name = some entry) := within_entry built found
  refine ⟨entries, fun name known channels payload failure failed other late => ?_⟩
  have bound : compiled.registry.Bound (.named name) := by
    intro other within
    cases within
    exact known
  obtain ⟨value, reached, missing⟩ := exists_missing_of_error (map_eq_error_iff.mp failed) late
  have last := bound.reaches (fun name entry found => (entries name entry found).1) reached
  obtain ⟨entry, found⟩ := contains_iff_get?.mp (last other .refl)
  rw [missing] at found
  cases found

theorem pageDocument_closed :
    ∃ compiled, ofDocument pageDocument "protocol.yml" = .ok compiled ∧
      compiled.registry.get? (paramsName "Page" "click") =
        some (.named (paramsName "Node" "click")) ∧
      compiled.registry.contains (paramsName "Node" "click") ∧
      ∀ channels payload failure,
        compiled.registry.validate channels (paramsName "Page" "click") payload = .error failure →
          ∀ other, failure.complaint ≠ .unknownType other := by
  obtain ⟨compiled, built⟩ := pageDocument_compiles
  have registered := pageDocument_inherits built
  obtain ⟨entries, known⟩ := registry_closed built
  exact ⟨compiled, built, registered, (entries _ _ registered).1 _ .refl,
    known _ (contains_iff_get?.mpr ⟨_, registered⟩)⟩

/-- Checks against a compiled registry end. All calls do, at most two lookups follow each other on
the same payload, a name is checked as its entry, and no check fails at an endless name. -/
theorem check_recursion_ends (built : ofDocument doc schemaName = .ok compiled) :
    WellFounded (Function.swap compiled.registry.Calls) ∧
    (∀ count call last, compiled.registry.Follows count call last → count ≤ 2) ∧
    (∀ channels path name entry payload, compiled.registry.get? name = some entry →
      compiled.registry.checkAt channels path (.named name) payload =
        compiled.registry.checkAt channels path entry payload) ∧
    ∀ channels name payload failure,
      compiled.registry.validate channels name payload = .error failure →
        ∀ other, failure.complaint ≠ .endlessType other := by
  have shallow := shallow_registry built
  have finite := shallow.wellFounded
  refine ⟨finite, fun _ _ _ follows => follows.le_two shallow,
    fun _ _ _ _ _ found => checkAt_lookup finite found, ?_⟩
  intro channels name payload failure failed other late
  obtain ⟨value, cycle⟩ := exists_cycle_of_error (map_eq_error_iff.mp failed) late
  exact not_transGen_of_wellFounded finite _ cycle

theorem pageDocument_recursion_ends :
    ∃ compiled, ofDocument pageDocument "protocol.yml" = .ok compiled ∧
      WellFounded (Function.swap compiled.registry.Calls) ∧
      (∀ count call last, compiled.registry.Follows count call last → count ≤ 2) ∧
      ∀ channels path payload,
        compiled.registry.checkAt channels path (.named (paramsName "Page" "click")) payload =
          compiled.registry.checkAt channels path (.named (paramsName "Node" "click")) payload := by
  obtain ⟨compiled, built⟩ := pageDocument_compiles
  obtain ⟨finite, few, same, -⟩ := check_recursion_ends built
  exact ⟨compiled, built, finite, few,
    fun channels path payload => same channels path _ _ payload (pageDocument_inherits built)⟩

end ChannelProtocol.Compiled
