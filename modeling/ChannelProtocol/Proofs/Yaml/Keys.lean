-- What holds at every depth of a YAML value. A value that is read from a text
-- has no key twice in any of its mappings.
import ChannelProtocol.Proofs.Success
import ChannelProtocol.Yaml.Value.Loader

namespace ChannelProtocol.Yaml

namespace Value

/-! ## Every depth -/

/-- A value that is part of another one: an item, a key, a value under a key, or what has a tag. -/
inductive Within (inner : Value) : Value → Prop
  | refl : Within inner inner
  | item {items : List Value} {item : Value} : item ∈ items → Within inner item →
      Within inner (.sequence items)
  | key {entries : List Entry} {entry : Entry} : entry ∈ entries → Within inner entry.key →
      Within inner (.mapping entries)
  | value {entries : List Entry} {entry : Entry} : entry ∈ entries → Within inner entry.value →
      Within inner (.mapping entries)
  | content {tag : String} {content : Value} : Within inner content →
      Within inner (.tagged tag content)

theorem Within.trans {inner middle outer : Value} (first : inner.Within middle)
    (second : middle.Within outer) : inner.Within outer := by
  induction second with
  | refl => exact first
  | item mem _ ih => exact .item mem ih
  | key mem _ ih => exact .key mem ih
  | value mem _ ih => exact .value mem ih
  | content _ ih => exact .content ih

theorem within_of_mapping {entries : List Entry} {outer : Value}
    (within : (Value.mapping entries).Within outer) :
    ∀ entry ∈ entries, entry.value.Within outer :=
  fun _ mem => .trans (.value mem .refl) within

/-- A property holds of a value and of all its parts. -/
def Throughout (property : Value → Prop) (value : Value) : Prop :=
  ∀ inner, Within inner value → property inner

variable {property other : Value → Prop}

theorem throughout_and_iff {value : Value} :
    value.Throughout (fun inner => property inner ∧ other inner) ↔
      value.Throughout property ∧ value.Throughout other := by
  unfold Throughout
  simp only [imp_and, forall_and]

theorem throughout_sequence_iff {items : List Value} :
    (Value.sequence items).Throughout property ↔
      property (.sequence items) ∧ ∀ item ∈ items, item.Throughout property := by
  constructor
  · intro h
    exact ⟨h _ .refl, fun item mem inner within => h inner (.item mem within)⟩
  · rintro ⟨here, deeper⟩ inner within
    cases within with
    | refl => exact here
    | item mem within => exact deeper _ mem inner within

theorem throughout_mapping_iff {entries : List Entry} :
    (Value.mapping entries).Throughout property ↔ property (.mapping entries) ∧
      ∀ entry ∈ entries, entry.key.Throughout property ∧ entry.value.Throughout property := by
  constructor
  · intro h
    refine ⟨h _ .refl, fun entry mem => ⟨fun inner within => ?_, fun inner within => ?_⟩⟩
    · exact h inner (.key mem within)
    · exact h inner (.value mem within)
  · rintro ⟨here, deeper⟩ inner within
    cases within with
    | refl => exact here
    | key mem within => exact (deeper _ mem).1 inner within
    | value mem within => exact (deeper _ mem).2 inner within

theorem throughout_tagged_iff {tag : String} {content : Value} :
    (Value.tagged tag content).Throughout property ↔
      property (.tagged tag content) ∧ content.Throughout property := by
  constructor
  · intro h
    exact ⟨h _ .refl, fun inner within => h inner (.content within)⟩
  · rintro ⟨here, deeper⟩ inner within
    cases within with
    | refl => exact here
    | content within => exact deeper inner within

/-- A value without parts. -/
def isScalar : Value → Bool
  | .null | .bool _ | .number _ | .string _ => true
  | _ => false

theorem throughout_scalar_iff {value : Value} (scalar : value.isScalar) :
    value.Throughout property ↔ property value := by
  constructor
  · intro h
    exact h _ .refl
  · intro h inner within
    cases within with
    | refl => exact h
    | item | key | value | content => cases scalar

/-! ## Tags and keys -/

/-- The value itself has no tag. -/
def Bare : Value → Prop
  | .tagged .. => False
  | _ => True

/-- The value itself has no key twice. -/
def DistinctHere : Value → Prop
  | .mapping entries => entries.Pairwise fun first second => second.key.same first.key = false
  | _ => True

/-- Nothing in the value has a tag. -/
def Untagged (value : Value) : Prop := value.Throughout Bare

/-- No mapping in the value has a key twice. -/
def KeysDistinct (value : Value) : Prop := value.Throughout DistinctHere

/-- A value without tags and without keys that come twice. -/
def Plain (value : Value) : Prop := value.Throughout fun inner => inner.Bare ∧ inner.DistinctHere

theorem plain_iff {value : Value} : value.Plain ↔ value.Untagged ∧ value.KeysDistinct :=
  throughout_and_iff

theorem plain_scalar {value : Value} (scalar : value.isScalar) : value.Plain := by
  rw [Plain, throughout_scalar_iff scalar]
  cases value <;> simp_all [isScalar, Bare, DistinctHere]

@[simp]
theorem plain_string (text : String) : (Value.string text).Plain := plain_scalar rfl

theorem plain_sequence_iff {items : List Value} :
    (Value.sequence items).Plain ↔ ∀ item ∈ items, item.Plain := by
  unfold Plain
  rw [throughout_sequence_iff]
  simp [Bare, DistinctHere]

theorem plain_mapping_iff {entries : List Entry} :
    (Value.mapping entries).Plain ↔
      (entries.Pairwise fun first second => second.key.same first.key = false) ∧
        ∀ entry ∈ entries, entry.key.Plain ∧ entry.value.Plain := by
  unfold Plain
  rw [throughout_mapping_iff]
  simp [Bare, DistinctHere]

/-- What can be read as a string, and has no tag, is one. -/
theorem eq_string_of_bare {value : Value} (bare : value.Bare) {text : String}
    (h : value.asString? = some text) : value = .string text := by
  unfold asString? at h
  cases value with
  | tagged => exact absurd bare (by simp [Bare])
  | string => simp_all [untagged]
  | null | bool | number | sequence | mapping => simp [untagged] at h

end Value

/-! ## Values that are read -/

open Value

theorem keysDistinct_under {value : Value} (distinct : value.KeysDistinct) (tag : Option String) :
    (value.under tag).KeysDistinct := by
  cases tag with
  | none => exact distinct
  | some tag => exact throughout_tagged_iff.mpr ⟨trivial, distinct⟩

theorem keysDistinct_scalar {value : Value} (scalar : value.isScalar) : value.KeysDistinct :=
  (plain_iff.mp (plain_scalar scalar)).2

theorem isScalar_of_typedScalar {tag text : String} {value : Value}
    (h : typedScalar tag text = .ok value) : value.isScalar := by
  unfold typedScalar at h
  repeat' split at h
  all_goals cases h
  all_goals rfl

theorem isScalar_of_plainValue? {text : String} {value : Value}
    (h : plainValue? text = some value) : value.isScalar := by
  unfold plainValue? at h
  repeat' split at h
  all_goals cases h
  all_goals rfl

theorem isScalar_of_untypedScalar {plain : Bool} {text : String} {value : Value}
    (h : untypedScalar plain text = .ok value) : value.isScalar := by
  unfold untypedScalar at h
  split at h
  · split at h
    · rename_i read
      cases h
      exact isScalar_of_plainValue? read
    · cases h
  · cases h
    rfl

/-- A computation that counts references gives only values with distinct keys. -/
def GivesDistinct (load : Nat → Node Nat → Except SyntaxError (Value × Nat)) : Prop :=
  ∀ followed node value count, load followed node = .ok (value, count) → value.KeysDistinct

variable {loadKey loadValue : Nat → Node Nat → Except SyntaxError (Value × Nat)}

theorem keysDistinct_loadItems (each : GivesDistinct loadValue) {nodes : List (Node Nat)}
    {followed count : Nat} {values : List Value}
    (h : loadItems loadValue followed nodes = .ok (values, count)) :
    ∀ value ∈ values, value.KeysDistinct := by
  induction nodes generalizing followed values with
  | nil =>
    cases h
    simp
  | cons node rest ih =>
    obtain ⟨⟨first, next⟩, loaded, h⟩ := bind_eq_ok_iff.mp h
    obtain ⟨⟨others, last⟩, later, h⟩ := bind_eq_ok_iff.mp h
    cases h
    exact List.forall_mem_cons.mpr ⟨each _ _ _ _ loaded, ih later⟩

/-- The entries that were loaded before stay apart from each new one, in the reverse order. -/
theorem keysDistinct_loadPairs (eachKey : GivesDistinct loadKey) (each : GivesDistinct loadValue)
    {pairs : List (Pair Nat)} {followed count : Nat} {before entries : List Entry}
    (apart : DistinctHere (.mapping before.reverse))
    (deeper : ∀ entry ∈ before, entry.key.KeysDistinct ∧ entry.value.KeysDistinct)
    (h : loadPairs loadKey loadValue followed before pairs = .ok (entries, count)) :
    (Value.mapping entries).KeysDistinct := by
  induction pairs generalizing followed before with
  | nil =>
    cases h
    refine throughout_mapping_iff.mpr ⟨apart, fun entry mem => ?_⟩
    exact deeper entry (List.mem_reverse.mp mem)
  | cons pair rest ih =>
    obtain ⟨⟨key, next⟩, keyed, h⟩ := bind_eq_ok_iff.mp h
    dsimp only at h
    split at h
    · cases h
    · rename_i fresh
      obtain ⟨⟨value, last⟩, valued, h⟩ := bind_eq_ok_iff.mp h
      have new : ∀ entry ∈ before, key.same entry.key = false := by
        intro entry mem
        simp only [List.any_eq_true, not_exists, not_and, Bool.not_eq_true] at fresh
        exact fresh entry mem
      refine ih ?_ ?_ h
      · unfold DistinctHere at apart ⊢
        simpa [List.pairwise_append, apart] using new
      · intro entry mem
        rcases List.mem_cons.mp mem with rfl | mem
        · exact ⟨eachKey _ _ _ _ keyed, each _ _ _ _ valued⟩
        · exact deeper entry mem

theorem givesDistinct_load (links : Links) (depth : Nat) (tagged : Bool) :
    GivesDistinct (load links depth tagged) := by
  induction depth using Nat.strongRecOn generalizing tagged with
  | ind depth ih =>
    intro followed node value count h
    unfold load at h
    obtain ⟨⟨target, next⟩, -, h⟩ := bind_eq_ok_iff.mp h
    dsimp only at h
    cases target with
    | reference => cases h
    | scalar properties plain text =>
      dsimp only at h
      split at h
      · obtain ⟨scalar, read, h⟩ := bind_eq_ok_iff.mp h
        cases h
        exact keysDistinct_under (keysDistinct_scalar (isScalar_of_untypedScalar read)) (some _)
      · obtain ⟨scalar, read, h⟩ := bind_eq_ok_iff.mp h
        cases h
        exact keysDistinct_scalar (isScalar_of_typedScalar read)
      · obtain ⟨scalar, read, h⟩ := bind_eq_ok_iff.mp h
        cases h
        exact keysDistinct_scalar (isScalar_of_untypedScalar read)
    | sequence properties items =>
      cases depth with
      | zero => cases h
      | succ depth =>
        obtain ⟨⟨values, last⟩, loaded, h⟩ := bind_eq_ok_iff.mp h
        cases h
        have each := keysDistinct_loadItems (ih depth (Nat.lt_succ_self depth) false) loaded
        exact keysDistinct_under (throughout_sequence_iff.mpr ⟨trivial, each⟩) _
    | mapping properties pairs =>
      cases depth with
      | zero => cases h
      | succ depth =>
        obtain ⟨⟨entries, last⟩, loaded, h⟩ := bind_eq_ok_iff.mp h
        cases h
        have deeper (tagged : Bool) := ih depth (Nat.lt_succ_self depth) tagged
        have start : DistinctHere (.mapping ([] : List Entry).reverse) := List.Pairwise.nil
        have distinct := keysDistinct_loadPairs (deeper _) (deeper false) start (by simp) loaded
        exact keysDistinct_under distinct _

/-- No mapping in a value that is read from a text has a key twice. -/
theorem keysDistinct_of_read {text : String} {value : Value} (h : read text = .ok value) :
    value.KeysDistinct := by
  obtain ⟨tokens, -, h⟩ := bind_eq_ok_iff.mp h
  obtain ⟨node, -, h⟩ := bind_eq_ok_iff.mp h
  obtain ⟨⟨root, anchors⟩, -, h⟩ := bind_eq_ok_iff.mp h
  obtain ⟨⟨loaded, count⟩, made, h⟩ := bind_eq_ok_iff.mp h
  cases h
  exact givesDistinct_load _ _ _ _ _ _ _ made

end ChannelProtocol.Yaml
