-- Resolving as it is meant: each inline object is resolved like a list of its own,
-- and no way is remembered. With room for more and more lists inside one another
-- this gives in the end what a resolution with its path gives at once, and where
-- the path meets a mixin again, no room is ever enough.
import ChannelProtocol.Proofs.Schema.Inlining
import ChannelProtocol.Proofs.Schema.References

namespace ChannelProtocol

/-! ## Outcomes that may never come -/

section

variable {ε α β : Type}

/-- What is known of an outcome: all, or nothing yet. -/
def Below (known outcome : Except (Stop ε) α) : Prop := known = .error .endless ∨ known = outcome

theorem below_refl (outcome : Except (Stop ε) α) : Below outcome outcome := .inr rfl

theorem Below.trans {known outcome last : Except (Stop ε) α} (h : Below known outcome)
    (h' : Below outcome last) : Below known last := by
  rcases h with h | rfl
  · exact .inl h
  · exact h'

theorem Below.bind {known outcome : Except (Stop ε) α} {next next' : α → Except (Stop ε) β}
    (h : Below known outcome) (later : ∀ value, Below (next value) (next' value)) :
    Below (known >>= next) (outcome >>= next') := by
  rcases h with rfl | rfl
  · exact .inl rfl
  · cases known with
    | error stop => exact .inr rfl
    | ok value => exact later value

theorem below_mapM {f g : α → Except (Stop ε) β} {inputs : List α}
    (each : ∀ input ∈ inputs, Below (f input) (g input)) :
    Below (inputs.mapM f) (inputs.mapM g) := by
  induction inputs with
  | nil => exact .inr rfl
  | cons input rest ih =>
    obtain ⟨here, later⟩ := List.forall_mem_cons.mp each
    rw [List.mapM_cons, List.mapM_cons]
    exact here.bind fun _ => (ih later).bind fun _ => .inr rfl

/-- Two outcomes that are the same but for the errors. -/
inductive Alike : Except (Stop ε) α → Except (Stop ε) α → Prop
  | ok {value : α} : Alike (.ok value) (.ok value)
  | fails {error other : ε} : Alike (.error (.fails error)) (.error (.fails other))
  | endless : Alike (.error .endless) (.error .endless)

theorem Alike.bind {first second : Except (Stop ε) α} {next next' : α → Except (Stop ε) β}
    (h : Alike first second) (later : ∀ value, Alike (next value) (next' value)) :
    Alike (first >>= next) (second >>= next') := by
  cases h with
  | ok => exact later _
  | fails => exact .fails
  | endless => exact .endless

theorem alike_mapM {f g : α → Except (Stop ε) β} {inputs : List α}
    (each : ∀ input, Alike (f input) (g input)) : Alike (inputs.mapM f) (inputs.mapM g) := by
  induction inputs with
  | nil => exact .ok
  | cons input rest ih =>
    rw [List.mapM_cons, List.mapM_cons]
    exact (each input).bind fun _ => ih.bind fun _ => .ok

/-- A list of computations never ends if one of them does not, and all before it succeed as far
as they end. -/
theorem mapM_endless {f : α → Except (Stop ε) β} {before after : List α} {input : α}
    (each : ∀ other ∈ before, ∃ value, Below (f other) (.ok value))
    (here : f input = .error .endless) :
    (before ++ input :: after).mapM f = .error .endless := by
  induction before with
  | nil =>
    rw [List.nil_append, List.mapM_cons, here]
    rfl
  | cons first rest ih =>
    obtain ⟨⟨value, below⟩, later⟩ := List.forall_mem_cons.mp each
    rw [List.cons_append, List.mapM_cons, ih later]
    rcases below with endless | same
    · rw [endless]
      rfl
    · rw [same]
      rfl

end

namespace Schema.Document

open Relation

variable {doc : Document} {location place : Location} {list inner : List Property} {depth : Nat}

/-! ## Resolving with room for some lists inside one another -/

/-- How to resolve the list of an inline object. -/
abbrev Resolver := Location → List Property → Except (Stop Error) (List ResolvedField)

/-- The type and the validator of a shape. -/
def shapeBy (doc : Document) (resolver : Resolver) (location : Location) :
    Shape → Except (Stop Error) (TypeScript.Ty × Validator)
  | .array ⟨element, _⟩ => do
    let (ts, validator) ← doc.shapeBy resolver (.element location) element
    return (.array ts, .array validator)
  | .object inner => do
    let fields ← resolver location inner
    return (objectTs fields, objectValidator fields)
  | shape => doc.resolveShape [] location shape

def entryBy (doc : Document) (resolver : Resolver) (location : Location) (entry : String × Ty) :
    Except (Stop Error) ResolvedField := do
  let (ts, validator) ← doc.shapeBy resolver (.member location entry.1) entry.2.shape
  return ⟨entry.1, ⟨ts, validator, entry.2.optional⟩⟩

/-- The fields of a list, if there are at most `depth` lists inside one another. Nothing is
remembered of the way to a list. -/
def resolveWithin (doc : Document) : Nat → Resolver
  | 0, _, _ => .error .endless
  | depth + 1, location, list => do
    let fields ← (doc.expand location list).mapError .fails
    (fields.map Inlined.entry).mapM (doc.entryBy (doc.resolveWithin depth) location)

theorem shapeBy_of_isLeaf {resolver : Resolver} {shape : Shape} (leaf : shape.isLeaf) :
    doc.shapeBy resolver location shape = doc.resolveShape [] location shape := by
  cases shape with
  | reference | channel | array | object => cases leaf
  | string | boolean | number | undefined | binary | any | anyChannel | literals => rfl

theorem resolveWithin_succ {entries : List (String × Ty)} (inlines : doc.Inlines list entries) :
    doc.resolveWithin (depth + 1) location list =
      entries.mapM (doc.entryBy (doc.resolveWithin depth) location) := by
  obtain ⟨fields, expanded, rfl⟩ := map_eq_ok_iff.mp (expand_eq_ok_iff.mpr inlines)
  rw [resolveWithin, expanded]
  rfl

theorem resolveWithin_fails (refused : ∀ entries, ¬ doc.Inlines list entries) (depth : Nat)
    (location : Location) :
    ∃ error, doc.resolveWithin (depth + 1) location list = .error (.fails error) := by
  cases expanded : doc.expand location list with
  | ok fields => exact absurd (inlines_of_inlineFields expanded) (refused _)
  | error error =>
    refine ⟨error, ?_⟩
    rw [resolveWithin, expanded]
    rfl

/-! ## More room gives no other outcome -/

theorem below_shapeBy (doc : Document) {resolver other : Resolver}
    (h : ∀ location list, Below (resolver location list) (other location list))
    (location : Location) (shape : Shape) :
    Below (doc.shapeBy resolver location shape) (doc.shapeBy other location shape) := by
  fun_induction doc.shapeBy resolver location shape with
  | case1 location element optional ih =>
    rw [shapeBy]
    exact ih.bind fun _ => .inr rfl
  | case2 location inner =>
    rw [shapeBy]
    exact (h location inner).bind fun _ => .inr rfl
  | case3 location shape noArray noObject =>
    rw [shapeBy] <;> first | assumption | exact below_refl _

theorem below_entryBy (doc : Document) {resolver other : Resolver}
    (h : ∀ location list, Below (resolver location list) (other location list))
    (location : Location) (entry : String × Ty) :
    Below (doc.entryBy resolver location entry) (doc.entryBy other location entry) :=
  (below_shapeBy doc h _ _).bind fun _ => .inr rfl

theorem below_resolveWithin_succ (depth : Nat) (location : Location) (list : List Property) :
    Below (doc.resolveWithin depth location list)
      (doc.resolveWithin (depth + 1) location list) := by
  induction depth generalizing location list with
  | zero => exact .inl rfl
  | succ depth ih =>
    rw [resolveWithin, resolveWithin]
    exact (below_refl _).bind fun _ => below_mapM fun entry _ => below_entryBy doc ih location entry

theorem below_resolveWithin {further : Nat} (room : depth ≤ further) (location : Location)
    (list : List Property) :
    Below (doc.resolveWithin depth location list) (doc.resolveWithin further location list) := by
  induction further, room using Nat.le_induction with
  | base => exact below_refl _
  | succ further _ ih => exact ih.trans (below_resolveWithin_succ further location list)

/-- With any room an entry that is once resolved is resolved to the same, or not yet. -/
theorem below_ok_of_entryBy {entry : String × Ty} {field : ResolvedField}
    (resolved : doc.entryBy (doc.resolveWithin depth) location entry = .ok field) (room : Nat) :
    Below (doc.entryBy (doc.resolveWithin room) location entry) (.ok field) := by
  rcases Nat.le_total room depth with less | more
  · rw [← resolved]
    exact below_entryBy doc (below_resolveWithin less) location entry
  · rcases below_entryBy doc (below_resolveWithin more) location entry with h | h
    · rw [resolved] at h
      cases h
    · rw [← h, resolved]
      exact below_refl _

/-! ## The place plays no part -/

theorem alike_shapeBy (doc : Document) {resolver : Resolver}
    (h : ∀ location place list, Alike (resolver location list) (resolver place list))
    (location place : Location) (shape : Shape) :
    Alike (doc.shapeBy resolver location shape) (doc.shapeBy resolver place shape) := by
  fun_induction doc.shapeBy resolver location shape generalizing place with
  | case1 location element optional ih =>
    rw [shapeBy]
    exact (ih _).bind fun _ => .ok
  | case2 location inner =>
    rw [shapeBy]
    exact (h location place inner).bind fun _ => .ok
  | case3 location shape noArray noObject =>
    cases shape with
    | array element =>
      obtain ⟨shape, optional⟩ := element
      exact (noArray shape optional rfl).elim
    | object inner => exact (noObject _ rfl).elim
    | reference name | channel name =>
      rw [shapeBy, resolveShape, resolveShape]
      · split
        · exact .ok
        · exact .fails
      all_goals simp
    | string | boolean | number | undefined | binary | any | anyChannel | literals =>
      rw [shapeBy, resolveShape, resolveShape]
      · exact .ok
      all_goals simp

theorem alike_entryBy (doc : Document) {resolver : Resolver}
    (h : ∀ location place list, Alike (resolver location list) (resolver place list))
    (location place : Location) (entry : String × Ty) :
    Alike (doc.entryBy resolver location entry) (doc.entryBy resolver place entry) :=
  (alike_shapeBy doc h _ _ _).bind fun _ => .ok

theorem alike_resolveWithin (doc : Document) (depth : Nat) (location place : Location)
    (list : List Property) :
    Alike (doc.resolveWithin depth location list) (doc.resolveWithin depth place list) := by
  induction depth generalizing location place list with
  | zero => exact .endless
  | succ depth ih =>
    by_cases inlines : ∃ entries, doc.Inlines list entries
    · obtain ⟨entries, inlines⟩ := inlines
      rw [resolveWithin_succ inlines, resolveWithin_succ inlines]
      exact alike_mapM fun entry => alike_entryBy doc ih location place entry
    · rw [not_exists] at inlines
      obtain ⟨error, failed⟩ := resolveWithin_fails inlines depth location
      obtain ⟨error', failed'⟩ := resolveWithin_fails inlines depth place
      rw [failed, failed']
      exact .fails

/-! ## Lists that no room is enough for -/

def Bottomless (doc : Document) (list : List Property) : Prop :=
  ∀ depth location, doc.resolveWithin depth location list = .error .endless

/-- An entry is resolved, at any place. -/
def Settles (doc : Document) (entry : String × Ty) : Prop :=
  ∃ depth, ∀ location, Succeeds (doc.entryBy (doc.resolveWithin depth) location entry)

/-- The resolution of a list gets to an inline object: all fields before it are resolved. -/
def GetsTo (doc : Document) (list inner : List Property) : Prop :=
  ∃ before entry after, doc.Inlines list (before ++ entry :: after) ∧
    (∀ other ∈ before, doc.Settles other) ∧ entry.2.shape.innermost = .object inner

theorem settles_of_entryBy {entry : String × Ty} {field : ResolvedField}
    (resolved : doc.entryBy (doc.resolveWithin depth) location entry = .ok field) :
    doc.Settles entry := by
  refine ⟨depth, fun place => ?_⟩
  have alike := alike_entryBy doc (alike_resolveWithin doc depth) location place entry
  rw [resolved] at alike
  generalize doc.entryBy (doc.resolveWithin depth) place entry = other at alike
  cases alike
  exact succeeds_ok field

theorem shapeBy_endless {resolver : Resolver} {shape : Shape}
    (object : shape.innermost = .object inner)
    (endless : ∀ location, resolver location inner = .error .endless) (location : Location) :
    doc.shapeBy resolver location shape = .error .endless := by
  fun_induction Shape.innermost shape generalizing location with
  | case1 element optional ih =>
    rw [shapeBy, ih object]
    rfl
  | case2 shape noArray =>
    subst object
    rw [shapeBy, endless]
    rfl

theorem GetsTo.endless (step : doc.GetsTo list inner)
    (endless : ∀ location, doc.resolveWithin depth location inner = .error .endless)
    (location : Location) : doc.resolveWithin (depth + 1) location list = .error .endless := by
  obtain ⟨before, entry, after, inlines, settled, object⟩ := step
  rw [resolveWithin_succ inlines]
  refine mapM_endless (fun other mem => ?_) ?_
  · obtain ⟨enough, succeeds⟩ := settled other mem
    obtain ⟨field, resolved⟩ := succeeds location
    exact ⟨field, below_ok_of_entryBy resolved depth⟩
  · rw [entryBy, shapeBy_endless object endless]
    rfl

/-- A list that gets to itself is resolved again and again. -/
theorem bottomless_of_cycle (cycle : TransGen doc.GetsTo list list) : doc.Bottomless list := by
  have before : ∀ depth other, TransGen doc.GetsTo other list →
      ∀ location, doc.resolveWithin depth location other = .error .endless := by
    intro depth
    induction depth with
    | zero => exact fun _ _ _ => rfl
    | succ depth ih =>
      intro other gets
      obtain ⟨next, step, rest⟩ := TransGen.head'_iff.mp gets
      rcases reflTransGen_iff_eq_or_transGen.mp rest with rfl | rest
      · exact step.endless (ih _ cycle)
      · exact step.endless (ih _ rest)
  exact fun depth => before depth list cycle

/-! ## What a path gives is what room gives -/

theorem exists_common_room {α : Type} {p : Nat → α → Prop}
    (more : ∀ {depth further input}, depth ≤ further → p depth input → p further input)
    {inputs : List α} (each : ∀ input ∈ inputs, ∃ depth, p depth input) :
    ∃ depth, ∀ input ∈ inputs, p depth input := by
  induction inputs with
  | nil => exact ⟨0, by simp⟩
  | cons input rest ih =>
    obtain ⟨⟨here, h⟩, later⟩ := List.forall_mem_cons.mp each
    obtain ⟨depth, all⟩ := ih later
    refine ⟨max here depth, List.forall_mem_cons.mpr ⟨more (Nat.le_max_left ..) h, ?_⟩⟩
    exact fun other mem => more (Nat.le_max_right ..) (all other mem)

theorem below_entryBy_of_shapeBy {path : List String} {field : Inlined}
    (h : field.route.find? path.contains = none →
      Below (doc.resolveShape (path ++ field.route) (.member location field.name) field.ty.shape)
        (doc.shapeBy (doc.resolveWithin depth) (.member location field.name) field.ty.shape)) :
    Below (doc.resolveField path location field)
      (doc.entryBy (doc.resolveWithin depth) location field.entry) := by
  unfold resolveField
  split
  · exact .inl rfl
  · rename_i fresh
    exact (h fresh).bind fun _ => .inr rfl

/-- What is resolved with a path is resolved to the same if there is room enough. -/
theorem exists_below_resolveWithin (doc : Document) :
    (∀ path location shape, ∃ depth, Below (doc.resolveShape path location shape)
      (doc.shapeBy (doc.resolveWithin depth) location shape)) ∧
    ∀ path location list, ∃ depth, Below (doc.resolveProperties path location list)
      (doc.resolveWithin depth location list) := by
  apply resolve_induction doc
  case leaf =>
    intro path location shape leaf
    obtain ⟨made, same⟩ := exists_resolved_of_isLeaf leaf
    refine ⟨0, .inr ?_⟩
    rw [shapeBy_of_isLeaf leaf, same, same]
  case reference | channel =>
    intro path location name
    refine ⟨0, .inr ?_⟩
    rw [shapeBy, resolveShape, resolveShape] <;> simp
  case array =>
    intro path location element optional ih
    obtain ⟨depth, below⟩ := ih
    refine ⟨depth, ?_⟩
    rw [resolveShape, shapeBy]
    exact below.bind fun _ => .inr rfl
  case object =>
    intro path location list ih
    obtain ⟨depth, below⟩ := ih
    refine ⟨depth, ?_⟩
    rw [resolveShape, shapeBy]
    exact below.bind fun _ => .inr rfl
  case refused =>
    intro path location list error failed
    refine ⟨1, .inr ?_⟩
    rw [resolveProperties_eq, resolveWithin, failed]
    rfl
  case expanded =>
    intro path location list fields expanded ih
    -- Every field has a room of its own that is enough, and the largest is enough for all.
    obtain ⟨depth, below⟩ : ∃ depth, ∀ field ∈ fields,
        Below (doc.resolveField path location field)
          (doc.entryBy (doc.resolveWithin depth) location field.entry) := by
      refine exists_common_room ?_ fun field mem => ?_
      · intro depth further field room below
        exact below.trans (below_entryBy doc (below_resolveWithin room) location _)
      · by_cases fresh : field.route.find? path.contains = none
        · obtain ⟨depth, below⟩ := ih field mem fresh
          exact ⟨depth, below_entryBy_of_shapeBy fun _ => below⟩
        · exact ⟨0, below_entryBy_of_shapeBy fun h => absurd h fresh⟩
    refine ⟨depth + 1, ?_⟩
    rw [resolveProperties_eq, resolveWithin, expanded]
    change Below (fields.mapM _) ((fields.map Inlined.entry).mapM _)
    rw [List.mapM_map]
    exact below_mapM below

theorem settles_of_resolveField {path : List String} {field : Inlined}
    (h : Succeeds (doc.resolveField path location field)) : doc.Settles field.entry := by
  obtain ⟨resolved, same⟩ := h
  obtain ⟨depth, below⟩ := (exists_below_resolveWithin doc).1 (path ++ field.route)
    (.member location field.name) field.ty.shape
  rcases below_entryBy_of_shapeBy (fun _ => below) with endless | other
  · rw [same] at endless
    cases endless
  · exact settles_of_entryBy (other.symm.trans same)

/-- An element of two lists in a row stands in one of them. -/
theorem append_cons_eq_append {α : Type} {before after first second : List α} {input : α}
    (same : before ++ input :: after = first ++ second) :
    (∃ rest, first = before ++ input :: rest ∧ after = rest ++ second) ∨
      ∃ rest, before = first ++ rest ∧ second = rest ++ input :: after := by
  rcases List.append_eq_append_iff.mp same with ⟨part, rfl, tail⟩ | ⟨part, rfl, tail⟩
  · cases part with
    | nil => exact .inr ⟨[], by simp, by simpa using tail.symm⟩
    | cons other part =>
      cases tail
      exact .inl ⟨part, rfl, rfl⟩
  · exact .inr ⟨part, rfl, tail⟩

/-- The fields that came through a mixin are those of the mixin, and stand together. -/
theorem exists_block {route : List String} {mixin : String} {before after : List Inlined}
    {field : Inlined}
    (expanded : doc.inlineFields route location list = .ok (before ++ field :: after))
    (on : mixin ∈ field.route) (off : mixin ∉ route) :
    ∃ held outer first last rest, doc.mixin? mixin = some held ∧ before = outer ++ first ∧
      after = last ++ rest ∧ doc.Inlines held ((first ++ field :: last).map Inlined.entry) := by
  generalize same : before ++ field :: after = fields at expanded
  fun_induction Document.inlineFields doc route location list
    generalizing before after fields with
  | case1 =>
    cases expanded
    simp at same
  | case2 route location name ty rest ih =>
    obtain ⟨others, ho, expanded⟩ := bind_eq_ok_iff.mp expanded
    cases expanded
    cases before with
    | nil =>
      cases same
      exact absurd on off
    | cons head before =>
      rw [List.cons_append, List.cons.injEq] at same
      obtain ⟨rfl, same⟩ := same
      obtain ⟨held, outer, first, last, later, found, rfl, split, inlines⟩ := ih off others same ho
      exact ⟨held, _ :: outer, first, last, later, found, rfl, split, inlines⟩
  | case3 => cases expanded
  | case4 => cases expanded
  | case5 route location spliced rest fresh held found smaller ihInner ihRest =>
    obtain ⟨inner, hi, expanded⟩ := bind_eq_ok_iff.mp expanded
    obtain ⟨others, ho, expanded⟩ := bind_eq_ok_iff.mp expanded
    cases expanded
    -- The field came through this splice, and so through its mixin or one deeper, or behind it.
    rcases append_cons_eq_append same with ⟨part, rfl, rfl⟩ | ⟨part, rfl, tail⟩
    · by_cases here : mixin = spliced
      · subst here
        exact ⟨held, [], before, part, others, found, rfl, rfl, inlines_of_inlineFields hi⟩
      · obtain ⟨held, outer, first, last, later, found, split, rfl, inlines⟩ :=
          ihInner (by simp [off, here]) _ rfl hi
        exact ⟨held, outer, first, last, later ++ others, found, split, by simp, inlines⟩
    · obtain ⟨held, outer, first, last, later, found, rfl, split, inlines⟩ :=
        ihRest off others tail.symm ho
      exact ⟨held, inner ++ outer, first, last, later, found, by simp, split, inlines⟩

/-- The resolution of a mixin has got to a list. -/
def Underway (doc : Document) (mixin : String) (list : List Property) : Prop :=
  ∃ held, doc.mixin? mixin = some held ∧ TransGen doc.GetsTo held list

/-- Where a path meets a mixin again that is underway, the resolution comes back to where it is. -/
theorem GetsTo.of_block {mixin : String} {before after : List Inlined} {field : Inlined}
    (expanded : doc.expand location list = .ok (before ++ field :: after))
    (settled : ∀ other ∈ before, doc.Settles other.entry) (on : mixin ∈ field.route)
    {held : List Property} (found : doc.mixin? mixin = some held) (step : doc.GetsTo held inner) :
    doc.GetsTo list inner := by
  obtain ⟨held', outer, first, last, rest, found', rfl, rfl, block⟩ :=
    exists_block expanded on List.not_mem_nil
  obtain ⟨settled', entry, later, inlines, all, object⟩ := step
  rw [found, Option.some.injEq] at found'
  subst found'
  have whole := inlines_of_inlineFields expanded
  have same := block.unique inlines
  refine ⟨outer.map Inlined.entry ++ settled', entry, later ++ rest.map Inlined.entry, ?_, ?_,
    object⟩
  · have rows : ((outer ++ first) ++ field :: (last ++ rest)).map Inlined.entry =
        outer.map Inlined.entry ++ (first ++ field :: last).map Inlined.entry ++
          rest.map Inlined.entry := by simp
    rw [rows, same] at whole
    simpa using whole
  · intro other mem
    rcases List.mem_append.mp mem with mem | mem
    · obtain ⟨early, listed, rfl⟩ := List.mem_map.mp mem
      exact settled early (List.mem_append_left _ listed)
    · exact all other mem

/-- Where all fields before an inline object are resolved, the resolution gets to it. -/
theorem GetsTo.of_expand {before after : List Inlined} {field : Inlined}
    (expanded : doc.expand location list = .ok (before ++ field :: after))
    (settled : ∀ other ∈ before, doc.Settles other.entry)
    (object : field.ty.shape.innermost = .object inner) : doc.GetsTo list inner := by
  have inlines := inlines_of_inlineFields expanded
  rw [List.map_append, List.map_cons] at inlines
  exact ⟨_, field.entry, _, inlines, List.forall_mem_map.mpr settled, object⟩

/-- The mixins that are underway stay so, and those through which the object came join them. -/
theorem underway_onward {path : List String} (underway : ∀ mixin ∈ path, doc.Underway mixin list)
    {before after : List Inlined} {field : Inlined}
    (expanded : doc.expand location list = .ok (before ++ field :: after))
    (settled : ∀ other ∈ before, doc.Settles other.entry)
    (object : field.ty.shape.innermost = .object inner) :
    ∀ mixin ∈ path ++ field.route, doc.Underway mixin inner := by
  intro mixin mem
  rcases List.mem_append.mp mem with mem | mem
  · obtain ⟨held, found, reached⟩ := underway mixin mem
    exact ⟨held, found, reached.tail (.of_expand expanded settled object)⟩
  · obtain ⟨held, outer, first, last, rest, found, rfl, rfl, block⟩ :=
      exists_block expanded mem List.not_mem_nil
    rw [List.map_append, List.map_cons] at block
    refine ⟨held, found, .single ⟨_, field.entry, _, block, ?_, object⟩⟩
    exact List.forall_mem_map.mpr fun other mem => settled other (List.mem_append_right _ mem)

/-- A resolution that meets a mixin again has no end, whatever room there is. -/
theorem bottomless_of_endless (doc : Document) :
    (∀ path location shape,
      (∀ inner, shape.innermost = .object inner → ∀ mixin ∈ path, doc.Underway mixin inner) →
      doc.resolveShape path location shape = .error .endless →
        ∃ inner, shape.innermost = .object inner ∧ doc.Bottomless inner) ∧
    ∀ path location list, (∀ mixin ∈ path, doc.Underway mixin list) →
      doc.resolveProperties path location list = .error .endless → doc.Bottomless list := by
  apply resolve_induction doc
  case leaf =>
    intro path location shape leaf _ endless
    obtain ⟨made, same⟩ := exists_resolved_of_isLeaf leaf
    rw [same] at endless
    cases endless
  case reference | channel =>
    intro path location name _ endless
    rw [resolveShape] at endless
    split at endless <;> cases endless
  case array =>
    intro path location element optional ih underway endless
    rw [resolveShape] at endless
    rcases bind_eq_error_iff.mp endless with endless | ⟨value, -, endless⟩
    · exact ih underway endless
    · cases endless
  case object =>
    intro path location list ih underway endless
    rw [resolveShape] at endless
    rcases bind_eq_error_iff.mp endless with endless | ⟨value, -, endless⟩
    · exact ⟨list, rfl, ih (underway list rfl) endless⟩
    · cases endless
  case refused =>
    intro path location list error failed _ endless
    rw [resolveProperties_eq, failed] at endless
    cases endless
  case expanded =>
    intro path location list fields expanded ih underway endless
    rw [resolveProperties_eq, expanded] at endless
    obtain ⟨before, field, after, rfl, resolved, endless⟩ := mapM_eq_error_iff.mp endless
    have settled : ∀ other ∈ before, doc.Settles other.entry :=
      fun other mem => settles_of_resolveField (resolved other mem)
    -- Either the field came through a mixin that is underway, and the resolution is back where it
    -- was, or the field itself is endless, with its own mixins underway as well.
    unfold resolveField at endless
    split at endless
    · rename_i mixin met
      have on := List.find?_some met
      obtain ⟨held, found, reached⟩ := underway mixin (by simpa using on)
      obtain ⟨inner, step, rest⟩ := TransGen.head'_iff.mp reached
      have back := GetsTo.of_block expanded settled (List.mem_of_find?_eq_some met) found step
      exact bottomless_of_cycle (TransGen.head' back rest)
    · rename_i fresh
      rcases bind_eq_error_iff.mp endless with endless | ⟨value, -, endless⟩
      · obtain ⟨inner, object, bottomless⟩ := ih field (by simp) fresh
          (fun inner object => underway_onward underway expanded settled object) endless
        have step := GetsTo.of_expand expanded settled object
        intro depth location
        cases depth with
        | zero => rfl
        | succ depth => exact step.endless (bottomless depth) location
      · cases endless

/-- A resolution with its path is what a resolution without any comes to. With too little room
nothing is known, with more the outcome is this one, and some room is enough for it. So it is
endless exactly if no room is ever enough. -/
theorem resolve_limit (doc : Document) (location : Location) (list : List Property) :
    (∀ depth, Below (doc.resolveWithin depth location list) (doc.resolve location list)) ∧
    (∃ depth, doc.resolveWithin depth location list = doc.resolve location list) ∧
    (doc.resolve location list = .error .endless ↔ doc.Bottomless list) := by
  have bottomless (endless : doc.resolve location list = .error .endless) : doc.Bottomless list :=
    (bottomless_of_endless doc).2 [] location list (by simp) endless
  obtain ⟨enough, below⟩ := (exists_below_resolveWithin doc).2 [] location list
  have reached : doc.resolveWithin enough location list = doc.resolve location list := by
    rcases below with endless | same
    · exact (bottomless endless enough location).trans endless.symm
    · exact same.symm
  refine ⟨fun depth => ?_, ⟨enough, reached⟩, bottomless, fun h => ?_⟩
  · rcases Nat.le_total depth enough with less | more
    · rw [← reached]
      exact below_resolveWithin less location list
    · rcases @below_resolveWithin doc _ _ more location list with endless | same
      · rw [reached] at endless
        exact .inl (bottomless endless depth location)
      · exact .inr (same.symm.trans reached)
  · rw [← reached]
    exact h enough location

end Schema.Document

end ChannelProtocol
