-- Inlining: each splice gives way to all fields of its mixin, whatever came
-- before. An expansion is exactly this list. Where there is none, it names a walk
-- along splices that comes back to itself, or a splice that names no mixin.
import ChannelProtocol.Proofs.Schema.Splices
import Mathlib.Data.List.Chain
import Mathlib.Data.List.Nodup

namespace ChannelProtocol.Schema

/-- The field without the way that it came. -/
def Inlined.entry (field : Inlined) : String × Ty := (field.name, field.ty)

namespace Document

open Relation

variable {doc : Document} {route : List String} {location : Location} {list : List Property}

/-! ## The plain definition -/

/-- The fields of a list in which each splice is replaced, in place, by the fields of its mixin.
No mixin is remembered, so one that is spliced again is inlined again. -/
inductive Inlines (doc : Document) : List Property → List (String × Ty) → Prop
  | nil : Inlines doc [] []
  | field {name : String} {ty : Ty} {rest : List Property} {others : List (String × Ty)} :
      Inlines doc rest others → Inlines doc (.field name ty :: rest) ((name, ty) :: others)
  | splice {mixin : String} {held rest : List Property} {inner others : List (String × Ty)} :
      doc.mixin? mixin = some held → Inlines doc held inner → Inlines doc rest others →
      Inlines doc (.splice mixin :: rest) (inner ++ others)

theorem Inlines.unique {fields others : List (String × Ty)} (h : doc.Inlines list fields)
    (h' : doc.Inlines list others) : fields = others := by
  induction h generalizing others with
  | nil =>
    cases h'
    rfl
  | field _ ih =>
    cases h' with
    | field rest => rw [ih rest]
  | splice found _ _ ihInner ihRest =>
    cases h' with
    | splice found' inner rest =>
      rw [found] at found'
      cases found'
      rw [ihInner inner, ihRest rest]

/-- A list that can be inlined comes only to mixins that are there and do not come back to
themselves. -/
theorem Inlines.inlinable {fields : List (String × Ty)} (h : doc.Inlines list fields)
    {mixin : String} (reached : doc.ComesTo list mixin) : doc.Inlinable [] mixin := by
  induction h generalizing mixin with
  | nil => exact absurd reached (not_comesTo_nil doc mixin)
  | field _ ih => exact ih ((comesTo_field_cons ..).mp reached)
  | @splice outer held rest inner others found _ _ ihInner ihRest =>
    rcases (comesTo_splice_cons found).mp reached with rfl | reached | reached
    · -- If the mixin came back to itself, its own list would come to a mixin on a cycle.
      refine ⟨by simp [found], List.not_mem_nil, fun cycle => ?_⟩
      exact (ihInner ((transGen_splices_iff found).mp cycle)).acyclic cycle
    · exact ihInner reached
    · exact ihRest reached

/-! ## Expansions are inlined lists -/

/-- What was expanded is inlined, whichever mixins were being expanded. -/
theorem inlines_of_inlineFields {fields : List Inlined}
    (expanded : doc.inlineFields route location list = .ok fields) :
    doc.Inlines list (fields.map Inlined.entry) := by
  fun_induction Document.inlineFields doc route location list generalizing fields with
  | case1 =>
    cases expanded
    exact .nil
  | case2 route location name ty rest ih =>
    obtain ⟨others, ho, expanded⟩ := bind_eq_ok_iff.mp expanded
    cases expanded
    exact .field (ih ho)
  | case3 => cases expanded
  | case4 => cases expanded
  | case5 route location mixin rest fresh held found smaller ihInner ihRest =>
    obtain ⟨inner, hi, expanded⟩ := bind_eq_ok_iff.mp expanded
    obtain ⟨others, ho, expanded⟩ := bind_eq_ok_iff.mp expanded
    cases expanded
    rw [List.map_append]
    exact .splice found (ihInner hi) (ihRest ho)

theorem expand_eq_ok_iff {fields : List (String × Ty)} :
    (doc.expand location list).map (List.map Inlined.entry) = .ok fields ↔
      doc.Inlines list fields := by
  rw [map_eq_ok_iff]
  constructor
  · rintro ⟨inlined, expanded, rfl⟩
    exact inlines_of_inlineFields expanded
  · intro h
    obtain ⟨inlined, expanded⟩ : Succeeds (doc.expand location list) :=
      (succeeds_inlineFields_iff ..).mpr fun mixin reached => h.inlinable reached
    exact ⟨inlined, expanded, (inlines_of_inlineFields expanded).unique h⟩

/-! ## Expansions that fail -/

/-- A mixin is spliced in the list, or at the place of a mixin that the list comes to. -/
inductive SplicedAt (doc : Document) (location : Location) (list : List Property) (name : String) :
    Location → Prop
  | here : .splice name ∈ list → SplicedAt doc location list name location
  | mixin {owner : String} {held : List Property} : doc.ComesTo list owner →
      doc.mixin? owner = some held → .splice name ∈ held →
      SplicedAt doc location list name (.member (.named owner) "properties")

theorem SplicedAt.mono {part : List Property} {name : String} {place : Location}
    (h : doc.SplicedAt location part name place) (sub : part ⊆ list) :
    doc.SplicedAt location list name place := by
  cases h with
  | here spliced => exact .here (sub spliced)
  | mixin reached found spliced => exact .mixin (comesTo_mono sub reached) found spliced

/-- What is spliced somewhere for a mixin is spliced there for a list that splices the mixin. -/
theorem SplicedAt.through {outer name : String} {held : List Property} {place : Location}
    (spliced : .splice outer ∈ list) (found : doc.mixin? outer = some held)
    (h : doc.SplicedAt (.member (.named outer) "properties") held name place) :
    doc.SplicedAt location list name place := by
  cases h with
  | here inner => exact .mixin (comesTo_of_mem spliced) found inner
  | mixin reached found' inner => exact .mixin (comesTo_through spliced found reached) found' inner

/-- A chain that goes on from `route` with a splice of the list, each mixin spliced by the one
before it. All but the last are distinct, and the last is one of them. -/
structure Circles (doc : Document) (route : List String) (list : List Property)
    (chain : List String) : Prop where
  starts : ∃ first later, chain = route ++ first :: later ∧ .splice first ∈ list
  linked : chain.IsChain doc.Splices
  closes : ∃ walk back, chain = walk ++ [back] ∧ walk.Nodup ∧ back ∈ walk

theorem Circles.mono {part : List Property} {chain : List String}
    (h : doc.Circles route part chain) (sub : part ⊆ list) : doc.Circles route list chain := by
  obtain ⟨⟨first, later, split, spliced⟩, linked, closes⟩ := h
  exact ⟨⟨first, later, split, sub spliced⟩, linked, closes⟩

/-- Why an expansion along `route` fails. -/
inductive Refuses (doc : Document) (route : List String) (location : Location)
    (list : List Property) : Error → Prop
  | cycle {chain : List String} : doc.Circles route list chain →
      Refuses doc route location list (.mixinCycle chain)
  | unknown {name : String} {place : Location} : doc.mixin? name = none →
      doc.SplicedAt location list name place →
      Refuses doc route location list (.unknownReference name place)

theorem Refuses.mono {part : List Property} {error : Error}
    (h : doc.Refuses route location part error) (sub : part ⊆ list) :
    doc.Refuses route location list error := by
  cases h with
  | cycle circles => exact .cycle (circles.mono sub)
  | unknown missing spliced => exact .unknown missing (spliced.mono sub)

theorem Refuses.through {outer : String} {held : List Property} {error : Error}
    (spliced : .splice outer ∈ list) (found : doc.mixin? outer = some held)
    (h : doc.Refuses (route ++ [outer]) (.member (.named outer) "properties") held error) :
    doc.Refuses route location list error := by
  cases h with
  | cycle circles =>
    obtain ⟨⟨first, later, rfl, -⟩, linked, closes⟩ := circles
    exact .cycle ⟨⟨outer, first :: later, by simp, spliced⟩, linked, closes⟩
  | unknown missing inner => exact .unknown missing (inner.through spliced found)

/-- An expansion fails for one of the two reasons. The mixins of the route are distinct, and each
of them is spliced by the one before it, as is every splice of the list by the last one. -/
theorem refuses_of_inlineFields {error : Error} (distinct : route.Nodup)
    (linked : ∀ mixin, .splice mixin ∈ list → (route ++ [mixin]).IsChain doc.Splices)
    (failed : doc.inlineFields route location list = .error error) :
    doc.Refuses route location list error := by
  fun_induction Document.inlineFields doc route location list with
  | case1 => cases failed
  | case2 route location name ty rest ih =>
    rcases bind_eq_error_iff.mp failed with failed | ⟨others, -, failed⟩
    · have step := ih distinct (fun mixin mem => linked mixin (List.mem_cons_of_mem _ mem)) failed
      exact step.mono (List.subset_cons_self _ _)
    · cases failed
  | case3 route location mixin rest used =>
    cases failed
    have spliced : Property.splice mixin ∈ Property.splice mixin :: rest := List.mem_cons_self
    have closes : ∃ walk back, route ++ [mixin] = walk ++ [back] ∧ walk.Nodup ∧ back ∈ walk :=
      ⟨route, mixin, rfl, distinct, used⟩
    exact .cycle ⟨⟨mixin, [], rfl, spliced⟩, linked mixin spliced, closes⟩
  | case4 route location mixin rest fresh missing =>
    cases failed
    exact .unknown missing (.here List.mem_cons_self)
  | case5 route location mixin rest fresh held found smaller ihInner ihRest =>
    rcases bind_eq_error_iff.mp failed with failed | ⟨inner, -, failed⟩
    · have next : (route ++ [mixin]).Nodup := by simpa using distinct.concat fresh
      refine (ihInner next (fun other spliced => ?_) failed).through List.mem_cons_self found
      rw [List.append_assoc]
      refine List.isChain_append_cons_cons.mpr ⟨linked mixin List.mem_cons_self, ?_, .singleton _⟩
      exact ⟨held, found, spliced⟩
    · rcases bind_eq_error_iff.mp failed with failed | ⟨others, -, failed⟩
      · have step := ihRest distinct (fun other mem => linked other (List.mem_cons_of_mem _ mem))
          failed
        exact step.mono (List.subset_cons_self _ _)
      · cases failed

theorem refuses_of_expand {error : Error} (failed : doc.expand location list = .error error) :
    doc.Refuses [] location list error :=
  refuses_of_inlineFields List.nodup_nil (fun mixin _ => .singleton mixin) failed

/-- An expansion is exactly the inlined list. Where it is a cycle, the chain starts with a splice
of the list, goes along splices over distinct mixins and ends with one of them. Where it is an
unknown reference, the splice stands at the place that is named, and names no mixin. It is always
one of the three. -/
theorem expand_inlines (doc : Document) (location : Location) (list : List Property) :
    (∀ fields, (doc.expand location list).map (List.map Inlined.entry) = .ok fields ↔
      doc.Inlines list fields) ∧
    (∀ chain, doc.expand location list = .error (.mixinCycle chain) →
      ∃ first later back, chain = first :: later ++ [back] ∧ .splice first ∈ list ∧
        chain.IsChain doc.Splices ∧ (first :: later).Nodup ∧ back ∈ first :: later) ∧
    (∀ name place, doc.expand location list = .error (.unknownReference name place) →
      doc.mixin? name = none ∧ doc.SplicedAt location list name place) ∧
    (Succeeds (doc.expand location list) ∨
      (∃ chain, doc.expand location list = .error (.mixinCycle chain)) ∨
      ∃ name place, doc.expand location list = .error (.unknownReference name place)) := by
  refine ⟨fun fields => expand_eq_ok_iff, fun chain failed => ?_, fun name place failed => ?_, ?_⟩
  · cases refuses_of_expand failed with
    | cycle circles =>
      obtain ⟨first, later, starts, spliced⟩ := circles.starts
      obtain ⟨walk, back, rfl, distinct, known⟩ := circles.closes
      cases walk with
      | nil => simp at known
      | cons head walk =>
        obtain ⟨rfl, -⟩ := List.cons.inj starts
        exact ⟨head, walk, back, rfl, spliced, circles.linked, distinct, known⟩
  · cases refuses_of_expand failed with
    | unknown missing spliced => exact ⟨missing, spliced⟩
  · cases outcome : doc.expand location list with
    | ok fields => exact .inl (succeeds_ok fields)
    | error error =>
      cases refuses_of_expand outcome with
      | cycle => exact .inr (.inl ⟨_, rfl⟩)
      | unknown => exact .inr (.inr ⟨_, _, rfl⟩)

/-- The step of an expansion at a splice. -/
theorem inlineFields_splice (doc : Document) (route : List String) (location : Location)
    (mixin : String) (rest : List Property) :
    doc.inlineFields route location (.splice mixin :: rest) =
      if mixin ∈ route then .error (.mixinCycle (route ++ [mixin]))
      else
        match doc.mixin? mixin with
        | none => .error (.unknownReference mixin location)
        | some held => do
          let fields ← doc.inlineFields (route ++ [mixin])
            (.member (.named mixin) "properties") held
          let others ← doc.inlineFields route location rest
          return fields ++ others := by
  rw [inlineFields]
  split
  · rfl
  · split <;> rename_i found <;> simp only [found]

/-- Two mixins that share a third one, a walk into a loop, and a splice that names no mixin. -/
def splicedDocument : Document where
  entities := {
    entries := [
      ("Sized", .mixin [.field "size" ⟨.number, false⟩]),
      ("Boxed", .mixin [.splice "Sized", .field "lid" ⟨.boolean, true⟩]),
      ("Framed", .mixin [.splice "Sized"]),
      ("Entry", .mixin [.splice "There", .splice "Sized"]),
      ("There", .mixin [.splice "Back"]),
      ("Back", .mixin [.splice "There", .field "way" ⟨.string, false⟩]),
      ("Lost", .mixin [.splice "Button"]),
      ("Button", .enum ["left"])]
    distinct := by decide }

/-- The shared mixin is inlined twice, the chain leads into the loop, and the splice is found in
its mixin. -/
theorem splicedDocument_inlined :
    ((splicedDocument.expand .document [.splice "Boxed", .splice "Framed"]).map
        (List.map Inlined.entry) =
      .ok [("size", ⟨.number, false⟩), ("lid", ⟨.boolean, true⟩), ("size", ⟨.number, false⟩)]) ∧
    (splicedDocument.expand .document [.splice "Entry"] =
        .error (.mixinCycle ["Entry", "There", "Back", "There"]) ∧
      List.IsChain splicedDocument.Splices ["Entry", "There", "Back", "There"]) ∧
    (splicedDocument.expand .document [.splice "Lost"] =
        .error (.unknownReference "Button" (.member (.named "Lost") "properties")) ∧
      splicedDocument.mixin? "Button" = none) := by
  have sized : splicedDocument.Inlines [.splice "Sized"] [("size", ⟨.number, false⟩)] :=
    .splice rfl (.field .nil) .nil
  have loops : splicedDocument.expand .document [.splice "Entry"] =
      .error (.mixinCycle ["Entry", "There", "Back", "There"]) := by
    have entry : splicedDocument.mixin? "Entry" = some [.splice "There", .splice "Sized"] := rfl
    have there : splicedDocument.mixin? "There" = some [.splice "Back"] := rfl
    have back : splicedDocument.mixin? "Back" =
        some [.splice "There", .field "way" ⟨.string, false⟩] := rfl
    simp [expand, inlineFields_splice, entry, there, back, bind, Except.bind]
  have lost : splicedDocument.expand .document [.splice "Lost"] =
      .error (.unknownReference "Button" (.member (.named "Lost") "properties")) := by
    have owner : splicedDocument.mixin? "Lost" = some [.splice "Button"] := rfl
    have missing : splicedDocument.mixin? "Button" = none := rfl
    simp [expand, inlineFields_splice, owner, missing, bind, Except.bind]
  refine ⟨?_, ⟨loops, ?_⟩, lost, ?_⟩
  · refine ((expand_inlines ..).1 _).mpr ?_
    exact .splice rfl (.splice rfl (.field .nil) (.field .nil)) (.splice rfl sized .nil)
  · obtain ⟨first, later, back, -, -, linked, -⟩ := (expand_inlines ..).2.1 _ loops
    exact linked
  · exact ((expand_inlines ..).2.2.1 _ _ lost).1

end Document

end ChannelProtocol.Schema
