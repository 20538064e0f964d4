-- Mixins that splice mixins. An expansion succeeds exactly if each mixin that
-- it comes to is there and does not come back to itself, and then it holds the
-- fields of all of them.
import ChannelProtocol.Proofs.Success
import ChannelProtocol.Schema.Expansion
import Mathlib.Logic.Relation

namespace ChannelProtocol.Schema.Document

open Relation

theorem mixin?_eq_some_iff {doc : Document} {name : String} {held : List Property} :
    doc.mixin? name = some held ↔ doc.get? name = some (.mixin held) := by
  unfold mixin?
  split <;> simp_all

/-- A mixin splices another one among its own properties. -/
def Splices (doc : Document) (outer inner : String) : Prop :=
  ∃ properties, doc.mixin? outer = some properties ∧ .splice inner ∈ properties

/-- A list splices a mixin, or a mixin that gets there by its own splices. -/
def ComesTo (doc : Document) (properties : List Property) (mixin : String) : Prop :=
  ∃ first, .splice first ∈ properties ∧ ReflTransGen doc.Splices first mixin

theorem not_comesTo_nil (doc : Document) (mixin : String) : ¬ doc.ComesTo [] mixin := by
  rintro ⟨first, h, -⟩
  simp at h

theorem comesTo_field_cons (doc : Document) (name : String) (ty : Ty) (rest : List Property)
    (mixin : String) : doc.ComesTo (.field name ty :: rest) mixin ↔ doc.ComesTo rest mixin := by
  simp [ComesTo]

theorem comesTo_of_mem {doc : Document} {properties : List Property} {mixin : String}
    (h : .splice mixin ∈ properties) : doc.ComesTo properties mixin := ⟨mixin, h, .refl⟩

theorem comesTo_mono {doc : Document} {part whole : List Property} {mixin : String}
    (h : part ⊆ whole) (hc : doc.ComesTo part mixin) : doc.ComesTo whole mixin := by
  obtain ⟨first, hf, hr⟩ := hc
  exact ⟨first, h hf, hr⟩

/-- What the properties of a spliced mixin come to, the list comes to. -/
theorem comesTo_through {doc : Document} {list properties : List Property} {outer mixin : String}
    (h : .splice outer ∈ list) (found : doc.mixin? outer = some properties)
    (hc : doc.ComesTo properties mixin) : doc.ComesTo list mixin := by
  obtain ⟨first, hf, hr⟩ := hc
  exact ⟨outer, h, .head ⟨properties, found, hf⟩ hr⟩

/-- A mixin reaches another one exactly if its properties come to it. -/
theorem transGen_splices_iff {doc : Document} {outer mixin : String} {properties : List Property}
    (found : doc.mixin? outer = some properties) :
    TransGen doc.Splices outer mixin ↔ doc.ComesTo properties mixin := by
  rw [TransGen.head'_iff]
  constructor
  · rintro ⟨first, ⟨held, h, hf⟩, hr⟩
    rw [found] at h
    cases h
    exact ⟨first, hf, hr⟩
  · rintro ⟨first, hf, hr⟩
    exact ⟨first, ⟨properties, found, hf⟩, hr⟩

theorem comesTo_splice_cons {doc : Document} {outer mixin : String}
    {rest properties : List Property} (found : doc.mixin? outer = some properties) :
    doc.ComesTo (.splice outer :: rest) mixin ↔
      mixin = outer ∨ doc.ComesTo properties mixin ∨ doc.ComesTo rest mixin := by
  constructor
  · rintro ⟨first, hf, hr⟩
    rcases List.mem_cons.mp hf with h | hf
    · cases h
      rcases (reflTransGen_iff_eq_or_transGen.mp hr) with h | h
      · exact .inl h
      · exact .inr (.inl ((transGen_splices_iff found).mp h))
    · exact .inr (.inr ⟨first, hf, hr⟩)
  · rintro (rfl | h | h)
    · exact comesTo_of_mem (by simp)
    · exact comesTo_through (by simp) found h
    · exact comesTo_mono (by simp) h

/-! ## When an expansion succeeds -/

/-- A mixin that an expansion along `route` can take in: it is there, it is not being expanded,
and it does not come back to itself. -/
structure Inlinable (doc : Document) (route : List String) (mixin : String) : Prop where
  found : (doc.mixin? mixin).isSome
  fresh : mixin ∉ route
  acyclic : ¬ TransGen doc.Splices mixin mixin

/-- An expansion succeeds exactly if it can take in all mixins that it comes to. -/
theorem succeeds_inlineFields_iff (doc : Document) (route : List String) (location : Location)
    (properties : List Property) :
    Succeeds (doc.inlineFields route location properties) ↔
      ∀ mixin, doc.ComesTo properties mixin → doc.Inlinable route mixin := by
  fun_induction Document.inlineFields doc route location properties with
  | case1 => simp [succeeds_ok, not_comesTo_nil]
  | case2 route location name ty rest ih =>
    rw [succeeds_bind_iff]
    simp only [comesTo_field_cons, ← ih]
    constructor
    · rintro ⟨others, h, -⟩
      exact ⟨others, h⟩
    · rintro ⟨others, h⟩
      exact ⟨others, h, succeeds_ok _⟩
  | case3 route location mixin rest used =>
    refine iff_of_false (not_succeeds_error _) fun h => ?_
    exact (h mixin (comesTo_of_mem (by simp))).fresh used
  | case4 route location mixin rest fresh missing =>
    refine iff_of_false (not_succeeds_error _) fun h => ?_
    have := (h mixin (comesTo_of_mem (by simp))).found
    simp [missing] at this
  | case5 route location mixin rest fresh properties found smaller ihInner ihRest =>
    simp only [comesTo_splice_cons found]
    rw [succeeds_bind_iff]
    constructor
    · rintro ⟨fields, hf, h⟩
      obtain ⟨others, ho, -⟩ := succeeds_bind_iff.mp h
      have inner := ihInner.mp ⟨fields, hf⟩
      -- The mixin is on the route of its own expansion, so that does not come to it.
      have acyclic : ¬ TransGen doc.Splices mixin mixin := fun cycle =>
        (inner mixin ((transGen_splices_iff found).mp cycle)).fresh (by simp)
      rintro other (rfl | h | h)
      · exact ⟨by simp [found], fresh, acyclic⟩
      · obtain ⟨known, off, acyclic⟩ := inner other h
        exact ⟨known, fun mem => off (List.mem_append_left _ mem), acyclic⟩
      · exact ihRest.mp ⟨others, ho⟩ other h
    · intro h
      have inner : Succeeds (doc.inlineFields (route ++ [mixin])
          (.member (.named mixin) "properties") properties) := by
        refine ihInner.mpr fun other hc => ?_
        obtain ⟨known, off, acyclic⟩ := h other (.inr (.inl hc))
        refine ⟨known, fun mem => ?_, acyclic⟩
        rcases List.mem_append.mp mem with mem | mem
        · exact off mem
        · rw [List.mem_singleton] at mem
          subst mem
          exact acyclic ((transGen_splices_iff found).mpr hc)
      obtain ⟨fields, hf⟩ := inner
      obtain ⟨others, ho⟩ := ihRest.mpr fun other hc => h other (.inr (.inr hc))
      exact ⟨fields, hf, succeeds_bind_iff.mpr ⟨others, ho, succeeds_ok _⟩⟩

/-! ## What an expansion holds -/

theorem inlineFields_field_cons {doc : Document} {route : List String} {location : Location}
    {name : String} {ty : Ty} {rest : List Property} {fields : List Inlined} :
    doc.inlineFields route location (.field name ty :: rest) = .ok fields ↔
      ∃ others, doc.inlineFields route location rest = .ok others ∧
        fields = ⟨name, ty, route⟩ :: others := by
  rw [inlineFields, bind_eq_ok_iff]
  simp only [pure, Except.pure, Except.ok.injEq, eq_comm]

theorem inlineFields_splice_cons {doc : Document} {route : List String} {location : Location}
    {mixin : String} {rest : List Property} {fields : List Inlined} :
    doc.inlineFields route location (.splice mixin :: rest) = .ok fields ↔
      mixin ∉ route ∧ ∃ held inner others, doc.mixin? mixin = some held ∧
        doc.inlineFields (route ++ [mixin]) (.member (.named mixin) "properties") held = .ok inner ∧
        doc.inlineFields route location rest = .ok others ∧ fields = inner ++ others := by
  rw [inlineFields]
  split
  · rename_i used
    simp [used]
  · rename_i fresh
    split
    · rename_i missing
      simp [missing]
    · rename_i held found
      simp only [bind_eq_ok_iff, pure, Except.pure, Except.ok.injEq, fresh, not_false_eq_true,
        true_and, found, Option.some.injEq]
      constructor
      · rintro ⟨inner, hi, others, ho, rfl⟩
        exact ⟨held, inner, others, rfl, hi, ho, rfl⟩
      · rintro ⟨_, inner, others, rfl, hi, ho, rfl⟩
        exact ⟨inner, hi, others, ho, rfl⟩

/-- The fields of a list are in its expansion. -/
theorem field_mem_inlineFields {doc : Document} {route : List String} {location : Location}
    {properties : List Property} {fields : List Inlined}
    (expanded : doc.inlineFields route location properties = .ok fields) {name : String} {ty : Ty}
    (h : .field name ty ∈ properties) : ⟨name, ty, route⟩ ∈ fields := by
  induction properties generalizing fields with
  | nil => simp at h
  | cons property rest ih =>
    cases property with
    | field other held =>
      obtain ⟨others, ho, rfl⟩ := inlineFields_field_cons.mp expanded
      rcases List.mem_cons.mp h with h | h
      · cases h
        simp
      · exact List.mem_cons_of_mem _ (ih ho h)
    | splice mixin =>
      obtain ⟨-, held, inner, others, -, -, ho, rfl⟩ := inlineFields_splice_cons.mp expanded
      rcases List.mem_cons.mp h with h | h
      · cases h
      · exact List.mem_append_right _ (ih ho h)

/-- The expansion of a spliced mixin is part of the expansion of the list. -/
theorem splice_subset_inlineFields {doc : Document} {route : List String} {location : Location}
    {properties : List Property} {fields : List Inlined}
    (expanded : doc.inlineFields route location properties = .ok fields) {mixin : String}
    (h : .splice mixin ∈ properties) :
    ∃ held inner, doc.mixin? mixin = some held ∧
      doc.inlineFields (route ++ [mixin]) (.member (.named mixin) "properties") held = .ok inner ∧
      inner ⊆ fields := by
  induction properties generalizing fields with
  | nil => simp at h
  | cons property rest ih =>
    cases property with
    | field other held =>
      obtain ⟨others, ho, rfl⟩ := inlineFields_field_cons.mp expanded
      rcases List.mem_cons.mp h with h | h
      · cases h
      · obtain ⟨held, inner, found, hi, sub⟩ := ih ho h
        exact ⟨held, inner, found, hi, List.subset_cons_of_subset _ sub⟩
    | splice other =>
      obtain ⟨-, held, inner, others, found, hi, ho, rfl⟩ := inlineFields_splice_cons.mp expanded
      rcases List.mem_cons.mp h with h | h
      · cases h
        exact ⟨held, inner, found, hi, List.subset_append_left _ _⟩
      · obtain ⟨held, inner, found, hi, sub⟩ := ih ho h
        exact ⟨held, inner, found, hi, List.subset_append_of_subset_right _ sub⟩

/-- A field of an expansion that came through mixins: one of them owns it, and the list comes to
all of them on the way to the owner. -/
def Owned (doc : Document) (properties : List Property) (route : List String)
    (field : Inlined) : Prop :=
  ∃ owner held chain, doc.mixin? owner = some held ∧ .field field.name field.ty ∈ held ∧
    doc.ComesTo properties owner ∧ field.route = route ++ chain ∧
    ∀ mixin ∈ chain, doc.ComesTo properties mixin ∧ ReflTransGen doc.Splices mixin owner

theorem Owned.mono {doc : Document} {part whole : List Property} {route : List String}
    {field : Inlined} (h : doc.Owned part route field) (sub : part ⊆ whole) :
    doc.Owned whole route field := by
  obtain ⟨owner, held, chain, found, hf, hc, on, reach⟩ := h
  exact ⟨owner, held, chain, found, hf, comesTo_mono sub hc, on,
    fun mixin hm => ⟨comesTo_mono sub (reach mixin hm).1, (reach mixin hm).2⟩⟩

/-- A field of an expansion stands in the list, or in a mixin that the list comes to. -/
theorem own_or_owned {doc : Document} {route : List String} {location : Location}
    {properties : List Property} {fields : List Inlined}
    (expanded : doc.inlineFields route location properties = .ok fields) {field : Inlined}
    (mem : field ∈ fields) :
    (field.route = route ∧ .field field.name field.ty ∈ properties) ∨
      doc.Owned properties route field := by
  fun_induction Document.inlineFields doc route location properties generalizing fields with
  | case1 => simp_all
  | case2 route location name ty rest ih =>
    obtain ⟨others, ho, expanded⟩ := bind_eq_ok_iff.mp expanded
    cases expanded
    rcases List.mem_cons.mp mem with rfl | mem
    · exact .inl ⟨rfl, by simp⟩
    · rcases ih ho mem with ⟨same, h⟩ | owned
      · exact .inl ⟨same, List.mem_cons_of_mem _ h⟩
      · exact .inr (owned.mono (by simp))
  | case3 => simp at expanded
  | case4 => simp at expanded
  | case5 route location mixin rest fresh properties found smaller ihInner ihRest =>
    obtain ⟨inner, hi, expanded⟩ := bind_eq_ok_iff.mp expanded
    obtain ⟨others, ho, expanded⟩ := bind_eq_ok_iff.mp expanded
    cases expanded
    rcases List.mem_append.mp mem with mem | mem
    · refine .inr ?_
      rcases ihInner hi mem with ⟨same, h⟩ | ⟨owner, held, chain, known, h, hc, on, reach⟩
      · refine ⟨mixin, properties, [mixin], found, h, comesTo_of_mem (by simp), same, ?_⟩
        intro other ho
        rw [List.mem_singleton.mp ho]
        exact ⟨comesTo_of_mem (by simp), .refl⟩
      · refine ⟨owner, held, mixin :: chain, known, h, comesTo_through (by simp) found hc,
          by simp [on], ?_⟩
        intro other ho
        rcases List.mem_cons.mp ho with rfl | ho
        · exact ⟨comesTo_of_mem (by simp), ((transGen_splices_iff found).mpr hc).to_reflTransGen⟩
        · exact ⟨comesTo_through (by simp) found (reach other ho).1, (reach other ho).2⟩
    · rcases ihRest ho mem with ⟨same, h⟩ | owned
      · exact .inl ⟨same, List.mem_cons_of_mem _ h⟩
      · exact .inr (owned.mono (by simp))

end ChannelProtocol.Schema.Document
