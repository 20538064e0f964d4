-- What a property list leads to: the lists of the mixins that it splices and
-- of the inline objects in its fields. It is resolved exactly if every splice,
-- reference and channel on the way is sound.
import ChannelProtocol.Proofs.Schema.Splices
import ChannelProtocol.Schema.Resolution

namespace ChannelProtocol.Schema

open Relation

/-- What the arrays of a shape hold in the end: the shape itself if it is no array. -/
def Shape.innermost : Shape → Shape
  | .array ⟨element, _⟩ => element.innermost
  | shape => shape

/-- A shape that names nothing and holds nothing. -/
def Shape.isLeaf : Shape → Bool
  | .reference _ | .channel _ | .array _ | .object _ => false
  | _ => true

namespace Document

/-! ## Lists that a list leads to -/

/-- An inline object stands in a field of a list, in arrays or not. -/
def HasInline (list inner : List Property) : Prop :=
  ∃ name ty, .field name ty ∈ list ∧ ty.shape.innermost = .object inner

/-- One step from a list: into a mixin that it splices, or into an inline object. -/
inductive Leads (doc : Document) : List Property → List Property → Prop
  | mixin {list held : List Property} {mixin : String} :
      .splice mixin ∈ list → doc.mixin? mixin = some held → Leads doc list held
  | inline {list inner : List Property} : HasInline list inner → Leads doc list inner

/-- Any number of such steps. -/
def Reaches (doc : Document) : List Property → List Property → Prop := ReflTransGen doc.Leads

/-- A mixin comes back to itself through an inline object, so that its fields have no end. -/
def Endless (doc : Document) (mixin : String) : Prop :=
  ∃ held list inner last, doc.mixin? mixin = some held ∧ doc.Reaches held list ∧
    HasInline list inner ∧ doc.Reaches inner last ∧ .splice mixin ∈ last

/-- A mixin that a list comes to is spliced in a list that it leads to. -/
theorem exists_reaches_of_comesTo {doc : Document} {list : List Property} {mixin : String}
    (h : doc.ComesTo list mixin) : ∃ last, doc.Reaches list last ∧ .splice mixin ∈ last := by
  obtain ⟨first, hf, hr⟩ := h
  induction hr with
  | refl => exact ⟨list, .refl, hf⟩
  | tail _ step ih =>
    obtain ⟨last, hl, hs⟩ := ih
    obtain ⟨held, found, hm⟩ := step
    exact ⟨held, hl.tail (.mixin hs found), hm⟩

theorem reaches_of_comesTo {doc : Document} {list held : List Property} {mixin : String}
    (h : doc.ComesTo list mixin) (found : doc.mixin? mixin = some held) :
    doc.Reaches list held := by
  obtain ⟨last, hl, hs⟩ := exists_reaches_of_comesTo h
  exact hl.tail (.mixin hs found)

/-- A mixin that gets to another one by splices leads to its list. -/
theorem reaches_of_splices {doc : Document} {outer inner : String} {held : List Property}
    (h : ReflTransGen doc.Splices outer inner) (found : doc.mixin? inner = some held) :
    ∃ list, doc.mixin? outer = some list ∧ doc.Reaches list held := by
  induction h using ReflTransGen.head_induction_on with
  | refl => exact ⟨held, found, .refl⟩
  | head step _ ih =>
    obtain ⟨list, hl, hs⟩ := step
    obtain ⟨next, hn, hr⟩ := ih
    exact ⟨list, hl, .head (.mixin hs hn) hr⟩

/-- Where no mixin holds an inline object, none is endless. -/
theorem not_endless_of_flat {doc : Document}
    (flat : ∀ mixin held inner, doc.mixin? mixin = some held → ¬ HasInline held inner)
    (mixin : String) : ¬ doc.Endless mixin := by
  rintro ⟨held, list, inner, last, found, reached, inline, -⟩
  have stays : ∃ owner, doc.mixin? owner = some list := by
    clear inline
    induction reached with
    | refl => exact ⟨mixin, found⟩
    | tail _ step ih =>
      obtain ⟨owner, ho⟩ := ih
      cases step with
      | mixin _ next => exact ⟨_, next⟩
      | inline inline => exact absurd inline (flat owner _ _ ho)
  obtain ⟨owner, ho⟩ := stays
  exact flat owner list inner ho inline

/-! ## Sound lists -/

/-- What a list says itself is sound. A splice names a mixin that does not come back to itself, a
reference names an object or an enum, and a channel is one. -/
structure SoundHere (doc : Document) (list : List Property) : Prop where
  mixin : ∀ mixin, .splice mixin ∈ list →
    (doc.mixin? mixin).isSome ∧ ¬ TransGen doc.Splices mixin mixin
  reference : ∀ name ty target, .field name ty ∈ list →
    ty.shape.innermost = .reference target → doc.isNamedType target
  channel : ∀ name ty target, .field name ty ∈ list →
    ty.shape.innermost = .channel target → doc.isChannel target

/-- A list is sound with all that it leads to. -/
def Sound (doc : Document) (list : List Property) : Prop :=
  ∀ other, doc.Reaches list other → doc.SoundHere other

theorem Sound.of_reaches {doc : Document} {list other : List Property} (h : doc.Sound list)
    (hr : doc.Reaches list other) : doc.Sound other := fun last hl => h last (hr.trans hl)

/-- Lists that lead only to each other are sound if each is so itself. -/
theorem sound_of_closed {doc : Document} {lists : List (List Property)}
    (here : ∀ list ∈ lists, doc.SoundHere list)
    (next : ∀ list ∈ lists, ∀ other, doc.Leads list other → other ∈ lists) :
    ∀ list ∈ lists, doc.Sound list := by
  intro list mem other reached
  have stays : other ∈ lists := by
    induction reached with
    | refl => exact mem
    | tail _ step ih => exact next _ ih _ step
  exact here other stays

theorem sound_nil (doc : Document) : doc.Sound [] := by
  intro other reached
  rcases ReflTransGen.cases_head reached with rfl | ⟨next, step, -⟩
  · constructor <;> simp
  · rcases step with h | ⟨_, _, h, -⟩ <;> simp at h

/-! ## Resolving, field by field -/

/-- The resolution of one field of an expansion. -/
def resolveField (doc : Document) (path : List String) (location : Location) (field : Inlined) :
    Except (Stop Error) ResolvedField :=
  match field.route.find? path.contains with
  | some _ => .error .endless
  | none => do
    let (ts, validator) ←
      doc.resolveShape (path ++ field.route) (.member location field.name) field.ty.shape
    return ⟨field.name, ⟨ts, validator, field.ty.optional⟩⟩

theorem resolveProperties_eq (doc : Document) (path : List String) (location : Location)
    (list : List Property) :
    doc.resolveProperties path location list =
      (doc.expand location list).mapError .fails >>= fun fields =>
        fields.mapM (doc.resolveField path location) := by
  rw [resolveProperties]
  split
  · rename_i error h
    rw [h]
    rfl
  · rename_i fields h
    have right : ((doc.expand location list).mapError .fails >>=
        fun fields => fields.mapM (doc.resolveField path location)) =
          fields.mapM (doc.resolveField path location) := by
      rw [h]
      rfl
    rw [right]
    refine (List.mapM_subtype fun field mem => ?_).trans (by rw [List.unattach_attach])
    unfold resolveField
    dsimp only
    split <;> rename_i h' <;> simp only [h']

theorem find?_eq_none_of_fresh {route path : List String}
    (fresh : ∀ mixin ∈ route, mixin ∉ path) : route.find? path.contains = none := by
  simpa [List.find?_eq_none] using fresh

theorem succeeds_resolveField_iff {doc : Document} {path : List String} {location : Location}
    {field : Inlined} :
    Succeeds (doc.resolveField path location field) ↔ (∀ mixin ∈ field.route, mixin ∉ path) ∧
      Succeeds (doc.resolveShape (path ++ field.route) (.member location field.name)
        field.ty.shape) := by
  unfold resolveField
  split
  · rename_i mixin h
    refine iff_of_false (not_succeeds_error _) fun clear => ?_
    have on := List.find?_some h
    exact clear.1 mixin (List.mem_of_find?_eq_some h) (by simpa using on)
  · rename_i h
    rw [succeeds_bind_iff]
    simp only [List.find?_eq_none, List.contains_eq_mem, decide_eq_true_eq] at h
    constructor
    · rintro ⟨value, hv, -⟩
      exact ⟨h, value, hv⟩
    · rintro ⟨-, value, hv⟩
      exact ⟨value, hv, succeeds_ok _⟩

/-- A list is resolved exactly if it can be expanded and each of its fields is resolved. -/
theorem succeeds_resolveProperties_iff {doc : Document} {path : List String} {location : Location}
    {list : List Property} :
    Succeeds (doc.resolveProperties path location list) ↔
      ∃ fields, doc.expand location list = .ok fields ∧
        ∀ field ∈ fields, Succeeds (doc.resolveField path location field) := by
  rw [resolveProperties_eq, succeeds_bind_iff]
  simp only [succeeds_mapM_iff, mapError_eq_ok_iff]

/-- A leaf is resolved to the same in every document, at every place. -/
theorem exists_resolved_of_isLeaf {shape : Shape} (leaf : shape.isLeaf) :
    ∃ made, ∀ (doc : Document) (path : List String) (location : Location),
      doc.resolveShape path location shape = .ok made := by
  cases shape with
  | reference | channel | array | object => cases leaf
  | string | boolean | number | undefined | binary | any | anyChannel | literals =>
    apply Exists.intro
    intro doc path location
    rw [resolveShape]

/-- Resolving goes from a shape to what is in it, and from a list that can be expanded to those of
its fields that came through no mixin of the path. -/
theorem resolve_induction (doc : Document) {shapes : List String → Location → Shape → Prop}
    {lists : List String → Location → List Property → Prop}
    (leaf : ∀ path location shape, shape.isLeaf → shapes path location shape)
    (reference : ∀ path location name, shapes path location (.reference name))
    (channel : ∀ path location name, shapes path location (.channel name))
    (array : ∀ path location element optional, shapes path (.element location) element →
      shapes path location (.array ⟨element, optional⟩))
    (object : ∀ path location list, lists path location list → shapes path location (.object list))
    (refused : ∀ path location list error, doc.expand location list = .error error →
      lists path location list)
    (expanded : ∀ path location list fields, doc.expand location list = .ok fields →
      (∀ field ∈ fields, field.route.find? path.contains = none →
        shapes (path ++ field.route) (.member location field.name) field.ty.shape) →
      lists path location list) :
    (∀ path location shape, shapes path location shape) ∧
      ∀ path location list, lists path location list := by
  apply Document.resolveShape.mutual_induct doc
  case case7 | case8 => exact fun path location name _ => reference path location name
  case case10 | case11 => exact fun path location name _ => channel path location name
  case case12 => exact array
  case case14 => exact object
  case case15 => exact refused
  case case16 => exact expanded
  all_goals
    intros
    exact leaf _ _ _ rfl

/-! ## What is resolved is sound -/

/-- What a shape says of itself once it is resolved. -/
theorem innermost_of_resolveShape {doc : Document} {path : List String} {location : Location}
    {shape : Shape} (h : Succeeds (doc.resolveShape path location shape)) :
    (∀ target, shape.innermost = .reference target → doc.isNamedType target) ∧
    (∀ target, shape.innermost = .channel target → doc.isChannel target) ∧
    ∀ inner, shape.innermost = .object inner →
      ∃ place, Succeeds (doc.resolveProperties path place inner) := by
  fun_induction Shape.innermost shape generalizing location with
  | case1 element optional ih =>
    rw [resolveShape, succeeds_bind_iff] at h
    obtain ⟨value, hv, -⟩ := h
    exact ih ⟨value, hv⟩
  | case2 shape noArray =>
    refine ⟨?_, ?_, ?_⟩
    · rintro target rfl
      rw [resolveShape] at h
      exact succeeds_ite_iff.mp h
    · rintro target rfl
      rw [resolveShape] at h
      exact succeeds_ite_iff.mp h
    · rintro inner rfl
      rw [resolveShape, succeeds_bind_iff] at h
      obtain ⟨fields, hf, -⟩ := h
      exact ⟨location, fields, hf⟩

/-- A list that some expansion went through, and whose fields were all resolved. -/
def Treated (doc : Document) (list : List Property) : Prop :=
  ∃ route location fields, doc.inlineFields route location list = .ok fields ∧
    ∀ field ∈ fields, ∃ path place, Succeeds (doc.resolveShape path place field.ty.shape)

theorem treated_of_resolveProperties {doc : Document} {path : List String} {location : Location}
    {list : List Property} (h : Succeeds (doc.resolveProperties path location list)) :
    doc.Treated list := by
  obtain ⟨fields, expanded, resolved⟩ := succeeds_resolveProperties_iff.mp h
  refine ⟨[], location, fields, expanded, fun field mem => ?_⟩
  exact ⟨_, _, (succeeds_resolveField_iff.mp (resolved field mem)).2⟩

theorem Treated.leads {doc : Document} {list other : List Property} (h : doc.Treated list)
    (step : doc.Leads list other) : doc.Treated other := by
  obtain ⟨route, location, fields, expanded, resolved⟩ := h
  cases step with
  | mixin hs found =>
    obtain ⟨held, inner, same, hi, sub⟩ := splice_subset_inlineFields expanded hs
    rw [found] at same
    cases same
    exact ⟨_, _, inner, hi, fun field mem => resolved field (sub mem)⟩
  | inline hi =>
    obtain ⟨name, ty, hf, object⟩ := hi
    obtain ⟨path, place, ok⟩ := resolved _ (field_mem_inlineFields expanded hf)
    obtain ⟨place, ok⟩ := (innermost_of_resolveShape ok).2.2 other object
    exact treated_of_resolveProperties ok

theorem Treated.soundHere {doc : Document} {list : List Property} (h : doc.Treated list) :
    doc.SoundHere list := by
  obtain ⟨route, location, fields, expanded, resolved⟩ := h
  have inlinable := (succeeds_inlineFields_iff ..).mp ⟨fields, expanded⟩
  refine ⟨?_, ?_, ?_⟩
  · intro mixin hs
    obtain ⟨found, -, acyclic⟩ := inlinable mixin (comesTo_of_mem hs)
    exact ⟨found, acyclic⟩
  · intro name ty target hf same
    obtain ⟨path, place, ok⟩ := resolved _ (field_mem_inlineFields expanded hf)
    exact (innermost_of_resolveShape ok).1 target same
  · intro name ty target hf same
    obtain ⟨path, place, ok⟩ := resolved _ (field_mem_inlineFields expanded hf)
    exact (innermost_of_resolveShape ok).2.1 target same

theorem sound_of_resolveProperties {doc : Document} {path : List String} {location : Location}
    {list : List Property} (h : Succeeds (doc.resolveProperties path location list)) :
    doc.Sound list := by
  intro other reached
  have treated : doc.Treated other := by
    induction reached with
    | refl => exact treated_of_resolveProperties h
    | tail _ step ih => exact ih.leads step
  exact treated.soundHere

/-! ## What is sound is resolved -/

/-- No mixin of `path` is spliced in what a list leads to. -/
def Clear (doc : Document) (path : List String) (list : List Property) : Prop :=
  ∀ mixin ∈ path, ∀ last, doc.Reaches list last → .splice mixin ∉ last

theorem Clear.of_reaches {doc : Document} {path : List String} {list other : List Property}
    (h : doc.Clear path list) (hr : doc.Reaches list other) : doc.Clear path other :=
  fun mixin hm last hl => h mixin hm last (hr.trans hl)

/-- A shape that can be resolved after the mixins of `path`. -/
structure ShapeSound (doc : Document) (path : List String) (shape : Shape) : Prop where
  reference : ∀ target, shape.innermost = .reference target → doc.isNamedType target
  channel : ∀ target, shape.innermost = .channel target → doc.isChannel target
  object : ∀ inner, shape.innermost = .object inner → doc.Sound inner ∧ doc.Clear path inner

theorem expand_of_sound {doc : Document} {list : List Property} (h : doc.Sound list)
    (location : Location) : Succeeds (doc.expand location list) := by
  refine (succeeds_inlineFields_iff ..).mpr fun mixin hc => ?_
  obtain ⟨last, hl, hs⟩ := exists_reaches_of_comesTo hc
  obtain ⟨found, acyclic⟩ := (h last hl).mixin mixin hs
  exact ⟨found, by simp, acyclic⟩

/-- A field of an expansion stands in a list that the list leads to. -/
theorem exists_reaches_of_mem_expand {doc : Document} {location : Location} {list : List Property}
    {fields : List Inlined} (expanded : doc.expand location list = .ok fields) {field : Inlined}
    (mem : field ∈ fields) :
    ∃ other, doc.Reaches list other ∧ .field field.name field.ty ∈ other := by
  rcases own_or_owned expanded mem with ⟨-, hf⟩ | ⟨owner, held, chain, found, hf, hc, -, -⟩
  · exact ⟨list, .refl, hf⟩
  · exact ⟨held, reaches_of_comesTo hc found, hf⟩

/-- A field of an expansion came through no mixin of the path, and its inline object comes back to
none that it came through, because no mixin is endless. -/
theorem clear_of_mem_expand {doc : Document} (finite : ∀ mixin, ¬ doc.Endless mixin)
    {path : List String} {location : Location} {list : List Property} {fields : List Inlined}
    (clear : doc.Clear path list) (expanded : doc.expand location list = .ok fields)
    {field : Inlined} (mem : field ∈ fields) :
    (∀ mixin ∈ field.route, mixin ∉ path) ∧
      ∀ inner, field.ty.shape.innermost = .object inner →
        doc.Clear (path ++ field.route) inner := by
  rcases own_or_owned expanded mem with ⟨here, hf⟩ | ⟨owner, held, chain, found, hf, hc, on, way⟩
  · rw [here, List.append_nil]
    refine ⟨by simp, fun inner object => ?_⟩
    exact clear.of_reaches (.single (.inline ⟨_, _, hf, object⟩))
  · rw [List.nil_append] at on
    rw [on]
    refine ⟨fun mixin hm used => ?_, fun inner object mixin hm last hl hs => ?_⟩
    · obtain ⟨last, hl, hs⟩ := exists_reaches_of_comesTo (way mixin hm).1
      exact clear mixin used last hl hs
    · rcases List.mem_append.mp hm with hm | hm
      · have step : doc.Reaches list inner :=
          (reaches_of_comesTo hc found).tail (.inline ⟨_, _, hf, object⟩)
        exact clear.of_reaches step mixin hm last hl hs
      · obtain ⟨start, hstart, hr⟩ := reaches_of_splices (way mixin hm).2 found
        exact finite mixin ⟨start, held, inner, last, hstart, hr, ⟨_, _, hf, object⟩, hl, hs⟩

/-- The fields of an expansion can be resolved. -/
theorem shapeSound_of_mem_expand {doc : Document} (finite : ∀ mixin, ¬ doc.Endless mixin)
    {path : List String} {location : Location} {list : List Property} {fields : List Inlined}
    (sound : doc.Sound list) (clear : doc.Clear path list)
    (expanded : doc.expand location list = .ok fields) {field : Inlined} (mem : field ∈ fields) :
    (∀ mixin ∈ field.route, mixin ∉ path) ∧
      doc.ShapeSound (path ++ field.route) field.ty.shape := by
  obtain ⟨fresh, inline⟩ := clear_of_mem_expand finite clear expanded mem
  obtain ⟨other, reached, hf⟩ := exists_reaches_of_mem_expand expanded mem
  have own := sound other reached
  refine ⟨fresh, fun target => own.reference _ _ target hf,
    fun target => own.channel _ _ target hf, fun inner object => ⟨?_, inline inner object⟩⟩
  exact sound.of_reaches (reached.tail (.inline ⟨_, _, hf, object⟩))

theorem resolve_of_sound {doc : Document} (finite : ∀ mixin, ¬ doc.Endless mixin) :
    (∀ path location shape, doc.ShapeSound path shape →
      Succeeds (doc.resolveShape path location shape)) ∧
    ∀ path location list, doc.Sound list → doc.Clear path list →
      Succeeds (doc.resolveProperties path location list) := by
  apply resolve_induction doc
  case leaf =>
    intro path location shape leaf _
    obtain ⟨made, same⟩ := exists_resolved_of_isLeaf leaf
    exact ⟨made, same doc path location⟩
  case reference =>
    intro path location name sound
    rw [resolveShape]
    exact succeeds_ite_iff.mpr (sound.reference name rfl)
  case channel =>
    intro path location name sound
    rw [resolveShape]
    exact succeeds_ite_iff.mpr (sound.channel name rfl)
  case array =>
    intro path location element optional ih sound
    rw [resolveShape, succeeds_bind_iff]
    obtain ⟨value, hv⟩ := ih ⟨sound.reference, sound.channel, sound.object⟩
    exact ⟨value, hv, succeeds_ok _⟩
  case object =>
    intro path location list ih sound
    rw [resolveShape, succeeds_bind_iff]
    obtain ⟨fields, hf⟩ := ih (sound.object list rfl).1 (sound.object list rfl).2
    exact ⟨fields, hf, succeeds_ok _⟩
  case refused =>
    intro path location list error failed sound
    obtain ⟨fields, ok⟩ := expand_of_sound sound location
    rw [failed] at ok
    cases ok
  case expanded =>
    intro path location list fields expanded ih sound clear
    refine succeeds_resolveProperties_iff.mpr ⟨fields, expanded, fun field mem => ?_⟩
    obtain ⟨fresh, shape⟩ := shapeSound_of_mem_expand finite sound clear expanded mem
    exact succeeds_resolveField_iff.mpr
      ⟨fresh, ih field mem (find?_eq_none_of_fresh fresh) shape⟩

/-- Where no mixin is endless, a list is resolved exactly if it is sound, at any place. -/
theorem succeeds_resolve_iff {doc : Document} (finite : ∀ mixin, ¬ doc.Endless mixin)
    (location : Location) (list : List Property) :
    Succeeds (doc.resolve location list) ↔ doc.Sound list :=
  ⟨sound_of_resolveProperties,
    fun sound => (resolve_of_sound finite).2 [] location list sound fun _ hm => by simp at hm⟩

/-! ## The lists of a document -/

/-- A declared list, with the name of the type that is made from it and the place where it stands.
The lists of mixins are not among them, because mixins are part of what splices them. -/
inductive Surface (doc : Document) : String → Location → List Property → Prop
  | initializer {name : String} {channel : Channel} : doc.channel? name = some channel →
      Surface doc (initializerName name) (.member (.named name) "initializer") channel.initializer
  | event {name event : String} {channel : Channel} {body : Event} {list : List Property} :
      doc.channel? name = some channel → (event, body) ∈ channel.events.entries →
      body.parameters = some list →
      Surface doc (eventName name event) (.member (.named name) event) list
  | parameters {name command : String} {channel : Channel} {body : Command}
      {list : List Property} : doc.channel? name = some channel →
      (command, body) ∈ channel.commands.entries → body.parameters = some list →
      Surface doc (paramsName name command)
        (.member (.member (.named name) command) "parameters") list
  | returns {name command : String} {channel : Channel} {body : Command}
      {list : List Property} : doc.channel? name = some channel →
      (command, body) ∈ channel.commands.entries → body.returns = some list →
      Surface doc (resultName name command)
        (.member (.member (.named name) command) "returns") list
  | object {name : String} {list : List Property} : doc.get? name = some (.object list) →
      Surface doc name (.named name) list

end Document

end ChannelProtocol.Schema
