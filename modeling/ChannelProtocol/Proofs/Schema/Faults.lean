-- Resolutions that fail, and why all of them end. Where no mixin is endless, the
-- path of a resolution plays no part, and an error tells a splice cycle or a name
-- that stands where something else is required.
import ChannelProtocol.Proofs.Schema.Inlining
import ChannelProtocol.Proofs.Schema.References

namespace ChannelProtocol.Schema.Document

open Relation

variable {doc : Document} {path : List String} {location : Location} {list : List Property}

/-! ## Resolving without a path -/

/-- No mixin of `path` is spliced in what the inline object of a shape leads to. -/
def ClearShape (doc : Document) (path : List String) (shape : Shape) : Prop :=
  ∀ inner, shape.innermost = .object inner → doc.Clear path inner

theorem clear_nil (doc : Document) (list : List Property) : doc.Clear [] list :=
  fun _ mem => absurd mem List.not_mem_nil

theorem clearShape_nil (doc : Document) (shape : Shape) : doc.ClearShape [] shape :=
  fun inner _ => clear_nil doc inner

/-- The resolution of a field that came through no mixin of the path. -/
theorem resolveField_of_fresh {field : Inlined} (fresh : ∀ mixin ∈ field.route, mixin ∉ path) :
    doc.resolveField path location field = do
      let (ts, validator) ←
        doc.resolveShape (path ++ field.route) (.member location field.name) field.ty.shape
      return ⟨field.name, ⟨ts, validator, field.ty.optional⟩⟩ := by
  rw [resolveField, find?_eq_none_of_fresh fresh]

/-- Paths that are clear give the same resolution. -/
theorem resolve_congr_path (finite : ∀ mixin, ¬ doc.Endless mixin) :
    (∀ path location shape, doc.ClearShape path shape → ∀ other, doc.ClearShape other shape →
      doc.resolveShape path location shape = doc.resolveShape other location shape) ∧
    ∀ path location list, doc.Clear path list → ∀ other, doc.Clear other list →
      doc.resolveProperties path location list = doc.resolveProperties other location list := by
  apply resolve_induction doc
  case leaf =>
    intro path location shape leaf _ other _
    obtain ⟨made, same⟩ := exists_resolved_of_isLeaf leaf
    rw [same, same]
  case reference | channel =>
    intro path location name _ other _
    rw [resolveShape, resolveShape]
  case array =>
    intro path location element optional ih clear other clear'
    rw [resolveShape, resolveShape, ih clear other clear']
  case object =>
    intro path location list ih clear other clear'
    rw [resolveShape, resolveShape, ih (clear list rfl) other (clear' list rfl)]
  case refused =>
    intro path location list error failed _ other _
    rw [resolveProperties_eq, resolveProperties_eq, failed]
    rfl
  case expanded =>
    intro path location list fields expanded ih clear other clear'
    rw [resolveProperties_eq, resolveProperties_eq, expanded]
    refine mapM_congr fun field mem => ?_
    obtain ⟨fresh, inline⟩ := clear_of_mem_expand finite clear expanded mem
    obtain ⟨fresh', inline'⟩ := clear_of_mem_expand finite clear' expanded mem
    rw [resolveField_of_fresh fresh, resolveField_of_fresh fresh',
      ih field mem (find?_eq_none_of_fresh fresh) inline _ inline']

/-- The resolution of one field, whichever way it came. -/
def resolveEntry (doc : Document) (location : Location) (entry : String × Ty) :
    Except (Stop Error) ResolvedField := do
  let (ts, validator) ← doc.resolveShape [] (.member location entry.1) entry.2.shape
  return ⟨entry.1, ⟨ts, validator, entry.2.optional⟩⟩

/-- A list is resolved by expanding it and resolving each field. -/
theorem resolve_eq_mapM (finite : ∀ mixin, ¬ doc.Endless mixin) (location : Location)
    (list : List Property) :
    doc.resolve location list =
      ((doc.expand location list).map (List.map Inlined.entry)).mapError .fails >>=
        fun entries => entries.mapM (doc.resolveEntry location) := by
  rw [resolve, resolveProperties_eq]
  cases expanded : doc.expand location list with
  | error error => rfl
  | ok fields =>
    change fields.mapM _ = (fields.map Inlined.entry).mapM _
    rw [List.mapM_map]
    refine mapM_congr fun field mem => ?_
    obtain ⟨fresh, inline⟩ := clear_of_mem_expand finite (clear_nil doc list) expanded mem
    rw [resolveField_of_fresh fresh,
      (resolve_congr_path finite).1 _ _ _ inline [] (clearShape_nil doc _)]
    rfl

/-! ## The recursion ends -/

/-- The resolution of a list comes to the resolution of an inline object. -/
def Opens (doc : Document) (list inner : List Property) : Prop :=
  ∃ fields entry, doc.Inlines list fields ∧ entry ∈ fields ∧
    entry.2.shape.innermost = .object inner

/-- Behind no clear path is there an endless row of inline objects. -/
theorem acc_of_clear (finite : ∀ mixin, ¬ doc.Endless mixin) :
    (∀ path (_ : Location) shape, doc.ClearShape path shape →
      ∀ inner, shape.innermost = .object inner → Acc (Function.swap doc.Opens) inner) ∧
    ∀ path (_ : Location) list, doc.Clear path list → Acc (Function.swap doc.Opens) list := by
  apply resolve_induction doc
  case leaf =>
    intro path location shape leaf _ inner object
    cases shape with
    | reference | channel | array | object => cases leaf
    | string | boolean | number | undefined | binary | any | anyChannel | literals => cases object
  case reference | channel =>
    intro path location name _ inner object
    cases object
  case array =>
    intro path location element optional ih clear
    exact ih clear
  case object =>
    intro path location list ih clear inner object
    cases object
    exact ih (clear list rfl)
  case refused =>
    intro path location list error failed _
    refine ⟨_, fun inner opened => ?_⟩
    obtain ⟨fields, entry, inlines, -⟩ := opened
    obtain ⟨inlined, expanded, -⟩ := map_eq_ok_iff.mp (expand_eq_ok_iff.mpr inlines)
    rw [failed] at expanded
    cases expanded
  case expanded =>
    intro path location list fields expanded ih clear
    refine ⟨_, fun inner opened => ?_⟩
    obtain ⟨_, entry, inlines, held, object⟩ := opened
    rw [← expand_eq_ok_iff, expanded] at inlines
    cases inlines
    obtain ⟨field, mem, rfl⟩ := List.mem_map.mp held
    obtain ⟨fresh, inline⟩ := clear_of_mem_expand finite clear expanded mem
    exact ih field mem (find?_eq_none_of_fresh fresh) inline inner object

/-! ## What an error tells -/

/-- A name that stands in a list, or in one that it leads to, and is not what is required there:
a mixin in a splice, an object or an enum in a reference, a channel in a channel reference. -/
inductive Dangles (doc : Document) (list : List Property) (name : String) : Prop
  | splice {other : List Property} : doc.Reaches list other → .splice name ∈ other →
      doc.mixin? name = none → Dangles doc list name
  | reference {other : List Property} {field : String} {ty : Ty} : doc.Reaches list other →
      .field field ty ∈ other → ty.shape.innermost = .reference name → ¬ doc.isNamedType name →
      Dangles doc list name
  | channel {other : List Property} {field : String} {ty : Ty} : doc.Reaches list other →
      .field field ty ∈ other → ty.shape.innermost = .channel name → ¬ doc.isChannel name →
      Dangles doc list name

theorem Dangles.of_reaches {other : List Property} {name : String}
    (reached : doc.Reaches list other) (h : doc.Dangles other name) : doc.Dangles list name := by
  cases h with
  | splice step spliced missing => exact .splice (reached.trans step) spliced missing
  | reference step held same missing => exact .reference (reached.trans step) held same missing
  | channel step held same missing => exact .channel (reached.trans step) held same missing

/-- Why a list is not resolved: a splice cycle in a list that it leads to, or a dangling name. -/
inductive Fails (doc : Document) (list : List Property) : Error → Prop
  | cycle {other : List Property} {chain : List String} : doc.Reaches list other →
      doc.Circles [] other chain → Fails doc list (.mixinCycle chain)
  | dangling {name : String} {place : Location} : doc.Dangles list name →
      Fails doc list (.unknownReference name place)

theorem Fails.of_reaches {other : List Property} {error : Error} (reached : doc.Reaches list other)
    (h : doc.Fails other error) : doc.Fails list error := by
  cases h with
  | cycle step circles => exact .cycle (reached.trans step) circles
  | dangling dangles => exact .dangling (dangles.of_reaches reached)

theorem fails_of_expand {error : Error} (failed : doc.expand location list = .error error) :
    doc.Fails list error := by
  cases refuses_of_expand failed with
  | cycle circles => exact .cycle .refl circles
  | unknown missing spliced =>
    cases spliced with
    | here spliced => exact .dangling (.splice .refl spliced missing)
    | mixin reached found spliced =>
      exact .dangling (.splice (reaches_of_comesTo reached found) spliced missing)

/-- Why a shape is not resolved: all lists with a field of this shape fail alike. -/
def ShapeFails (doc : Document) (shape : Shape) (error : Error) : Prop :=
  ∀ list name ty, .field name ty ∈ list → ty.shape.innermost = shape.innermost →
    doc.Fails list error

/-- Where no mixin is endless, what stops a resolution is an error, and it has its reason. -/
theorem fails_of_resolve (finite : ∀ mixin, ¬ doc.Endless mixin) :
    (∀ path location shape, doc.ClearShape path shape →
      ∀ stop, doc.resolveShape path location shape = .error stop →
        ∃ error, stop = .fails error ∧ doc.ShapeFails shape error) ∧
    ∀ path location list, doc.Clear path list →
      ∀ stop, doc.resolveProperties path location list = .error stop →
        ∃ error, stop = .fails error ∧ doc.Fails list error := by
  apply resolve_induction doc
  case leaf =>
    intro path location shape leaf _ stop failed
    obtain ⟨made, same⟩ := exists_resolved_of_isLeaf leaf
    rw [same] at failed
    cases failed
  case reference =>
    intro path location name _ stop failed
    rw [resolveShape] at failed
    split at failed
    · cases failed
    · rename_i missing
      cases failed
      refine ⟨_, rfl, fun list field ty held same => ?_⟩
      exact .dangling (.reference .refl held same missing)
  case channel =>
    intro path location name _ stop failed
    rw [resolveShape] at failed
    split at failed
    · cases failed
    · rename_i missing
      cases failed
      refine ⟨_, rfl, fun list field ty held same => ?_⟩
      exact .dangling (.channel .refl held same missing)
  case array =>
    intro path location element optional ih clear stop failed
    rw [resolveShape] at failed
    rcases bind_eq_error_iff.mp failed with failed | ⟨value, -, failed⟩
    · exact ih clear stop failed
    · cases failed
  case object =>
    intro path location inner ih clear stop failed
    rw [resolveShape] at failed
    rcases bind_eq_error_iff.mp failed with failed | ⟨value, -, failed⟩
    · obtain ⟨error, rfl, fails⟩ := ih (clear inner rfl) stop failed
      refine ⟨error, rfl, fun list name ty held same => ?_⟩
      exact fails.of_reaches (.single (.inline ⟨name, ty, held, same⟩))
    · cases failed
  case refused =>
    intro path location list error failed _ stop stopped
    rw [resolveProperties_eq, failed] at stopped
    cases stopped
    exact ⟨error, rfl, fails_of_expand failed⟩
  case expanded =>
    intro path location list fields expanded ih clear stop failed
    rw [resolveProperties_eq, expanded] at failed
    obtain ⟨before, field, after, rfl, -, failed⟩ := mapM_eq_error_iff.mp failed
    have mem : field ∈ before ++ field :: after := by simp
    obtain ⟨fresh, inline⟩ := clear_of_mem_expand finite clear expanded mem
    rw [resolveField_of_fresh fresh] at failed
    rcases bind_eq_error_iff.mp failed with failed | ⟨value, -, failed⟩
    · obtain ⟨other, reached, held⟩ := exists_reaches_of_mem_expand expanded mem
      obtain ⟨error, rfl, shape⟩ :=
        ih field mem (find?_eq_none_of_fresh fresh) inline stop failed
      exact ⟨error, rfl, (shape other field.name field.ty held rfl).of_reaches reached⟩
    · cases failed

/-- Where no mixin is endless, the resolution of a list ends: no endless row of inline objects
opens, and it is made field by field with no look at the way of a field. It succeeds exactly if the
list is sound, at any place. Otherwise it tells a splice cycle, or a name that dangles. -/
theorem resolve_exact (finite : ∀ mixin, ¬ doc.Endless mixin) (list : List Property) :
    Acc (Function.swap doc.Opens) list ∧
    (∀ location, doc.resolve location list =
      ((doc.expand location list).map (List.map Inlined.entry)).mapError .fails >>=
        fun entries => entries.mapM (doc.resolveEntry location)) ∧
    (∀ location, Succeeds (doc.resolve location list) ↔ doc.Sound list) ∧
    (∀ location other, Succeeds (doc.resolve location list) ↔ Succeeds (doc.resolve other list)) ∧
    (∀ location name place,
      doc.resolve location list = .error (.fails (.unknownReference name place)) →
      doc.Dangles list name) ∧
    ∀ location, Succeeds (doc.resolve location list) ∨
      (∃ chain, doc.resolve location list = .error (.fails (.mixinCycle chain))) ∨
      ∃ name place, doc.resolve location list = .error (.fails (.unknownReference name place)) := by
  have sound (location : Location) := succeeds_resolve_iff finite location list
  have fails (location : Location) :=
    (fails_of_resolve finite).2 [] location list (clear_nil doc list)
  refine ⟨(acc_of_clear finite).2 [] .document list (clear_nil doc list),
    fun location => resolve_eq_mapM finite location list, sound,
    fun location other => (sound location).trans (sound other).symm,
    fun location name place failed => ?_, fun location => ?_⟩
  · obtain ⟨error, same, fails⟩ := fails location _ failed
    cases same
    cases fails with
    | dangling dangles => exact dangles
  · cases outcome : doc.resolve location list with
    | ok fields => exact .inl (succeeds_ok fields)
    | error stop =>
      obtain ⟨error, rfl, fails⟩ := fails location stop outcome
      cases fails with
      | cycle => exact .inr (.inl ⟨_, rfl⟩)
      | dangling => exact .inr (.inr ⟨_, _, rfl⟩)

/-- A row of boxes, with a shade of the given type. -/
def boxRow (shade : String) : List Property :=
  [.splice "Sized", .field "shade" ⟨.reference shade, true⟩]

/-- A box with rows of boxes. -/
def boxRows (shade : String) : List Property :=
  [.splice "Boxed", .field "rows" ⟨.array ⟨.object (boxRow shade), false⟩, false⟩]

/-- The rows, and all that they lead to. -/
def boxLists : List (List Property) := [
  boxRows "Button",
  boxRow "Button",
  [.splice "Sized", .field "lid" ⟨.boolean, true⟩],
  [.field "size" ⟨.number, false⟩]]

theorem splicedDocument_finite (mixin : String) : ¬ splicedDocument.Endless mixin := by
  refine not_endless_of_flat (fun owner held inner found inline => ?_) mixin
  have mem := (Table.get?_eq_some_iff ..).mp (mixin?_eq_some_iff.mp found)
  simp only [splicedDocument, List.mem_cons, Prod.mk.injEq, Entity.mixin.injEq, reduceCtorEq,
    and_false, or_false, List.not_mem_nil] at mem
  obtain ⟨name, ty, hf, object⟩ := inline
  rcases mem with ⟨-, rfl⟩ | ⟨-, rfl⟩ | ⟨-, rfl⟩ | ⟨-, rfl⟩ | ⟨-, rfl⟩ | ⟨-, rfl⟩ | ⟨-, rfl⟩ <;>
    grind [Shape.innermost]

theorem inlines_boxRow (shade : String) : splicedDocument.Inlines (boxRow shade)
    [("size", ⟨.number, false⟩), ("shade", ⟨.reference shade, true⟩)] :=
  .splice rfl (.field .nil) (.field .nil)

theorem inlines_boxRows (shade : String) : splicedDocument.Inlines (boxRows shade)
    [("size", ⟨.number, false⟩), ("lid", ⟨.boolean, true⟩),
      ("rows", ⟨.array ⟨.object (boxRow shade), false⟩, false⟩)] :=
  .splice rfl (.splice rfl (.field .nil) (.field .nil)) (.field .nil)

theorem boxLists_sound : ∀ list ∈ boxLists, splicedDocument.Sound list := by
  have sized : splicedDocument.mixin? "Sized" = some [.field "size" ⟨.number, false⟩] := rfl
  have boxed : splicedDocument.mixin? "Boxed" =
      some [.splice "Sized", .field "lid" ⟨.boolean, true⟩] := rfl
  have button : splicedDocument.isNamedType "Button" := rfl
  have row := ((inlines_boxRow "Button").inlinable (comesTo_of_mem List.mem_cons_self)).acyclic
  have rows := ((inlines_boxRows "Button").inlinable (comesTo_of_mem List.mem_cons_self)).acyclic
  refine sound_of_closed (fun list mem => ?_) fun list mem other step => ?_
  · simp only [boxLists, List.mem_cons, List.not_mem_nil, or_false] at mem
    rcases mem with rfl | rfl | rfl | rfl <;> constructor <;>
      grind [boxRows, boxRow, Shape.innermost]
  · simp only [boxLists, List.mem_cons, List.not_mem_nil, or_false] at mem ⊢
    cases step with
    | mixin spliced found => rcases mem with rfl | rfl | rfl | rfl <;> grind [boxRows, boxRow]
    | inline inline =>
      obtain ⟨name, ty, held, object⟩ := inline
      rcases mem with rfl | rfl | rfl | rfl <;> grind [boxRows, boxRow, Shape.innermost]

theorem boxRow_refused (place : Location) : splicedDocument.resolve place (boxRow "Sized") =
    .error (.fails (.unknownReference "Sized" (.member place "shade"))) := by
  have other : splicedDocument.isNamedType "Sized" = false := rfl
  rw [resolve_eq_mapM splicedDocument_finite, expand_eq_ok_iff.mpr (inlines_boxRow "Sized")]
  simp [resolveEntry, resolveShape, other, bind, Except.bind, pure, Except.pure]

theorem boxRows_refused : splicedDocument.resolve .document (boxRows "Sized") =
    .error (.fails
      (.unknownReference "Sized" (.member (.element (.member .document "rows")) "shade"))) := by
  have inner := boxRow_refused (.element (.member .document "rows"))
  rw [resolve] at inner
  rw [resolve_eq_mapM splicedDocument_finite, expand_eq_ok_iff.mpr (inlines_boxRows "Sized")]
  simp [resolveEntry, resolveShape, inner, bind, Except.bind, pure, Except.pure]

/-- With an enum for the shade the rows are resolved, also those in the array. A mixin is no type,
and then the shade is what dangles. -/
theorem boxRows_resolved :
    (∀ mixin, ¬ splicedDocument.Endless mixin) ∧
    Succeeds (splicedDocument.resolve .document (boxRows "Button")) ∧
    (splicedDocument.resolve .document (boxRows "Sized") =
        .error (.fails
          (.unknownReference "Sized" (.member (.element (.member .document "rows")) "shade"))) ∧
      splicedDocument.Dangles (boxRows "Sized") "Sized") := by
  obtain ⟨-, -, sound, -⟩ := resolve_exact splicedDocument_finite (boxRows "Button")
  obtain ⟨-, -, -, -, dangles, -⟩ := resolve_exact splicedDocument_finite (boxRows "Sized")
  exact ⟨splicedDocument_finite, (sound .document).mpr (boxLists_sound _ List.mem_cons_self),
    boxRows_refused, dangles .document _ _ boxRows_refused⟩

end ChannelProtocol.Schema.Document
