-- Documents with the same entities in another order. Each list is resolved to
-- the same fields, channels have the same parents, and the traced commands are
-- the same up to order.
import ChannelProtocol.Proofs.Schema.Ancestry
import ChannelProtocol.Proofs.Schema.References
import ChannelProtocol.Schema.Lineage
import Mathlib.Data.List.Perm.Basic

namespace ChannelProtocol

theorem Table.get?_of_perm {α : Type} {table other : Table α}
    (reordered : table.entries.Perm other.entries) (name : String) :
    table.get? name = other.get? name := by
  apply Option.ext
  intro value
  rw [Table.get?_eq_some_iff, Table.get?_eq_some_iff, reordered.mem_iff]

namespace Schema

open Relation

/-- Two documents with the same entities, in any order. -/
def Document.Reordered (doc other : Document) : Prop :=
  doc.entities.entries.Perm other.entities.entries

namespace Document

variable {doc other : Document}

/-! ## Looking up -/

theorem Reordered.get? (reordered : doc.Reordered other) (name : String) :
    doc.get? name = other.get? name :=
  Table.get?_of_perm reordered name

theorem Reordered.channel? (reordered : doc.Reordered other) (name : String) :
    doc.channel? name = other.channel? name := by
  unfold Document.channel?
  rw [reordered.get?]

theorem Reordered.isChannel (reordered : doc.Reordered other) (name : String) :
    doc.isChannel name = other.isChannel name := by
  unfold Document.isChannel
  rw [reordered.channel?]

theorem Reordered.isNamedType (reordered : doc.Reordered other) (name : String) :
    doc.isNamedType name = other.isNamedType name := by
  unfold Document.isNamedType
  rw [reordered.get?]

theorem Reordered.mixin? (reordered : doc.Reordered other) (name : String) :
    doc.mixin? name = other.mixin? name := by
  unfold Document.mixin?
  rw [reordered.get?]

/-! ## Resolving -/

theorem Reordered.inlineFields (reordered : doc.Reordered other) (route : List String)
    (location : Location) (properties : List Property) :
    doc.inlineFields route location properties = other.inlineFields route location properties := by
  fun_induction Document.inlineFields doc route location properties with
  | case1 => rw [Document.inlineFields]
  | case2 route location name ty rest ih => rw [Document.inlineFields, ih]
  | case3 route location mixin rest used => rw [Document.inlineFields, dif_pos used]
  | case4 route location mixin rest fresh missing =>
    rw [reordered.mixin?] at missing
    rw [Document.inlineFields, dif_neg fresh]
    split
    · rfl
    · rename_i found
      rw [missing] at found
      cases found
  | case5 route location mixin rest fresh properties found smaller ihInner ihRest =>
    rw [reordered.mixin?] at found
    rw [Document.inlineFields, dif_neg fresh, ihInner, ihRest]
    split
    · rename_i missing
      rw [missing] at found
      cases found
    · rename_i held found'
      rw [found] at found'
      cases found'
      rfl

theorem Reordered.expand (reordered : doc.Reordered other) (location : Location)
    (properties : List Property) :
    doc.expand location properties = other.expand location properties :=
  reordered.inlineFields [] location properties

/-- Resolving looks at a document only through its names. -/
theorem Reordered.resolveBoth (reordered : doc.Reordered other) :
    (∀ path location shape,
      doc.resolveShape path location shape = other.resolveShape path location shape) ∧
    ∀ path location list,
      doc.resolveProperties path location list = other.resolveProperties path location list := by
  apply resolve_induction doc
  case leaf =>
    intro path location shape leaf
    obtain ⟨made, same⟩ := exists_resolved_of_isLeaf leaf
    rw [same, same]
  case reference =>
    intro path location name
    rw [resolveShape, resolveShape, reordered.isNamedType]
  case channel =>
    intro path location name
    rw [resolveShape, resolveShape, reordered.isChannel]
  case array =>
    intro path location element optional ih
    rw [resolveShape, resolveShape, ih]
  case object =>
    intro path location list ih
    rw [resolveShape, resolveShape, ih]
  case refused =>
    intro path location list error failed
    rw [resolveProperties_eq, resolveProperties_eq, ← reordered.expand, failed]
    rfl
  case expanded =>
    intro path location list fields expanded ih
    rw [resolveProperties_eq, resolveProperties_eq, ← reordered.expand, expanded]
    refine mapM_congr fun field mem => ?_
    unfold resolveField
    split
    · rfl
    · rename_i fresh
      rw [ih field mem fresh]

theorem Reordered.resolve (reordered : doc.Reordered other) :
    doc.resolve = other.resolve := by
  funext location list
  exact reordered.resolveBoth.2 [] location list

/-! ## Channels and their parents -/

theorem Reordered.channels (reordered : doc.Reordered other) :
    doc.channels.Perm other.channels :=
  List.Perm.filterMap _ reordered

theorem Reordered.extends (reordered : doc.Reordered other) : doc.Extends = other.Extends := by
  funext child parent
  unfold Extends
  rw [reordered.channel?]

theorem Reordered.parentLinks (reordered : doc.Reordered other) :
    doc.parentLinks.Perm other.parentLinks :=
  List.Perm.filterMap _ reordered.channels

theorem Reordered.parent? (reordered : doc.Reordered other) (name : String) :
    (⟨doc.parentLinks⟩ : Lineage).parent? name = (⟨other.parentLinks⟩ : Lineage).parent? name := by
  apply Option.ext
  intro parent
  rw [Lineage.parent?_parentLinks, Lineage.parent?_parentLinks, reordered.extends]

theorem Reordered.children (reordered : doc.Reordered other) (name : String) :
    ((⟨doc.parentLinks⟩ : Lineage).children name).Perm
      ((⟨other.parentLinks⟩ : Lineage).children name) :=
  List.Perm.filterMap _ reordered.parentLinks

theorem Reordered.succeeds_lineage_iff (reordered : doc.Reordered other) :
    Succeeds (Lineage.ofDocument doc) ↔ Succeeds (Lineage.ofDocument other) := by
  unfold Succeeds
  simp only [Lineage.ofDocument_eq_ok_iff, exists_and_left, exists_eq, and_true,
    reordered.extends, reordered.isChannel]

/-! ## Traced commands -/

theorem Reordered.flagged (reordered : doc.Reordered other) (flag : Tracing → Bool) :
    (flagged doc ⟨doc.parentLinks⟩ flag).Perm (flagged other ⟨other.parentLinks⟩ flag) := by
  unfold Schema.flagged
  refine List.Perm.flatMap reordered.channels fun entry _ => ?_
  refine List.Perm.flatMap_left _ fun held _ => ?_
  obtain ⟨command, body⟩ := held
  by_cases traced : flag body.tracing
  · simp only [traced, if_true, flaggedNames]
    exact .cons _ ((reordered.children entry.1).map _)
  · simp [traced]

end Document

end Schema

end ChannelProtocol
