-- Channels and their parents. The lineage of a document is there exactly if
-- every parent is a channel and no channel is an ancestor of itself, and then
-- it holds the parents as the channels name them.
import ChannelProtocol.Proofs.Success
import ChannelProtocol.Schema.Lineage
import Mathlib.Logic.Relation

namespace ChannelProtocol.Schema

open Relation

/-! ## The channels of a document -/

/-- Entries that are picked from a list, and keep their names, keep the order of the names. -/
theorem map_fst_filterMap_sublist {α β : Type} {pick : String × α → Option (String × β)}
    (keeps : ∀ entry picked, pick entry = some picked → picked.1 = entry.1)
    (entries : List (String × α)) :
    ((entries.filterMap pick).map Prod.fst).Sublist (entries.map Prod.fst) := by
  induction entries with
  | nil => simp
  | cons entry rest ih =>
    cases h : pick entry with
    | none => simpa [List.filterMap_cons, h] using ih.cons entry.1
    | some picked => simpa [List.filterMap_cons, h, keeps entry picked h] using ih

namespace Document

theorem channelEntry?_eq_some {entry : String × Entity} {picked : String × Channel}
    (h : channelEntry? entry = some picked) : entry = (picked.1, .channel picked.2) := by
  unfold channelEntry? at h
  split at h
  · cases h
    rfl
  · cases h

theorem channel?_eq_some_iff {doc : Document} {name : String} {channel : Channel} :
    doc.channel? name = some channel ↔ doc.get? name = some (.channel channel) := by
  unfold channel?
  split
  · rename_i other h
    simp [h]
  · rename_i h
    simp only [reduceCtorEq, false_iff]
    exact h channel

theorem mem_channels_iff {doc : Document} {name : String} {channel : Channel} :
    (name, channel) ∈ doc.channels ↔ doc.channel? name = some channel := by
  rw [channel?_eq_some_iff, get?, Table.get?_eq_some_iff, channels, List.mem_filterMap]
  constructor
  · rintro ⟨entry, mem, h⟩
    rw [channelEntry?_eq_some h] at mem
    exact mem
  · intro mem
    exact ⟨_, mem, rfl⟩

theorem nodup_channels (doc : Document) : (doc.channels.map Prod.fst).Nodup := by
  refine List.Nodup.sublist (map_fst_filterMap_sublist ?_ _) doc.entities.distinct
  intro entry picked h
  rw [channelEntry?_eq_some h]

/-- A channel names another entity as its parent. -/
def Extends (doc : Document) (child parent : String) : Prop :=
  ∃ channel, doc.channel? child = some channel ∧ channel.parent = some parent

/-- The parent of a channel, beside the name of the channel. -/
def parentEntry? (entry : String × Channel) : Option (String × String) :=
  entry.2.parent.map (entry.1, ·)

/-- The parents of the channels, as they name them. -/
def parentLinks (doc : Document) : List (String × String) := doc.channels.filterMap parentEntry?

theorem filterMap_map_parentEntry? (doc : Document) :
    (doc.channels.map parentEntry?).filterMap id = doc.parentLinks := by
  rw [List.filterMap_map]
  rfl

theorem mem_parentLinks_iff {doc : Document} {child parent : String} :
    (child, parent) ∈ doc.parentLinks ↔ doc.Extends child parent := by
  simp only [parentLinks, List.mem_filterMap, Prod.exists, mem_channels_iff, parentEntry?,
    Option.map_eq_some_iff, Prod.mk.injEq, Extends]
  constructor
  · rintro ⟨name, channel, found, held, h, rfl, rfl⟩
    exact ⟨channel, found, h⟩
  · rintro ⟨channel, found, h⟩
    exact ⟨child, channel, found, parent, h, rfl, rfl⟩

theorem nodup_parentLinks (doc : Document) : (doc.parentLinks.map Prod.fst).Nodup := by
  refine List.Nodup.sublist (map_fst_filterMap_sublist ?_ _) doc.nodup_channels
  intro entry picked h
  obtain ⟨parent, -, rfl⟩ := Option.map_eq_some_iff.mp h
  rfl

end Document

namespace Lineage

/-! ## Walks from child to parent -/

/-- A channel has another one as its parent. -/
def HasParent (lineage : Lineage) (child parent : String) : Prop :=
  lineage.parent? child = some parent

/-- A walk that comes back to its own path has gone round a loop. -/
theorem loop_of_loop?_eq_some {lineage : Lineage} {path chain : List String} {current : String}
    (behind : ∀ name ∈ path, ReflTransGen lineage.HasParent name current)
    (h : lineage.loop? path current = some chain) :
    ∃ name, TransGen lineage.HasParent name name := by
  fun_induction Lineage.loop? lineage path current with
  | case1 => cases h
  | case2 path current parent found used => exact ⟨parent, .tail' (behind parent used) found⟩
  | case3 path current parent found fresh smaller ih =>
    refine ih (fun name mem => ?_) h
    rcases List.mem_append.mp mem with mem | mem
    · exact (behind name mem).tail found
    · rw [List.mem_singleton.mp mem]

/-- A walk without a loop comes to an end. -/
theorem acc_of_loop?_eq_none {lineage : Lineage} {path : List String} {current : String}
    (h : lineage.loop? path current = none) :
    Acc (fun parent child => lineage.HasParent child parent) current := by
  fun_induction Lineage.loop? lineage path current with
  | case1 path current missing =>
    refine ⟨current, fun parent found => ?_⟩
    rw [HasParent, missing] at found
    cases found
  | case2 => cases h
  | case3 path current parent found fresh smaller ih =>
    refine ⟨current, fun other found' => ?_⟩
    rw [HasParent, found] at found'
    cases found'
    exact ih h

theorem not_transGen_of_acc {lineage : Lineage} {name : String}
    (h : Acc (fun parent child => lineage.HasParent child parent) name) :
    ¬ TransGen lineage.HasParent name name := by
  induction h with
  | intro name _ ih =>
    intro cycle
    obtain ⟨parent, step, rest⟩ := TransGen.head'_iff.mp cycle
    exact ih parent step (.tail' rest step)

/-- The search finds no loop exactly if there is none. -/
theorem firstLoop?_eq_none_iff (lineage : Lineage) :
    lineage.firstLoop? = none ↔ ∀ name, ¬ TransGen lineage.HasParent name name := by
  unfold firstLoop?
  rw [List.findSome?_eq_none_iff]
  constructor
  · intro h name cycle
    obtain ⟨parent, step, -⟩ := TransGen.head'_iff.mp cycle
    have listed : (name, parent) ∈ lineage.parents := by
      obtain ⟨before, after, split, -⟩ := List.lookup_eq_some_iff.mp step
      simp [split]
    exact not_transGen_of_acc (acc_of_loop?_eq_none (h _ listed)) cycle
  · rintro h ⟨child, parent⟩ -
    cases found : lineage.loop? [child] child with
    | none => exact found
    | some chain =>
      obtain ⟨name, cycle⟩ := loop_of_loop?_eq_some (fun name mem => by
        rw [List.mem_singleton.mp mem]) found
      exact absurd cycle (h name)

/-! ## The lineage of a document -/

theorem parent?_parentLinks {doc : Document} {child parent : String} :
    (⟨doc.parentLinks⟩ : Lineage).parent? child = some parent ↔ doc.Extends child parent := by
  rw [parent?, Table.lookup_eq_some_iff doc.nodup_parentLinks, Document.mem_parentLinks_iff]

theorem hasParent_parentLinks (doc : Document) :
    (⟨doc.parentLinks⟩ : Lineage).HasParent = doc.Extends := by
  funext child parent
  exact propext parent?_parentLinks

theorem link_eq_ok_iff {doc : Document} {entry : String × Channel}
    {held : Option (String × String)} :
    link doc entry = .ok held ↔
      (∀ parent, entry.2.parent = some parent → doc.isChannel parent) ∧
        held = Document.parentEntry? entry := by
  unfold link Document.parentEntry?
  cases h : entry.2.parent with
  | none => simpa using eq_comm
  | some parent =>
    by_cases channel : doc.isChannel parent
    · simpa [channel] using eq_comm
    · simp [channel]

theorem mapM_link_eq_ok_iff {doc : Document} {held : List (Option (String × String))} :
    doc.channels.mapM (link doc) = .ok held ↔
      (∀ child parent, doc.Extends child parent → doc.isChannel parent) ∧
        held = doc.channels.map Document.parentEntry? := by
  have each : (∀ child parent, doc.Extends child parent → doc.isChannel parent) ↔
      ∀ entry ∈ doc.channels, ∀ parent, entry.2.parent = some parent → doc.isChannel parent := by
    constructor
    · rintro h ⟨child, channel⟩ mem parent hp
      exact h child parent ⟨channel, Document.mem_channels_iff.mp mem, hp⟩
    · rintro h child parent ⟨channel, found, hp⟩
      exact h (child, channel) (Document.mem_channels_iff.mpr found) parent hp
  rw [mapM_eq_ok_iff, each]
  generalize doc.channels = channels
  induction channels generalizing held with
  | nil => cases held <;> simp
  | cons entry rest ih =>
    cases held with
    | nil => simp
    | cons first others =>
      simp only [List.map_cons, List.cons.injEq, link_eq_ok_iff, ih, List.forall_mem_cons]
      exact and_and_and_comm

/-- The lineage of a document holds the parents of its channels, which are channels and of which
none is its own ancestor. -/
theorem ofDocument_eq_ok_iff {doc : Document} {lineage : Lineage} :
    ofDocument doc = .ok lineage ↔
      (∀ child parent, doc.Extends child parent → doc.isChannel parent) ∧
        (∀ name, ¬ TransGen doc.Extends name name) ∧ lineage = ⟨doc.parentLinks⟩ := by
  unfold ofDocument
  rw [bind_eq_ok_iff]
  simp only [mapM_link_eq_ok_iff]
  rw [← hasParent_parentLinks, ← firstLoop?_eq_none_iff]
  constructor
  · rintro ⟨_, ⟨known, rfl⟩, h⟩
    rw [doc.filterMap_map_parentEntry?] at h
    split at h
    · cases h
    · rename_i endsAll
      cases h
      exact ⟨known, endsAll, rfl⟩
  · rintro ⟨known, endsAll, rfl⟩
    refine ⟨_, ⟨known, rfl⟩, ?_⟩
    rw [doc.filterMap_map_parentEntry?, endsAll]
    rfl

end Lineage

end ChannelProtocol.Schema
