-- The lineage of a document, exactly: which parents and children it holds, and
-- what it says of a document that has none. Parents that are no channels come
-- first, then loops, of which it tells only the part that goes round.
import ChannelProtocol.Proofs.Schema.Ancestry
import Mathlib.Data.List.Chain
import Mathlib.Data.List.Nodup

namespace ChannelProtocol.Schema

open Relation

namespace Lineage

variable {doc : Document} {lineage : Lineage} {path chain : List String} {current parent : String}

/-! ## Children -/

/-- The channels that name this parent, in the order of the document. -/
def declaredChildren (doc : Document) (parent : String) : List String :=
  (doc.channels.filter fun entry => entry.2.parent = some parent).map Prod.fst

theorem children_parentLinks (doc : Document) (parent : String) :
    (⟨doc.parentLinks⟩ : Lineage).children parent = declaredChildren doc parent := by
  unfold children declaredChildren Document.parentLinks
  generalize doc.channels = channels
  induction channels with
  | nil => rfl
  | cons entry rest ih =>
    obtain ⟨name, channel⟩ := entry
    cases h : channel.parent with
    | none => simpa [Document.parentEntry?, h] using ih
    | some other =>
      by_cases same : other = parent
      · simpa [Document.parentEntry?, h, same] using ih
      · simpa [Document.parentEntry?, h, same] using ih

theorem nodup_declaredChildren (doc : Document) (parent : String) :
    (declaredChildren doc parent).Nodup :=
  doc.nodup_channels.sublist (List.filter_sublist.map Prod.fst)

/-! ## Loops -/

/-- A chain that ends where it starts, over distinct names, each in relation to the next. -/
def GoesRound (step : String → String → Prop) (chain : List String) : Prop :=
  ∃ first later, chain = first :: later ++ [first] ∧ (first :: later).Nodup ∧ chain.IsChain step

/-- The way of a walk: from child to parent, over distinct channels, up to the current one. -/
structure Walked (lineage : Lineage) (path : List String) (current : String) : Prop where
  linked : path.IsChain lineage.HasParent
  last : path.getLast? = some current
  distinct : path.Nodup

theorem Walked.start (lineage : Lineage) (child : String) : lineage.Walked [child] child :=
  ⟨.singleton child, rfl, by simp⟩

theorem Walked.linked_concat (walked : lineage.Walked path current)
    (found : lineage.parent? current = some parent) :
    (path ++ [parent]).IsChain lineage.HasParent := by
  refine walked.linked.append (.singleton parent) fun last mem next head => ?_
  rw [walked.last, Option.mem_some] at mem
  cases head
  exact mem ▸ found

theorem Walked.step (walked : lineage.Walked path current)
    (found : lineage.parent? current = some parent) (fresh : parent ∉ path) :
    lineage.Walked (path ++ [parent]) parent :=
  ⟨walked.linked_concat found, by simp, by simpa using walked.distinct.concat fresh⟩

/-- Where the next parent is on the path already, the rest of the path from there on goes round. -/
theorem Walked.goesRound (walked : lineage.Walked path current)
    (found : lineage.parent? current = some parent) (used : parent ∈ path) :
    GoesRound lineage.HasParent (path.dropWhile (· != parent) ++ [parent]) := by
  obtain ⟨before, later, rfl, fresh⟩ := List.eq_append_cons_of_mem used
  have passed : ∀ name ∈ before, (name != parent) = true := by
    intro name mem
    simpa using ne_of_mem_of_not_mem mem fresh
  have rest : (before ++ parent :: later).dropWhile (· != parent) = parent :: later := by
    rw [List.dropWhile_append_of_pos passed]
    simp
  have linked := walked.linked_concat found
  rw [rest]
  refine ⟨parent, later, rfl, walked.distinct.sublist (List.sublist_append_right _ _), ?_⟩
  rw [List.append_assoc] at linked
  exact linked.suffix (List.suffix_append _ _)

theorem goesRound_of_loop? (walked : lineage.Walked path current)
    (h : lineage.loop? path current = some chain) : GoesRound lineage.HasParent chain := by
  fun_induction Lineage.loop? lineage path current with
  | case1 => cases h
  | case2 path current parent found used =>
    cases h
    exact walked.goesRound found used
  | case3 path current parent found fresh smaller ih => exact ih (walked.step found fresh) h

theorem goesRound_of_firstLoop? (h : lineage.firstLoop? = some chain) :
    GoesRound lineage.HasParent chain := by
  obtain ⟨link, -, found⟩ := List.exists_of_findSome?_eq_some h
  exact goesRound_of_loop? (.start lineage link.1) found

/-! ## Documents without a lineage -/

/-- The first channel in the order of the document whose parent is no channel. -/
def FirstMisled (doc : Document) (child parent : String) : Prop :=
  ∃ before channel after, doc.channels = before ++ (child, channel) :: after ∧
    channel.parent = some parent ∧ ¬ doc.isChannel parent ∧
    ∀ entry ∈ before, ∀ other, entry.2.parent = some other → doc.isChannel other

theorem succeeds_link_iff {entry : String × Channel} :
    Succeeds (link doc entry) ↔ ∀ parent, entry.2.parent = some parent → doc.isChannel parent := by
  simp [Succeeds, link_eq_ok_iff]

theorem link_eq_error_iff {entry : String × Channel} {error : Error} :
    link doc entry = .error error ↔ ∃ parent, entry.2.parent = some parent ∧
      ¬ doc.isChannel parent ∧
      error = .unknownReference parent (.member (.named entry.1) "extends") := by
  unfold link
  cases h : entry.2.parent with
  | none => simp
  | some parent =>
    by_cases channel : doc.isChannel parent
    · simp [channel]
    · simpa [channel] using eq_comm

theorem mapM_link_eq_error_iff {error : Error} :
    doc.channels.mapM (link doc) = .error error ↔
      ∃ child parent, FirstMisled doc child parent ∧
        error = .unknownReference parent (.member (.named child) "extends") := by
  rw [mapM_eq_error_iff]
  simp only [succeeds_link_iff, link_eq_error_iff]
  constructor
  · rintro ⟨before, ⟨child, channel⟩, after, split, all, parent, extended, other, rfl⟩
    exact ⟨child, parent, ⟨before, channel, after, split, extended, other, all⟩, rfl⟩
  · rintro ⟨child, parent, ⟨before, channel, after, split, extended, other, all⟩, rfl⟩
    exact ⟨before, (child, channel), after, split, all, parent, extended, other, rfl⟩

/-- A document has no lineage because of a parent that is no channel, or else because of a loop. -/
theorem ofDocument_eq_error_iff {error : Error} :
    ofDocument doc = .error error ↔
      (∃ child parent, FirstMisled doc child parent ∧
        error = .unknownReference parent (.member (.named child) "extends")) ∨
      (∀ child parent, doc.Extends child parent → doc.isChannel parent) ∧
        ∃ chain, (⟨doc.parentLinks⟩ : Lineage).firstLoop? = some chain ∧
          error = .inheritanceCycle chain := by
  unfold ofDocument
  rw [bind_eq_error_iff, mapM_link_eq_error_iff]
  refine or_congr_right ?_
  simp only [mapM_link_eq_ok_iff]
  constructor
  · rintro ⟨_, ⟨known, rfl⟩, failed⟩
    rw [doc.filterMap_map_parentEntry?] at failed
    split at failed
    · rename_i chain found
      cases failed
      exact ⟨known, chain, found, rfl⟩
    · cases failed
  · rintro ⟨known, chain, found, rfl⟩
    refine ⟨_, ⟨known, rfl⟩, ?_⟩
    rw [doc.filterMap_map_parentEntry?, found]

/-- A document has a lineage exactly if every parent is a channel and no channel is its own
ancestor. The lineage then has the parents as they are declared, and the children of each channel
in the order of the document. A loop is told without the way into it. A parent that is no channel
is told before any loop, and for the first channel that has one. -/
theorem ofDocument_exact (doc : Document) :
    (Succeeds (ofDocument doc) ↔
      (∀ child parent, doc.Extends child parent → doc.isChannel parent) ∧
        ∀ name, ¬ TransGen doc.Extends name name) ∧
    (∀ lineage, ofDocument doc = .ok lineage →
      (∀ child parent, lineage.parent? child = some parent ↔ doc.Extends child parent) ∧
      ∀ parent, lineage.children parent = declaredChildren doc parent ∧
        (lineage.children parent).Nodup) ∧
    (∀ chain, ofDocument doc = .error (.inheritanceCycle chain) → GoesRound doc.Extends chain) ∧
    ((∃ child parent, doc.Extends child parent ∧ ¬ doc.isChannel parent) →
      ∃ name place, ofDocument doc = .error (.unknownReference name place)) ∧
    (∀ name place, ofDocument doc = .error (.unknownReference name place) →
      ∃ child, FirstMisled doc child name ∧ place = .member (.named child) "extends") ∧
    (Succeeds (ofDocument doc) ∨ (∃ chain, ofDocument doc = .error (.inheritanceCycle chain)) ∨
      ∃ name place, ofDocument doc = .error (.unknownReference name place)) := by
  refine ⟨?_, fun lineage built => ?_, fun chain failed => ?_, ?_, fun name place failed => ?_, ?_⟩
  · simp only [Succeeds, ofDocument_eq_ok_iff, exists_and_left, exists_eq, and_true]
  · obtain ⟨-, -, rfl⟩ := ofDocument_eq_ok_iff.mp built
    refine ⟨fun child parent => parent?_parentLinks, fun parent => ?_⟩
    rw [children_parentLinks]
    exact ⟨rfl, nodup_declaredChildren doc parent⟩
  · rcases ofDocument_eq_error_iff.mp failed with ⟨child, parent, -, other⟩ | ⟨-, _, found, same⟩
    · cases other
    · cases same
      rw [← hasParent_parentLinks]
      exact goesRound_of_firstLoop? found
  · rintro ⟨child, parent, extended, other⟩
    cases outcome : ofDocument doc with
    | ok lineage => exact absurd ((ofDocument_eq_ok_iff.mp outcome).1 child parent extended) other
    | error error =>
      rcases ofDocument_eq_error_iff.mp outcome with ⟨_, name, -, rfl⟩ | ⟨known, -⟩
      · exact ⟨name, _, rfl⟩
      · exact absurd (known child parent extended) other
  · rcases ofDocument_eq_error_iff.mp failed with ⟨child, parent, first, same⟩ | ⟨-, _, -, other⟩
    · cases same
      exact ⟨child, first, rfl⟩
    · cases other
  · cases outcome : ofDocument doc with
    | ok lineage => exact .inl (succeeds_ok lineage)
    | error error =>
      rcases ofDocument_eq_error_iff.mp outcome with ⟨_, name, -, rfl⟩ | ⟨-, chain, -, rfl⟩
      · exact .inr (.inr ⟨name, _, rfl⟩)
      · exact .inr (.inl ⟨chain, rfl⟩)

/-- Channels without members, with these parents. -/
def family (parents : List (String × Option String)) (distinct : (parents.map Prod.fst).Nodup) :
    Document where
  entities := {
    entries := parents.map fun (name, parent) =>
      (name, .channel { parent, initializer := [], commands := .empty, events := .empty })
    distinct := by simpa [Function.comp_def] using distinct }

/-- Two generations. -/
def treeFamily : Document :=
  family [("Node", none), ("Page", some "Node"), ("Popup", some "Page"), ("Frame", some "Node")]
    (by decide)

/-- A loop that is reached from outside. -/
def loopFamily : Document :=
  family [("Popup", some "Page"), ("Page", some "Frame"), ("Frame", some "Page")] (by decide)

/-- A loop, and two channels whose parents are missing. -/
def mislaidFamily : Document :=
  family [("Page", some "Frame"), ("Frame", some "Page"), ("Popup", some "Window"),
    ("Tab", some "Bar")] (by decide)

theorem families_told :
    (∃ lineage, ofDocument treeFamily = .ok lineage ∧ lineage.parent? "Popup" = some "Page" ∧
      lineage.children "Node" = ["Page", "Frame"]) ∧
    (ofDocument loopFamily = .error (.inheritanceCycle ["Page", "Frame", "Page"]) ∧
      GoesRound loopFamily.Extends ["Page", "Frame", "Page"]) ∧
    (ofDocument mislaidFamily =
        .error (.unknownReference "Window" (.member (.named "Popup") "extends")) ∧
      FirstMisled mislaidFamily "Popup" "Window") := by
  refine ⟨?_, ?_, ?_⟩
  · have known := (mapM_link_eq_ok_iff.mp (rfl : treeFamily.channels.mapM (link _) = .ok _)).1
    have acyclic : ∀ name, ¬ TransGen treeFamily.Extends name name := by
      rw [← hasParent_parentLinks, ← firstLoop?_eq_none_iff]
      decide +kernel
    obtain ⟨lineage, built⟩ := (ofDocument_exact treeFamily).1.mpr ⟨known, acyclic⟩
    obtain ⟨parents, children⟩ := (ofDocument_exact treeFamily).2.1 lineage built
    exact ⟨lineage, built, (parents ..).mpr ⟨_, rfl, rfl⟩, (children "Node").1⟩
  · have known := (mapM_link_eq_ok_iff.mp (rfl : loopFamily.channels.mapM (link _) = .ok _)).1
    have failed : ofDocument loopFamily = .error (.inheritanceCycle ["Page", "Frame", "Page"]) :=
      ofDocument_eq_error_iff.mpr (.inr ⟨known, _, by decide +kernel, rfl⟩)
    exact ⟨failed, (ofDocument_exact loopFamily).2.2.1 _ failed⟩
  · have failed : ofDocument mislaidFamily =
        .error (.unknownReference "Window" (.member (.named "Popup") "extends")) := rfl
    obtain ⟨child, first, same⟩ := (ofDocument_exact mislaidFamily).2.2.2.2.1 _ _ failed
    cases same
    exact ⟨failed, first⟩

end Lineage

end ChannelProtocol.Schema
