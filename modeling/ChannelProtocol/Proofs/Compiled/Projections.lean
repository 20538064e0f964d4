-- What the projections of a compiled document give for the type of a channel:
-- the type that belongs to the last one declared among the channel and its
-- ancestors.
import ChannelProtocol.Proofs.Compiled.Reordering
import Mathlib.Data.List.Induction

namespace ChannelProtocol

open Relation

/-! ## Generic types -/

namespace TypeScript

/-- An interface names another one as its base. -/
def Module.Extends (file : Module) (name base : String) : Prop :=
  ∃ bases members,
    file.definition? name = some { name, body := .interface bases members } ∧ base ∈ bases

/-- What a type stands for where its parameter stands for the interface `argument`. A condition
holds exactly if the one interface comes to the other through bases. -/
inductive Evaluates (file : Module) (parameter argument : String) : Ty → Ty → Prop
  | keyword (word : Keyword) : Evaluates file parameter argument (.keyword word) (.keyword word)
  | parameter : Evaluates file parameter argument (.ref parameter) (.ref argument)
  | ref {name : String} : name ≠ parameter →
      Evaluates file parameter argument (.ref name) (.ref name)
  | hit {check bound hit miss result : Ty} {name base : String} :
      Evaluates file parameter argument check (.ref name) →
      Evaluates file parameter argument bound (.ref base) →
      ReflTransGen file.Extends name base → Evaluates file parameter argument hit result →
      Evaluates file parameter argument (.conditional check bound hit miss) result
  | miss {check bound hit miss result : Ty} {name base : String} :
      Evaluates file parameter argument check (.ref name) →
      Evaluates file parameter argument bound (.ref base) →
      ¬ ReflTransGen file.Extends name base → Evaluates file parameter argument miss result →
      Evaluates file parameter argument (.conditional check bound hit miss) result

/-- What a generic type gives for an interface. -/
def Module.Applies (file : Module) (title argument : String) (result : Ty) : Prop :=
  ∃ parameter body, file.definition? title = some ⟨title, [parameter], .synonym body⟩ ∧
    Evaluates file parameter argument body result

variable {file : Module} {parameter argument : String} {result : Ty}

theorem evaluates_parameter_iff :
    Evaluates file parameter argument (.ref parameter) result ↔ result = .ref argument := by
  constructor
  · intro evaluates
    cases evaluates with
    | parameter => rfl
    | ref other => exact absurd rfl other
  · rintro rfl
    exact .parameter

theorem evaluates_ref_iff {name : String} (other : name ≠ parameter) :
    Evaluates file parameter argument (.ref name) result ↔ result = .ref name := by
  constructor
  · intro evaluates
    cases evaluates with
    | parameter => exact absurd rfl other
    | ref => rfl
  · rintro rfl
    exact .ref other

/-- A test of the parameter against an interface takes one of the two ways. -/
theorem evaluates_test_iff {bound : String} (other : bound ≠ parameter) {hit miss : Ty} :
    Evaluates file parameter argument (.conditional (.ref parameter) (.ref bound) hit miss)
        result ↔
      (ReflTransGen file.Extends argument bound ∧
        Evaluates file parameter argument hit result) ∨
      (¬ ReflTransGen file.Extends argument bound ∧
        Evaluates file parameter argument miss result) := by
  constructor
  · intro evaluates
    cases evaluates with
    | hit check tested reached evaluates =>
      cases evaluates_parameter_iff.mp check
      cases (evaluates_ref_iff other).mp tested
      exact .inl ⟨reached, evaluates⟩
    | miss check tested apart evaluates =>
      cases evaluates_parameter_iff.mp check
      cases (evaluates_ref_iff other).mp tested
      exact .inr ⟨apart, evaluates⟩
  · rintro (⟨reached, evaluates⟩ | ⟨apart, evaluates⟩)
    · exact .hit .parameter (.ref other) reached evaluates
    · exact .miss .parameter (.ref other) apart evaluates

theorem Module.applies_iff {title : String} {body : Ty}
    (defined : file.definition? title = some ⟨title, [parameter], .synonym body⟩) :
    file.Applies title argument result ↔ Evaluates file parameter argument body result := by
  constructor
  · rintro ⟨parameter, body, found, evaluates⟩
    rw [defined] at found
    cases found
    exact evaluates
  · intro evaluates
    exact ⟨parameter, body, defined, evaluates⟩

end TypeScript

/-! ## The order of declaration -/

namespace Schema

theorem channelTypeName_injective : Function.Injective channelTypeName := by
  intro name other same
  simpa [channelTypeName] using same

theorem channelTypeName_ne_eventTargetName (name other : String) :
    channelTypeName name ≠ eventTargetName other := by
  intro same
  have endings := congrArg ending same
  rw [channelTypeName, eventTargetName, ending_append _ _ (by decide),
    ending_append _ _ (by decide)] at endings
  exact absurd endings (by decide)

namespace Document

/-- An entity is declared before another one. -/
def Before (doc : Document) (first second : String) : Prop :=
  doc.names.idxOf first < doc.names.idxOf second

instance (doc : Document) : DecidableRel doc.Before :=
  fun first second => inferInstanceAs (Decidable (doc.names.idxOf first < doc.names.idxOf second))

/-- The last one declared among a channel and its ancestors. -/
structure LastAncestor (doc : Document) (name last : String) : Prop where
  ancestor : ReflTransGen doc.Extends name last
  latest : ∀ other, ReflTransGen doc.Extends name other → other = last ∨ doc.Before other last

theorem pairwise_before (doc : Document) : doc.names.Pairwise doc.Before := by
  have distinct : doc.names.Nodup := doc.entities.distinct
  rw [List.pairwise_iff_getElem]
  intro i j hi hj less
  unfold Before
  rw [distinct.idxOf_getElem i hi, distinct.idxOf_getElem j hj]
  exact less

/-- The channels are listed in the order of their declaration. -/
theorem channels_pairwise_before (doc : Document) :
    (doc.channels.map Prod.fst).Pairwise doc.Before := by
  refine doc.pairwise_before.sublist (map_fst_filterMap_sublist ?_ _)
  intro entry picked h
  rw [channelEntry?_eq_some h]

theorem Extends.isChannel {doc : Document} {child parent : String}
    (extended : doc.Extends child parent) : doc.isChannel child := by
  obtain ⟨channel, found, -⟩ := extended
  exact Option.isSome_iff_exists.mpr ⟨channel, found⟩

theorem isChannel_of_ancestor {doc : Document}
    (known : ∀ child parent, doc.Extends child parent → doc.isChannel parent)
    {name other : String} (channel : doc.isChannel name)
    (ancestor : ReflTransGen doc.Extends name other) : doc.isChannel other := by
  induction ancestor with
  | refl => exact channel
  | tail _ step _ => exact known _ _ step

/-- Where parents are declared first, so are all ancestors. -/
theorem before_of_ancestor {doc : Document}
    (first : ∀ child parent, doc.Extends child parent → doc.Before parent child)
    {name other : String} (ancestor : ReflTransGen doc.Extends name other) :
    other = name ∨ doc.Before other name := by
  induction ancestor with
  | refl => exact .inl rfl
  | tail _ step ih =>
    have less := first _ _ step
    rcases ih with rfl | earlier
    · exact .inr less
    · exact .inr (Nat.lt_trans less earlier)

theorem LastAncestor.unique {doc : Document} {name last other : String}
    (ancestor : doc.LastAncestor name last) (ancestor' : doc.LastAncestor name other) :
    last = other := by
  rcases ancestor'.latest last ancestor.ancestor with same | earlier
  · exact same
  · rcases ancestor.latest other ancestor'.ancestor with same | later
    · exact same.symm
    · exact absurd earlier (Nat.lt_asymm later)

/-- Every channel is its own last ancestor exactly if parents are declared first. -/
theorem forall_lastAncestor_self_iff {doc : Document}
    (acyclic : ∀ name, ¬ TransGen doc.Extends name name) :
    (∀ name, doc.isChannel name → doc.LastAncestor name name) ↔
      ∀ child parent, doc.Extends child parent → doc.Before parent child := by
  constructor
  · intro own child parent extended
    rcases (own child extended.isChannel).latest parent (.single extended) with rfl | earlier
    · exact absurd (.single extended) (acyclic parent)
    · exact earlier
  · intro first name _
    exact ⟨.refl, fun other ancestor => before_of_ancestor first ancestor⟩

end Document

end Schema

/-! ## The chain of tests -/

namespace Compiled

open Schema TypeScript

namespace Projection

variable {title : String} {typeName : String → String} {fallback : Keyword}

theorem injective (rule : Projection title typeName fallback) : Function.Injective typeName := by
  intro name other same
  cases rule with
  | initializer => simpa [initializerName] using same
  | events => simpa [eventsName] using same
  | eventTarget => simpa [eventTargetName] using same

/-- No type that a projection names is its parameter. -/
theorem ne_parameter (rule : Projection title typeName fallback) (channel : String) :
    typeName channel ≠ "T" ∧ channelTypeName channel ≠ "T" := by
  have apart (suffix : String) (long : 6 ≤ suffix.toList.length)
      (other : ending suffix ≠ ending "T") : channel ++ suffix ≠ "T" := by
    intro same
    rw [← ending_append channel suffix long, same] at other
    exact other rfl
  constructor
  · cases rule with
    | initializer => exact apart _ (by decide) (by decide)
    | events => exact apart _ (by decide) (by decide)
    | eventTarget => exact apart _ (by decide) (by decide)
  · exact apart _ (by decide) (by decide)

end Projection

section

variable {file : Module} {argument title : String} {typeName : String → String}
  {fallback : Keyword} (rule : Projection title typeName fallback)

include rule

/-- The last channel of a chain decides if its type is reached, and the others decide if not. -/
theorem evaluates_projectionTy_concat {channels : List String} {last : String}
    {result : TypeScript.Ty} :
    Evaluates file "T" argument (projectionTy typeName fallback (channels ++ [last])) result ↔
      (ReflTransGen file.Extends argument (channelTypeName last) ∧
        result = .ref (typeName last)) ∨
      (¬ ReflTransGen file.Extends argument (channelTypeName last) ∧
        Evaluates file "T" argument (projectionTy typeName fallback channels) result) := by
  obtain ⟨given, tested⟩ := rule.ne_parameter last
  rw [projectionTy_concat, evaluates_test_iff tested, evaluates_ref_iff given]

/-- A chain over channels in order gives the type of the last one that is reached. -/
theorem evaluates_projectionTy {before : String → String → Prop} {channels : List String}
    (ordered : channels.Pairwise before)
    (reached : ∃ channel ∈ channels,
      ReflTransGen file.Extends argument (channelTypeName channel)) :
    ∃ last ∈ channels, ReflTransGen file.Extends argument (channelTypeName last) ∧
      (∀ other ∈ channels, ReflTransGen file.Extends argument (channelTypeName other) →
        other = last ∨ before other last) ∧
      ∀ result, Evaluates file "T" argument (projectionTy typeName fallback channels) result ↔
        result = .ref (typeName last) := by
  -- The chain tests its last channel first, so the induction is from the end.
  induction channels using List.reverseRecOn with
  | nil => simp at reached
  | append_singleton channels final ih =>
    obtain ⟨ordered, -, earlier⟩ := List.pairwise_append.mp ordered
    by_cases holds : ReflTransGen file.Extends argument (channelTypeName final)
    · refine ⟨final, by simp, holds, fun other mem _ => ?_, fun result => ?_⟩
      · rcases List.mem_append.mp mem with mem | mem
        · exact .inr (earlier other mem final (by simp))
        · exact .inl (List.mem_singleton.mp mem)
      · simp [evaluates_projectionTy_concat rule, holds]
    · have rest {channel : String} (mem : channel ∈ channels ++ [final])
          (h : ReflTransGen file.Extends argument (channelTypeName channel)) :
          channel ∈ channels := by
        rcases List.mem_append.mp mem with mem | mem
        · exact mem
        · rw [List.mem_singleton.mp mem] at h
          exact absurd h holds
      obtain ⟨channel, mem, h⟩ := reached
      obtain ⟨last, listed, found, latest, gives⟩ := ih ordered ⟨channel, rest mem h, h⟩
      refine ⟨last, List.mem_append_left _ listed, found, fun other mem h => ?_, fun result => ?_⟩
      · exact latest other (rest mem h) h
      · simp [evaluates_projectionTy_concat rule, holds, gives]

end

/-! ## The interfaces of channels -/

section

variable {doc : Document} {schemaName : String} {compiled : Compiled}
  (built : ofDocument doc schemaName = .ok compiled)

include built

theorem extends_of_declares {name base : String} {bases : List String} {members : List Member}
    {origin : Origin} (declared : Declares doc (interface name bases members origin)) :
    compiled.declarations.Extends name base ↔ base ∈ bases := by
  have defined := definition?_of_declares built declared
  constructor
  · rintro ⟨bases', members', found, mem⟩
    have same := found.symm.trans defined
    cases same
    exact mem
  · intro mem
    exact ⟨bases, members, defined, mem⟩

/-- What extends nothing comes only to itself. -/
theorem eq_of_reached_of_declares {name other : String} {members : List Member} {origin : Origin}
    (declared : Declares doc (interface name [] members origin))
    (reached : ReflTransGen compiled.declarations.Extends name other) : other = name := by
  rcases ReflTransGen.cases_head reached with rfl | ⟨base, step, -⟩
  · rfl
  · simpa using (extends_of_declares built declared).mp step

/-- A path of bases between the types of two channels goes through the types of ancestors. -/
theorem ancestor_of_reached {start other : String} (known : doc.isChannel other)
    (reached : ReflTransGen compiled.declarations.Extends start (channelTypeName other)) :
    ∀ name, doc.isChannel name → start = channelTypeName name →
      ReflTransGen doc.Extends name other := by
  obtain ⟨target, located⟩ := Option.isSome_iff_exists.mp known
  induction reached using ReflTransGen.head_induction_on with
  | refl =>
    intro name _ same
    rw [channelTypeName_injective same]
  | head step rest ih =>
    rintro name channel rfl
    obtain ⟨definition, found⟩ := Option.isSome_iff_exists.mp channel
    have base := (extends_of_declares built (.channel found)).mp step
    simp only [List.mem_cons, List.not_mem_nil, or_false] at base
    rcases base with rfl | base
    · -- An event target extends nothing, and is no channel's type.
      exact absurd (eq_of_reached_of_declares built (.eventTarget found) rest)
        (channelTypeName_ne_eventTargetName other name)
    · unfold baseName at base
      split at base
      · rename_i parent h
        have extended := Lineage.parent?_parentLinks.mp h
        have further := ih parent ((ancestry_of_ofDocument built).1 _ _ extended) base
        exact .head extended further
      · rw [base] at rest
        exact absurd (eq_of_reached_of_declares built .anyChannel rest)
          (channelTypeName_ne built located)

/-- The type of a channel comes to that of another one exactly if this is an ancestor. -/
theorem reached_iff_ancestor {name other : String} (channel : doc.isChannel name)
    (known : doc.isChannel other) :
    ReflTransGen compiled.declarations.Extends (channelTypeName name) (channelTypeName other) ↔
      ReflTransGen doc.Extends name other := by
  constructor
  · intro reached
    exact ancestor_of_reached built known reached name channel rfl
  · refine ReflTransGen.lift channelTypeName ?_ name other
    rintro child parent ⟨definition, found, extended⟩
    refine (extends_of_declares built (.channel found)).mpr ?_
    have parent? := Lineage.parent?_parentLinks.mpr ⟨definition, found, extended⟩
    simp [baseName, parent?]

/-! ## What the projections give -/

/-- A projection gives the type that belongs to the last ancestor. -/
theorem applies_projection {title : String} {typeName : String → String} {fallback : Keyword}
    (rule : Projection title typeName fallback) {name : String} (channel : doc.isChannel name) :
    ∃ last, doc.LastAncestor name last ∧
      ∀ result, compiled.declarations.Applies title (channelTypeName name) result ↔
        result = .ref (typeName last) := by
  have known := (ancestry_of_ofDocument built).1
  have listed (other : String) : other ∈ doc.channels.map Prod.fst ↔ doc.isChannel other := by
    simp [Document.mem_channels_iff, Document.isChannel, Option.isSome_iff_exists]
  have start : ∃ other ∈ doc.channels.map Prod.fst,
      ReflTransGen compiled.declarations.Extends (channelTypeName name) (channelTypeName other) :=
    ⟨name, (listed name).mpr channel, .refl⟩
  obtain ⟨last, mem, reached, latest, gives⟩ :=
    evaluates_projectionTy rule doc.channels_pairwise_before start
  refine ⟨last, ⟨?_, fun other ancestor => ?_⟩, fun result => ?_⟩
  · exact (reached_iff_ancestor built channel ((listed last).mp mem)).mp reached
  · have other? := Document.isChannel_of_ancestor known channel ancestor
    exact latest other ((listed other).mpr other?)
      ((reached_iff_ancestor built channel other?).mpr ancestor)
  · rw [Module.applies_iff (definition?_projection built rule), gives]

theorem applies_own_iff {title : String} {typeName : String → String} {fallback : Keyword}
    (rule : Projection title typeName fallback) {name : String} (channel : doc.isChannel name) :
    compiled.declarations.Applies title (channelTypeName name) (.ref (typeName name)) ↔
      doc.LastAncestor name name := by
  obtain ⟨last, ancestor, gives⟩ := applies_projection built rule channel
  rw [gives, TypeScript.Ty.ref.injEq, rule.injective.eq_iff]
  constructor
  · rintro rfl
    exact ancestor
  · intro own
    exact own.unique ancestor

end

/-- A projection gives, for the type of a channel, the one that belongs to the last one declared
among the channel and its ancestors. So it gives what belongs to the channel itself, for all of
them, exactly if parents are declared first. -/
theorem projection_gives_last_ancestor {doc : Document} {schemaName : String}
    {compiled : Compiled} (built : ofDocument doc schemaName = .ok compiled) {title : String}
    {typeName : String → String} {fallback : Keyword}
    (rule : Projection title typeName fallback) :
    (∀ name, doc.isChannel name → ∃ last, doc.LastAncestor name last ∧
      ∀ result, compiled.declarations.Applies title (channelTypeName name) result ↔
        result = .ref (typeName last)) ∧
    ((∀ name, doc.isChannel name →
        compiled.declarations.Applies title (channelTypeName name) (.ref (typeName name))) ↔
      ∀ child parent, doc.Extends child parent → doc.Before parent child) := by
  constructor
  · intro name channel
    exact applies_projection built rule channel
  · rw [← Document.forall_lastAncestor_self_iff (ancestry_of_ofDocument built).2]
    exact forall_congr' fun name => imp_congr_right (applies_own_iff built rule)

/-- The page comes to itself and to the node. -/
theorem page_or_node_of_ancestor {other : String}
    (ancestor : ReflTransGen pageDocument.Extends "Page" other) :
    other = "Page" ∨ other = "Node" := by
  induction ancestor with
  | refl => exact .inl rfl
  | tail _ step _ => exact .inr (page_node_of_extends step).2

theorem page_extends_node : pageDocument.Extends "Page" "Node" :=
  ⟨_, rfl, rfl⟩

/-- A page that is declared after its node has an initializer of its own. If it is declared
before, the initializer of the node takes its place. -/
theorem page_projections_by_order :
    ∃ compiled reversed, ofDocument pageDocument "protocol.yml" = .ok compiled ∧
      ofDocument reversedPageDocument "protocol.yml" = .ok reversed ∧
      (∀ result, compiled.declarations.Applies "InitializerTraits" (channelTypeName "Page")
        result ↔ result = .ref (initializerName "Page")) ∧
      (∀ result, reversed.declarations.Applies "InitializerTraits" (channelTypeName "Page")
        result ↔ result = .ref (initializerName "Node")) ∧
      ∀ name, pageDocument.isChannel name → compiled.declarations.Applies "InitializerTraits"
        (channelTypeName name) (.ref (initializerName name)) := by
  obtain ⟨compiled, built⟩ := pageDocument_compiles
  obtain ⟨reversed, built'⟩ :=
    (succeeds_ofDocument_reordered reversedPageDocument_reordered).mp pageDocument_compiles
  obtain ⟨each, own⟩ := projection_gives_last_ancestor built .initializer
  obtain ⟨each', -⟩ := projection_gives_last_ancestor built' .initializer
  refine ⟨compiled, reversed, built, built', ?_, ?_, own.mpr ?_⟩
  · obtain ⟨last, ⟨ancestor, latest⟩, gives⟩ := each "Page" rfl
    rcases page_or_node_of_ancestor ancestor with rfl | rfl
    · exact gives
    · rcases latest "Page" .refl with same | before
      · exact absurd same (by decide)
      · exact absurd before (by decide)
  · obtain ⟨last, ⟨ancestor, latest⟩, gives⟩ := each' "Page" rfl
    rw [← reversedPageDocument_reordered.extends] at ancestor latest
    rcases page_or_node_of_ancestor ancestor with rfl | rfl
    · rcases latest "Node" (.single page_extends_node) with same | before
      · exact absurd same (by decide)
      · exact absurd before (by decide)
    · exact gives
  · intro child parent extended
    obtain ⟨rfl, rfl⟩ := page_node_of_extends extended
    decide

end Compiled

end ChannelProtocol
