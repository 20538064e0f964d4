-- Which commands are known as traced. A flag of a command reaches the direct children
-- of its channel and nobody else, and one flag does not matter to the other.
import ChannelProtocol.Proofs.Schema.Classification
import ChannelProtocol.Proofs.Schema.Lineages
import ChannelProtocol.Proofs.TypeScript.Literals
import ChannelProtocol.Schema.Lineage

namespace ChannelProtocol

def Table.mapValues {α β : Type} (change : String → α → β) (table : Table α) : Table β where
  entries := table.entries.map fun entry => (entry.1, change entry.1 entry.2)
  distinct := by simpa [Function.comp_def] using table.distinct

namespace Schema

open TypeScript (isIdentifier isIdentifierPart)

variable {doc : Document} {flag : Tracing → Bool}

/-! ## Names of commands -/

/-- The name of a command tells both of its parts. That of the channel may have dots in it, but
that of the command has none, so that the last dot is where they meet. -/
theorem commandName_inj {channel other command word : String} (hc : isIdentifier command)
    (hw : isIdentifier word) (h : commandName channel command = commandName other word) :
    channel = other ∧ command = word := by
  have chars := congrArg (fun name => name.toList.reverse) h
  simp only [commandName, String.toList_append, List.reverse_append, List.append_assoc] at chars
  have parts {name : String} (hn : isIdentifier name) (c : Char)
      (mem : c ∈ name.toList.reverse) : isIdentifierPart c :=
    TypeScript.isIdentifierPart_of_mem hn (List.mem_reverse.mp mem)
  have dot (rest : List Char) : ((".".toList.reverse ++ rest).head?.any isIdentifierPart) = false :=
    rfl
  obtain ⟨last, first⟩ :=
    TypeScript.word_append_inj (parts hc) (parts hw) (dot _) (dot _) chars
  rw [List.append_cancel_left_eq, List.reverse_inj, String.toList_inj] at first
  rw [List.reverse_inj, String.toList_inj] at last
  exact ⟨first, last⟩

/-! ## Who is known under a flag -/

/-- A channel declares a command with a flag. -/
def DeclaresFlagged (doc : Document) (flag : Tracing → Bool) (channel command : String) : Prop :=
  ∃ definition body, doc.channel? channel = some definition ∧
    definition.commands.get? command = some body ∧ flag body.tracing

/-- A channel declares a command with a flag, or its parent does. -/
def Flagged (doc : Document) (flag : Tracing → Bool) (channel command : String) : Prop :=
  DeclaresFlagged doc flag channel command ∨
    ∃ parent, doc.Extends channel parent ∧ DeclaresFlagged doc flag parent command

theorem mem_declaredChildren_iff {child parent : String} :
    child ∈ Lineage.declaredChildren doc parent ↔ doc.Extends child parent := by
  simp only [Lineage.declaredChildren, List.mem_map, List.mem_filter, decide_eq_true_eq,
    Prod.exists, exists_and_right, exists_eq_right, Document.mem_channels_iff, Document.Extends]

theorem mem_flaggedNames_iff {channel command name : String} :
    name ∈ flaggedNames ⟨doc.parentLinks⟩ channel command ↔
      ∃ owner, (owner = channel ∨ doc.Extends owner channel) ∧ name = commandName owner command := by
  simp only [flaggedNames, List.mem_cons, List.mem_map, Lineage.children_parentLinks,
    mem_declaredChildren_iff]
  constructor
  · rintro (rfl | ⟨child, extended, rfl⟩)
    · exact ⟨channel, .inl rfl, rfl⟩
    · exact ⟨child, .inr extended, rfl⟩
  · rintro ⟨owner, rfl | extended, rfl⟩
    · exact .inl rfl
    · exact .inr ⟨owner, extended, rfl⟩

theorem mem_flagged_iff {name : String} :
    name ∈ flagged doc ⟨doc.parentLinks⟩ flag ↔
      ∃ channel command, Flagged doc flag channel command ∧ name = commandName channel command := by
  have declared (channel command : String) :
      DeclaresFlagged doc flag channel command ↔
        ∃ definition body, (channel, definition) ∈ doc.channels ∧
          (command, body) ∈ definition.commands.entries ∧ flag body.tracing := by
    simp only [DeclaresFlagged, Document.mem_channels_iff, Table.get?_eq_some_iff]
  simp only [flagged, List.mem_flatMap, Prod.exists, Flagged, declared]
  constructor
  · rintro ⟨channel, definition, held, command, body, listed, mem⟩
    split at mem
    · rename_i on
      obtain ⟨owner, which, rfl⟩ := mem_flaggedNames_iff.mp mem
      refine ⟨owner, command, ?_, rfl⟩
      rcases which with rfl | extended
      · exact .inl ⟨definition, body, held, listed, on⟩
      · exact .inr ⟨channel, extended, definition, body, held, listed, on⟩
    · cases mem
  · rintro ⟨owner, command, which, rfl⟩
    rcases which with ⟨definition, body, held, listed, on⟩ |
      ⟨channel, extended, definition, body, held, listed, on⟩
    · refine ⟨owner, definition, held, command, body, listed, ?_⟩
      rw [if_pos on]
      exact mem_flaggedNames_iff.mpr ⟨owner, .inl rfl, rfl⟩
    · refine ⟨channel, definition, held, command, body, listed, ?_⟩
      rw [if_pos on]
      exact mem_flaggedNames_iff.mpr ⟨owner, .inr extended, rfl⟩

theorem isIdentifier_of_flagged (members : MembersNamed doc) {channel command : String}
    (h : Flagged doc flag channel command) : isIdentifier command := by
  have declared {owner : String} (h : DeclaresFlagged doc flag owner command) :
      isIdentifier command := by
    obtain ⟨definition, body, found, held, -⟩ := h
    refine (members owner definition found).2 command ?_
    exact (Table.contains_iff ..).mp (Option.isSome_iff_exists.mpr ⟨body, held⟩)
  rcases h with own | ⟨parent, -, inherited⟩
  · exact declared own
  · exact declared inherited

/-- A list of names is that of the commands with a flag: it has the name of a command exactly if
the channel or its parent declares the command with the flag, and it has no other names. -/
def ListsFlagged (doc : Document) (flag : Tracing → Bool) (names : List String) : Prop :=
  (∀ channel command, isIdentifier command →
    (commandName channel command ∈ names ↔ Flagged doc flag channel command)) ∧
  ∀ name ∈ names, ∃ channel command, doc.isChannel channel ∧ isIdentifier command ∧
    name = commandName channel command

theorem listsFlagged (members : MembersNamed doc) :
    ListsFlagged doc flag (flagged doc ⟨doc.parentLinks⟩ flag) := by
  constructor
  · intro channel command named
    rw [mem_flagged_iff]
    constructor
    · rintro ⟨owner, word, which, same⟩
      obtain ⟨rfl, rfl⟩ := commandName_inj named (isIdentifier_of_flagged members which) same
      exact which
    · intro which
      exact ⟨channel, command, which, rfl⟩
  · intro name mem
    obtain ⟨channel, command, which, rfl⟩ := mem_flagged_iff.mp mem
    refine ⟨channel, command, ?_, isIdentifier_of_flagged members which, rfl⟩
    rcases which with ⟨definition, -, found, -⟩ | ⟨-, ⟨definition, found, -⟩, -⟩
    · exact Option.isSome_iff_exists.mpr ⟨definition, found⟩
    · exact Option.isSome_iff_exists.mpr ⟨definition, found⟩

/-! ## Changing flags -/

/-- The channel with the tracing of its commands changed. -/
def Channel.retrace (change : String → Tracing → Tracing) (channel : Channel) : Channel :=
  { channel with commands := channel.commands.mapValues fun command body =>
      { body with tracing := change command body.tracing } }

def Entity.retrace (change : String → Tracing → Tracing) : Entity → Entity
  | .channel definition => .channel (definition.retrace change)
  | entity => entity

namespace Document

def retrace (doc : Document) (change : String → String → Tracing → Tracing) : Document where
  entities := doc.entities.mapValues fun name entity => entity.retrace (change name)

def withSnapshots (doc : Document) (choice : String → String → Bool) : Document :=
  doc.retrace fun channel command tracing => { tracing with snapshot := choice channel command }

def withPauses (doc : Document) (choice : String → String → Bool) : Document :=
  doc.retrace fun channel command tracing =>
    { tracing with pausesBeforeInput := choice channel command }

variable {change : String → String → Tracing → Tracing}

theorem channels_retrace :
    (doc.retrace change).channels =
      doc.channels.map fun entry => (entry.1, entry.2.retrace (change entry.1)) := by
  unfold channels retrace Table.mapValues
  rw [List.filterMap_map, List.map_filterMap]
  congr
  funext entry
  obtain ⟨name, entity⟩ := entry
  cases entity <;> rfl

theorem isChannel_retrace (name : String) :
    (doc.retrace change).isChannel name = doc.isChannel name := by
  have known (doc : Document) : doc.isChannel name ↔ name ∈ doc.channels.map Prod.fst := by
    simp [isChannel, Option.isSome_iff_exists, mem_channels_iff]
  rw [Bool.eq_iff_iff, known, known, channels_retrace, List.map_map]
  rfl

end Document

/-- A flag that is not changed is known for the same commands, in the same order. -/
theorem flagged_retrace {change : String → String → Tracing → Tracing}
    (kept : ∀ channel command tracing, flag (change channel command tracing) = flag tracing)
    (lineage : Lineage) : flagged (doc.retrace change) lineage flag = flagged doc lineage flag := by
  unfold flagged
  rw [Document.channels_retrace, List.flatMap_map]
  congr
  funext entry
  simp only [Channel.retrace, Table.mapValues, List.flatMap_map, kept]

/-- Flags do not matter to who is derived from whom. -/
theorem Lineage.ofDocument_retrace (doc : Document)
    (change : String → String → Tracing → Tracing) :
    ofDocument (doc.retrace change) = ofDocument doc := by
  have same (entry : String × Channel) :
      link (doc.retrace change) (entry.1, entry.2.retrace (change entry.1)) = link doc entry := by
    unfold link
    simp only [Channel.retrace, Document.isChannel_retrace]
  unfold ofDocument
  rw [Document.channels_retrace, List.mapM_map]
  simp only [Function.comp_def, same]

/-- Flags go one level down. A list of traced commands has the name of a command exactly if the
channel or its direct parent declares the command with the flag, also if the channel declares it
once more without, and it has no other names. Changing one of the flags anywhere leaves the
commands known for the other one as they are. -/
theorem flags_reach_children {source : String} {doc : Document} {lineage : Lineage}
    (read : Document.read source = .ok doc) (built : Lineage.ofDocument doc = .ok lineage) :
    ListsFlagged doc Tracing.snapshot (snapshots doc lineage) ∧
    ListsFlagged doc Tracing.pausesBeforeInput (pauses doc lineage) ∧
    ∀ choice,
      (Lineage.ofDocument (doc.withPauses choice) = .ok lineage ∧
        snapshots (doc.withPauses choice) lineage = snapshots doc lineage) ∧
      (Lineage.ofDocument (doc.withSnapshots choice) = .ok lineage ∧
        pauses (doc.withSnapshots choice) lineage = pauses doc lineage) := by
  have members : MembersNamed doc := by
    unfold Document.read at read
    split at read
    · exact membersNamed_of_read read
    · cases read
  obtain ⟨-, -, rfl⟩ := Lineage.ofDocument_eq_ok_iff.mp built
  refine ⟨listsFlagged members, listsFlagged members, fun choice => ⟨⟨?_, ?_⟩, ?_, ?_⟩⟩
  · rw [Document.withPauses, Lineage.ofDocument_retrace, built]
  · unfold snapshots Document.withPauses
    apply flagged_retrace
    intros
    rfl
  · rw [Document.withSnapshots, Lineage.ofDocument_retrace, built]
  · unfold pauses Document.withSnapshots
    apply flagged_retrace
    intros
    rfl

/-- Three generations, the last one first. The one in the middle has a dot in its name, and
declares the command once more, with the other flag. -/
def generationsLines : List String := [
  "Tab: {type: channel, extends: Page.x}\n",
  "Page.x:\n", " type: channel\n", " extends: Page\n", " commands:\n", "  go:\n",
  "   tracing: {pausesBeforeInput: true}\n",
  "Page:\n", " type: channel\n", " commands:\n", "  go:\n", "   tracing: {snapshot: true}\n"]

/-- A source is read by its characters, which are those of the lines. -/
theorem told_generations {source : String}
    (chars : source.toList = generationsLines.flatMap String.toList) :
    (do
      let doc ← Document.read source
      let lineage ← Lineage.ofDocument doc
      return (snapshots doc lineage, pauses doc lineage)) =
        .ok (["Page.go", "Page.x.go"], ["Page.x.go", "Tab.go"]) := by
  unfold Document.read Yaml.read Yaml.tokens
  rw [chars]
  decide +kernel

theorem generations_flagged :
    ∃ doc lineage, Document.read (String.join generationsLines) = .ok doc ∧
      Lineage.ofDocument doc = .ok lineage ∧
      Flagged doc Tracing.snapshot "Page.x" "go" ∧
      ¬ Flagged doc Tracing.snapshot "Tab" "go" ∧
      Flagged doc Tracing.pausesBeforeInput "Tab" "go" ∧
      ¬ Flagged doc Tracing.pausesBeforeInput "Page" "go" := by
  have told := told_generations String.toList_join
  obtain ⟨doc, read, told⟩ := bind_eq_ok_iff.mp told
  obtain ⟨lineage, built, told⟩ := bind_eq_ok_iff.mp told
  obtain ⟨snapped, paused⟩ := Prod.mk.inj (Except.ok.inj told)
  obtain ⟨⟨snapshot, -⟩, ⟨pause, -⟩, -⟩ := flags_reach_children read built
  rw [snapped] at snapshot
  rw [paused] at pause
  have named : isIdentifier "go" := by decide
  refine ⟨doc, lineage, read, built, (snapshot _ _ named).mp (by decide), ?_,
    (pause _ _ named).mp (by decide), ?_⟩
  · rw [← snapshot _ _ named]
    decide
  · rw [← pause _ _ named]
    decide

end Schema

end ChannelProtocol
