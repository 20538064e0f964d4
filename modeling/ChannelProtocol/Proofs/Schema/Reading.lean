-- Where the types of a document come from: each of them, at any depth, is read
-- from a part of the value that the document is read from.
import ChannelProtocol.Proofs.Yaml.Keys
import ChannelProtocol.Schema.Reader
import ChannelProtocol.Schema.Resolution
import Mathlib.Data.List.Nodup

namespace ChannelProtocol.Schema

open Yaml (Value Entry)

variable {channels : List String} {source : Value} {location : Location}

/-! ## Keys -/

/-- The texts of the keys of a mapping. -/
def keyTexts (entries : List Entry) : List String :=
  entries.filterMap fun entry => entry.key.asString?

theorem keyText_eq_ok_iff {key : Value} {name : String} :
    keyText location key = .ok name ↔ key.asString? = some name := by
  unfold keyText
  split <;> simp_all

/-- Two keys of a mapping with one text, of which at least one has a tag. -/
def ToldByTag (entries : List Entry) (text : String) : Prop :=
  ∃ first second, [first, second].Sublist entries ∧ first.key.asString? = some text ∧
    second.key.asString? = some text ∧ ¬ (first.key.Bare ∧ second.key.Bare)

theorem exists_keys_of_twice {entries : List Entry} {text : String}
    (twice : [text, text].Sublist (keyTexts entries)) :
    ∃ first second, [first, second].Sublist entries ∧ first.key.asString? = some text ∧
      second.key.asString? = some text := by
  obtain ⟨part, sublist, texts⟩ := List.sublist_filterMap_iff.mp twice
  obtain ⟨front, first, rest, rfl, -, firstText, texts⟩ := List.filterMap_eq_cons_iff.mp texts.symm
  obtain ⟨middle, second, back, rfl, -, secondText, -⟩ := List.filterMap_eq_cons_iff.mp texts
  refine ⟨first, second, .trans ?_ sublist, firstText, secondText⟩
  have later : [second].Sublist (middle ++ second :: back) := by simp
  exact (later.cons_cons first).trans (List.sublist_append_right ..)

/-- Where no key comes twice, two keys of one text are told apart by a tag. -/
theorem toldByTag_of_twice {entries : List Entry} (distinct : (Value.mapping entries).DistinctHere)
    {text : String} (twice : [text, text].Sublist (keyTexts entries)) : ToldByTag entries text := by
  obtain ⟨first, second, both, firstText, secondText⟩ := exists_keys_of_twice twice
  refine ⟨first, second, both, firstText, secondText, ?_⟩
  rintro ⟨firstBare, secondBare⟩
  have differ := List.pairwise_iff_forall_sublist.mp distinct both
  rw [Value.eq_string_of_bare firstBare firstText,
    Value.eq_string_of_bare secondBare secondText] at differ
  simp [Value.same] at differ

theorem not_toldByTag {entries : List Entry} (untagged : (Value.mapping entries).Untagged)
    (text : String) : ¬ ToldByTag entries text := by
  rintro ⟨first, second, both, -, -, tagged⟩
  have keys (entry : Entry) (mem : entry ∈ [first, second]) : entry.key.Bare :=
    untagged _ (.key (both.subset mem) .refl)
  exact tagged ⟨keys first (by simp), keys second (by simp)⟩

/-! ## Fields -/

/-- The names of the fields that stand in a list itself. -/
def fieldNames (properties : List Property) : List String :=
  properties.filterMap fun
    | .field name _ => some name
    | .splice _ => none

@[simp]
theorem fieldNames_field_cons (name : String) (ty : Ty) (rest : List Property) :
    fieldNames (.field name ty :: rest) = name :: fieldNames rest := rfl

@[simp]
theorem fieldNames_splice_cons (mixin : String) (rest : List Property) :
    fieldNames (.splice mixin :: rest) = fieldNames rest := rfl

/-- The fields of a list that is read are the keys that do not splice. -/
theorem fieldNames_readProperties {location : Location} {entries : List Entry}
    {properties : List Property}
    (read : readProperties channels location entries = .ok properties) :
    fieldNames properties = (keyTexts entries).filter fun key => !isSpliceKey key := by
  induction entries generalizing properties with
  | nil =>
    cases read
    rfl
  | cons entry rest ih =>
    obtain ⟨key, value⟩ := entry
    rw [readProperties] at read
    split at read
    · cases read
    · rename_i name keyed
      have keys : keyTexts (⟨key, value⟩ :: rest) = name :: keyTexts rest := by
        simp [keyTexts, keyText_eq_ok_iff.mp keyed]
      dsimp only at read
      split at read
      · cases read
      · rename_i property head
        obtain ⟨properties, others, rfl⟩ := map_eq_ok_iff.mp read
        rw [keys, List.filter_cons, ← ih others]
        split at head
        · rename_i marked
          split at head <;> cases head
          simp [marked]
        · rename_i field
          obtain ⟨ty, -, rfl⟩ := map_eq_ok_iff.mp head
          simp [field]

/-- The fields of a list, if it has any, are the keys of one mapping in a value, without those that
splice. -/
def KeyedIn (source : Value) (properties : List Property) : Prop :=
  fieldNames properties = [] ∨ ∃ entries, (Value.mapping entries).Within source ∧
    fieldNames properties = (keyTexts entries).filter fun key => !isSpliceKey key

/-! ## Types -/

/-- A type that is read from a part of a value: a word, an array, literals that are not empty, or
an object whose fields are keys of one mapping. -/
inductive ReadIn (channels : List String) (source : Value) : Ty → Prop
  | word (text : String) {ty : Ty} : tyOfWord channels text = ty → ReadIn channels source ty
  | array {element : Ty} {optional : Bool} : ReadIn channels source element →
      ReadIn channels source ⟨.array element, optional⟩
  | literals {texts : List String} {optional : Bool} : "" ∉ texts →
      ReadIn channels source ⟨.literals texts, optional⟩
  | object {properties : List Property} {optional : Bool} : KeyedIn source properties →
      (∀ name ty, .field name ty ∈ properties → ReadIn channels source ty) →
      ReadIn channels source ⟨.object properties, optional⟩

structure ListReadIn (channels : List String) (source : Value) (properties : List Property) :
    Prop where
  keyed : KeyedIn source properties
  types : ∀ name ty, .field name ty ∈ properties → ReadIn channels source ty

theorem listReadIn_nil : ListReadIn channels source [] := ⟨.inl rfl, by simp⟩

theorem not_mem_of_literalTexts {owner : Value} {items : List Value} {texts : List String}
    (read : literalTexts location owner items = .ok texts) : "" ∉ texts := by
  induction items generalizing texts with
  | nil =>
    cases read
    simp
  | cons item rest ih =>
    obtain ⟨text, -, read⟩ := bind_eq_ok_iff.mp read
    split at read
    · cases read
    · rename_i full
      obtain ⟨others, later, same⟩ := bind_eq_ok_iff.mp read
      cases same
      simp [ih later, Ne.symm full]

/-- No literal that is read is empty. -/
theorem not_mem_of_readLiterals {owner : Value} {entries : List Entry} {texts : List String}
    (read : readLiterals location owner entries = .ok texts) : "" ∉ texts := by
  unfold readLiterals at read
  split at read
  · exact not_mem_of_literalTexts read
  · cases read

/-- What a type that could be read was read from. -/
theorem readTy_cases {value : Value} {ty : Ty} (read : readTy channels location value = .ok ty) :
    (∃ word, ty = tyOfWord channels word) ∨ (∃ texts, "" ∉ texts ∧ ty.shape = .literals texts) ∨
    ∃ entries, value = .mapping entries ∧
      ((∃ element, readElement channels location entries = some (.ok element) ∧
        ty.shape = .array element) ∨
      ∃ properties, readInline channels location entries = .ok properties ∧
        ty.shape = .object properties) := by
  unfold readTy at read
  split at read
  · rename_i word
    obtain rfl := Except.ok.inj read
    exact .inl ⟨word, rfl⟩
  · rename_i entries
    split at read
    · cases read
    · rename_i word typed
      dsimp only at read
      split at read
      · split at read
        · rename_i element found
          obtain rfl := Except.ok.inj read
          exact .inr (.inr ⟨entries, rfl, .inl ⟨element, found, rfl⟩⟩)
        · cases read
        · cases read
      · split at read
        · obtain ⟨texts, listed, rfl⟩ := map_eq_ok_iff.mp read
          exact .inr (.inl ⟨texts, not_mem_of_readLiterals listed, rfl⟩)
        · split at read
          · obtain ⟨properties, inline, rfl⟩ := map_eq_ok_iff.mp read
            exact .inr (.inr ⟨entries, rfl, .inr ⟨properties, inline, rfl⟩⟩)
          · cases read
  · cases read

-- One theorem for each function of the reader, by recursion on the value as they are.
mutual

theorem readIn_readTy (value : Value) (location : Location) (within : value.Within source)
    {ty : Ty} (read : readTy channels location value = .ok ty) : ReadIn channels source ty := by
  obtain ⟨shape, optional⟩ := ty
  rcases readTy_cases read with ⟨word, same⟩ | ⟨texts, full, rfl⟩ | ⟨entries, rfl, inner⟩
  · exact .word word same.symm
  · exact .literals full
  · rcases inner with ⟨element, found, rfl⟩ | ⟨properties, inline, rfl⟩
    · exact .array (readIn_readElement entries location (Value.within_of_mapping within) found)
    · have list := readIn_readInline entries location (Value.within_of_mapping within) inline
      exact .object list.keyed list.types

theorem readIn_readElement (entries : List Entry) (location : Location)
    (within : ∀ entry ∈ entries, entry.value.Within source) {ty : Ty}
    (read : readElement channels location entries = some (.ok ty)) :
    ReadIn channels source ty := by
  match entries with
  | [] => simp [readElement] at read
  | ⟨key, value⟩ :: rest =>
    rw [List.forall_mem_cons] at within
    rw [readElement] at read
    split at read
    · exact readIn_readTy value (.element location) within.1 (Option.some.inj read)
    · exact readIn_readElement rest location within.2 read

theorem readIn_readInline (entries : List Entry) (location : Location)
    (within : ∀ entry ∈ entries, entry.value.Within source) {properties : List Property}
    (read : readInline channels location entries = .ok properties) :
    ListReadIn channels source properties := by
  match entries with
  | [] =>
    cases read
    exact listReadIn_nil
  | ⟨key, value⟩ :: rest =>
    rw [List.forall_mem_cons] at within
    rw [readInline] at read
    split at read
    · obtain ⟨section?, found, rfl⟩ := map_eq_ok_iff.mp read
      cases section? with
      | none => exact listReadIn_nil
      | some properties => exact readIn_readSection value location within.1 found properties rfl
    · exact readIn_readInline rest location within.2 read

theorem readIn_readSection (value : Value) (location : Location) (within : value.Within source)
    {section? : Option (List Property)}
    (read : readSection channels location value = .ok section?) :
    ∀ properties ∈ section?, ListReadIn channels source properties := by
  unfold readSection at read
  split at read
  · cases read
    simp
  · rename_i entries
    obtain ⟨properties, listed, rfl⟩ := map_eq_ok_iff.mp read
    intro held same
    obtain rfl := Option.some.inj same
    exact ⟨.inr ⟨entries, within, fieldNames_readProperties listed⟩,
      readIn_readProperties entries location (Value.within_of_mapping within) listed⟩
  · cases read

theorem readIn_readProperties (entries : List Entry) (location : Location)
    (within : ∀ entry ∈ entries, entry.value.Within source) {properties : List Property}
    (read : readProperties channels location entries = .ok properties) :
    ∀ name ty, .field name ty ∈ properties → ReadIn channels source ty := by
  match entries with
  | [] =>
    cases read
    simp
  | ⟨key, value⟩ :: rest =>
    rw [List.forall_mem_cons] at within
    rw [readProperties] at read
    split at read
    · cases read
    · rename_i name keyed
      dsimp only at read
      split at read
      · cases read
      · rename_i property head
        obtain ⟨properties, others, rfl⟩ := map_eq_ok_iff.mp read
        intro other ty mem
        rcases List.mem_cons.mp mem with rfl | mem
        · split at head
          · split at head <;> cases head
          · obtain ⟨ty, typed, same⟩ := map_eq_ok_iff.mp head
            cases same
            exact readIn_readTy value _ within.1 typed
        · exact readIn_readProperties rest location within.2 others other ty mem

end

/-! ## What stands in a type -/

/-- A shape stands in another one: it is that shape, or it stands in the elements of an array or
in a field of an inline object. -/
inductive Shape.Holds : Shape → Shape → Prop
  | self (shape : Shape) : Holds shape shape
  | element {element : Ty} {inner : Shape} :
      Holds element.shape inner → Holds (.array element) inner
  | field {name : String} {ty : Ty} {properties : List Property} {inner : Shape} :
      .field name ty ∈ properties → Holds ty.shape inner → Holds (.object properties) inner

theorem shape_tyOfWord (channels : List String) (word : String) :
    (tyOfWord channels word).shape =
      shapeOfWord channels (splitOptional (Text.trim word)).1 := by
  unfold tyOfWord
  generalize splitOptional (Text.trim word) = parts
  rfl

theorem exists_shapeOfWord {text : String} {shape : Shape} {optional : Bool}
    (same : tyOfWord channels text = ⟨shape, optional⟩) :
    ∃ base, shapeOfWord channels base = shape :=
  ⟨_, (shape_tyOfWord channels text).symm.trans (congrArg Ty.shape same)⟩

/-- No word stands for an array or an inline object. -/
theorem isSimple_shapeOfWord (channels : List String) (word : String) :
    (∀ element, shapeOfWord channels word ≠ .array element) ∧
      ∀ properties, shapeOfWord channels word ≠ .object properties := by
  unfold shapeOfWord
  repeat' split
  all_goals simp

theorem ReadIn.element {element : Ty} {optional : Bool}
    (read : ReadIn channels source ⟨.array element, optional⟩) :
    ReadIn channels source element := by
  cases read with
  | word text same =>
    obtain ⟨base, shaped⟩ := exists_shapeOfWord same
    exact absurd shaped ((isSimple_shapeOfWord channels base).1 element)
  | array read => exact read

theorem ReadIn.list {properties : List Property} {optional : Bool}
    (read : ReadIn channels source ⟨.object properties, optional⟩) :
    ListReadIn channels source properties := by
  cases read with
  | word text same =>
    obtain ⟨base, shaped⟩ := exists_shapeOfWord same
    exact absurd shaped ((isSimple_shapeOfWord channels base).2 properties)
  | object keyed types => exact ⟨keyed, types⟩

/-- What stands in a shape that is read from a value is read from it too. -/
theorem ReadIn.holds {ty : Ty} (read : ReadIn channels source ty) {inner : Shape}
    (holds : ty.shape.Holds inner) : ∃ optional, ReadIn channels source ⟨inner, optional⟩ := by
  generalize shaped : ty.shape = outer at holds
  induction holds generalizing ty with
  | self =>
    obtain ⟨shape, optional⟩ := ty
    cases shaped
    exact ⟨optional, read⟩
  | element _ ih =>
    obtain ⟨shape, optional⟩ := ty
    cases shaped
    exact ih read.element rfl
  | field mem _ ih =>
    obtain ⟨shape, optional⟩ := ty
    cases shaped
    exact ih (read.list.types _ _ mem) rfl

theorem ListReadIn.holds {properties : List Property} (read : ListReadIn channels source properties)
    {inner : Shape} (holds : (Shape.object properties).Holds inner) :
    ∃ optional, ReadIn channels source ⟨inner, optional⟩ := by
  have whole : ReadIn channels source ⟨.object properties, false⟩ := .object read.keyed read.types
  exact whole.holds holds

/-! ## Sections and members -/

theorem exists_mem_of_lookup {name : String} {entries : List Entry} {value : Value}
    (found : Yaml.lookup name entries = some value) : ∃ entry ∈ entries, entry.value = value := by
  fun_induction Yaml.lookup name entries with
  | case1 => cases found
  | case2 value rest =>
    cases found
    exact ⟨_, List.mem_cons_self, rfl⟩
  | case3 text value rest other ih =>
    obtain ⟨entry, mem, same⟩ := ih found
    exact ⟨entry, List.mem_cons_of_mem _ mem, same⟩
  | case4 entry rest other ih =>
    obtain ⟨entry, mem, same⟩ := ih found
    exact ⟨entry, List.mem_cons_of_mem _ mem, same⟩

theorem within_of_lookup {name : String} {entries : List Entry} {value : Value}
    (within : ∀ entry ∈ entries, entry.value.Within source)
    (found : Yaml.lookup name entries = some value) : value.Within source := by
  obtain ⟨entry, mem, rfl⟩ := exists_mem_of_lookup found
  exact within entry mem

theorem readIn_readNamedSection {name : String} {entries : List Entry}
    {section? : Option (List Property)} (within : ∀ entry ∈ entries, entry.value.Within source)
    (read : readNamedSection channels location name entries = .ok section?) :
    ∀ properties ∈ section?, ListReadIn channels source properties := by
  unfold readNamedSection at read
  split at read
  · cases read
    simp
  · rename_i value found
    exact readIn_readSection value location (within_of_lookup within found) read

theorem listReadIn_getD {section? : Option (List Property)}
    (each : ∀ properties ∈ section?, ListReadIn channels source properties) :
    ListReadIn channels source (section?.getD []) := by
  cases section? with
  | none => exact listReadIn_nil
  | some properties => exact each properties rfl

theorem sectionEntries_eq_ok {value : Option Value} {section? : Option (List Entry)}
    (h : sectionEntries location value = .ok section?) :
    ∀ entries ∈ section?, value = some (.mapping entries) := by
  unfold sectionEntries at h
  split at h
  all_goals cases h
  all_goals simp

/-- Every member of a section has an identifier for a name and was read from a value in it. -/
theorem exists_read_of_readMembers {α : Type} {owner part : String}
    {read : Location → Value → Except Error α} {value : Option Value} {table : Table α}
    (h : readMembers owner part read value = .ok table) {entry : String × α}
    (mem : entry ∈ table.entries) :
    TypeScript.isIdentifier entry.1 ∧ ∃ entries, value = some (.mapping entries) ∧
      ∃ source ∈ entries, ∃ location, read location source.value = .ok entry.2 := by
  unfold readMembers at h
  obtain ⟨section?, found, h⟩ := bind_eq_ok_iff.mp h
  cases section? with
  | none =>
    cases h
    cases mem
  | some entries =>
    obtain ⟨members, listed, same⟩ := bind_eq_ok_iff.mp h
    cases same
    obtain ⟨source, held, made⟩ :=
      (mem_iff_of_map_eq_ok (mapM_eq_ok_iff.mp listed) entry).mp (Table.mem_of_mem_ofList mem)
    obtain ⟨name, named, made⟩ := bind_eq_ok_iff.mp made
    obtain ⟨member, given, same⟩ := bind_eq_ok_iff.mp made
    cases same
    refine ⟨?_, entries, sectionEntries_eq_ok found entries rfl, source, held, _, given⟩
    obtain ⟨text, -, named⟩ := bind_eq_ok_iff.mp named
    split at named
    · rename_i identifier
      cases named
      exact identifier
    · cases named

/-! ## Entities -/

theorem readIn_readEvent {channel name : String} {value : Value} {event : Event}
    (within : value.Within source) (read : readEvent channels location value = .ok event) :
    ∀ list ∈ eventLists channel (name, event), ListReadIn channels source list.2 := by
  unfold readEvent at read
  obtain ⟨section?, found, rest⟩ := bind_eq_ok_iff.mp read
  cases section? with
  | none =>
    cases rest
    simp [eventLists]
  | some entries =>
    obtain rfl := Option.some.inj (sectionEntries_eq_ok found entries rfl)
    obtain ⟨parameters, listed, rest⟩ := bind_eq_ok_iff.mp rest
    cases rest
    have takes := readIn_readNamedSection (Value.within_of_mapping within) listed
    simpa [eventLists] using takes

theorem readIn_readCommand {channel name : String} {value : Value} {command : Command}
    (within : value.Within source) (read : readCommand channels location value = .ok command) :
    ∀ list ∈ commandLists channel (name, command), ListReadIn channels source list.2 := by
  unfold readCommand at read
  obtain ⟨section?, found, rest⟩ := bind_eq_ok_iff.mp read
  cases section? with
  | none =>
    cases rest
    simp [commandLists]
  | some entries =>
    obtain rfl := Option.some.inj (sectionEntries_eq_ok found entries rfl)
    obtain ⟨parameters, taken, rest⟩ := bind_eq_ok_iff.mp rest
    obtain ⟨returns, given, rest⟩ := bind_eq_ok_iff.mp rest
    obtain ⟨tracing, -, rest⟩ := bind_eq_ok_iff.mp rest
    cases rest
    have takes := readIn_readNamedSection (Value.within_of_mapping within) taken
    have gives := readIn_readNamedSection (Value.within_of_mapping within) given
    simp_all [commandLists, or_imp, forall_and]

theorem readIn_readChannel {name : String} {entries : List Entry} {channel : Channel}
    (within : ∀ entry ∈ entries, entry.value.Within source)
    (read : readChannel channels name entries = .ok channel) :
    ∀ list ∈ entityLists (name, .channel channel), ListReadIn channels source list.2 := by
  unfold readChannel at read
  obtain ⟨parent, -, read⟩ := bind_eq_ok_iff.mp read
  obtain ⟨initializer, opened, read⟩ := bind_eq_ok_iff.mp read
  obtain ⟨commands, commanded, read⟩ := bind_eq_ok_iff.mp read
  obtain ⟨events, raised, rest⟩ := bind_eq_ok_iff.mp read
  cases rest
  intro list mem
  simp only [entityLists, List.cons_append, List.mem_cons, List.mem_append,
    List.mem_flatMap] at mem
  rcases mem with rfl | ⟨entry, mem, inside⟩ | ⟨entry, mem, inside⟩
  · exact listReadIn_getD (readIn_readNamedSection within opened)
  · obtain ⟨-, members, found, member, held, location, made⟩ :=
      exists_read_of_readMembers raised mem
    have inner := Value.within_of_mapping (within_of_lookup within found) member held
    exact readIn_readEvent inner made list inside
  · obtain ⟨-, members, found, member, held, location, made⟩ :=
      exists_read_of_readMembers commanded mem
    have inner := Value.within_of_mapping (within_of_lookup within found) member held
    exact readIn_readCommand inner made list inside

/-- What an entity that could be read was read from. -/
theorem readEntity_cases {name : String} {value : Value} {entity : Entity}
    (read : readEntity channels name value = .ok entity) :
    ∃ entries word, value = .mapping entries ∧ typeWord? entries = some word ∧
      ((isChannelWord word ∧
        ∃ channel, readChannel channels name entries = .ok channel ∧ entity = .channel channel) ∨
      (¬ isChannelWord word ∧
        ((∃ literals, "" ∉ literals ∧ entity = .enum literals) ∨
          ∃ properties, readBody channels name entries = .ok properties ∧
            (entity = .object properties ∨ entity = .mixin properties)))) := by
  unfold readEntity at read
  split at read
  · rename_i entries
    split at read
    · cases read
    · rename_i word typed
      refine ⟨entries, word, rfl, typed, ?_⟩
      split at read
      · rename_i isChannel
        obtain ⟨channel, made, rfl⟩ := map_eq_ok_iff.mp read
        exact .inl ⟨isChannel, channel, made, rfl⟩
      · rename_i other
        refine .inr ⟨other, ?_⟩
        split at read
        · obtain ⟨properties, made, rfl⟩ := map_eq_ok_iff.mp read
          exact .inr ⟨properties, made, .inl rfl⟩
        · split at read
          · obtain ⟨literals, listed, rfl⟩ := map_eq_ok_iff.mp read
            exact .inl ⟨literals, not_mem_of_readLiterals listed, rfl⟩
          · split at read
            · obtain ⟨properties, made, rfl⟩ := map_eq_ok_iff.mp read
              exact .inr ⟨properties, made, .inr rfl⟩
            · cases read
  · cases read

/-- All lists of an entity are read from parts of its value. -/
theorem readIn_readEntity {name : String} {value : Value} {entity : Entity}
    (within : value.Within source) (read : readEntity channels name value = .ok entity) :
    ∀ list ∈ entityLists (name, entity), ListReadIn channels source list.2 := by
  obtain ⟨entries, word, rfl, -, ⟨-, channel, made, rfl⟩ | ⟨-, other⟩⟩ := readEntity_cases read
  · exact readIn_readChannel (Value.within_of_mapping within) made
  · rcases other with ⟨literals, -, rfl⟩ | ⟨properties, made, kind⟩
    · simp [entityLists]
    · obtain ⟨section?, listed, same⟩ := bind_eq_ok_iff.mp made
      cases same
      have list :=
        listReadIn_getD (readIn_readNamedSection (Value.within_of_mapping within) listed)
      rcases kind with rfl | rfl <;> simpa [entityLists] using list

end ChannelProtocol.Schema
