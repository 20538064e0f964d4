-- The tables of a TOML document while they are being filled: which of them may
-- still be extended depends on how they came about.
import ChannelProtocol.Toml.Value

namespace ChannelProtocol.Toml

inductive Standing where
  /-- By a header of its own. -/
  | header
  /-- By the header of a table inside it. -/
  | implied
  /-- By a key with dots. -/
  | dotted
  deriving DecidableEq, Repr

mutual

/-- What stands under a key: a value, a table, or an array of tables of which the last one is
open. -/
inductive Item where
  | value (content : Value)
  | section (content : Section)
  | sections (closed : List Section) (current : Section)

structure Section where
  standing : Standing
  entries : List SectionEntry

structure SectionEntry where
  key : String
  item : Item

end

namespace Section

def empty (standing : Standing) : Section := ⟨standing, []⟩

def findIn (key : String) : List SectionEntry → Option Item
  | [] => none
  | entry :: rest => if entry.key = key then some entry.item else findIn key rest

def find? (table : Section) (key : String) : Option Item := findIn key table.entries

/-- The entries with another item under a key, at the place that it has or at the end. -/
def putIn (key : String) (item : Item) : List SectionEntry → List SectionEntry
  | [] => [⟨key, item⟩]
  | entry :: rest => if entry.key = key then ⟨key, item⟩ :: rest else entry :: putIn key item rest

def put (table : Section) (key : String) (item : Item) : Section :=
  { table with entries := putIn key item table.entries }

/-- Changes the table at a path. Tables that are missing on the way come about, by a key with
dots or by a header. A key with dots does not lead through tables that have a header. -/
def changeAt (dotted : Bool) (change : Section → Except SyntaxError Section) :
    List String → Section → Except SyntaxError Section
  | [], table => change table
  | key :: rest, table =>
    match table.find? key with
    | none => do
      let child ← changeAt dotted change rest (.empty (if dotted then .dotted else .implied))
      return table.put key (.section child)
    | some (.value _) => .error .duplicateKey
    | some (.sections closed current) => do
      let current ← changeAt dotted change rest current
      return table.put key (.sections closed current)
    | some (.section child) =>
      if dotted && child.standing == .header then .error .duplicateKey
      else do
        let child ← changeAt dotted change rest child
        return table.put key (.section child)

/-- Adds a value under a new key. A table is filled either by keys with dots or by those
without. -/
def addValue (dotted : Bool) (key : String) (value : Value) (table : Section) :
    Except SyntaxError Section :=
  if (table.standing == .dotted) != dotted then .error .duplicateKey
  else
    match table.find? key with
    | some _ => .error .duplicateKey
    | none => .ok (table.put key (.value value))

def splitPath : List String → Option (List String × String)
  | [] => none
  | [key] => some ([], key)
  | key :: rest => (splitPath rest).map fun (path, last) => (key :: path, last)

/-- Adds a value under a key that may have dots. -/
def assign (path : List String) (value : Value) (table : Section) : Except SyntaxError Section :=
  match splitPath path with
  | some (path, key) => changeAt true (addValue (!path.isEmpty) key value) path table
  | none => .error .key

/-- Opens a table by its header. Only one that came about by the header of a table inside it may
be there already. -/
def openTable (key : String) (parent : Section) : Except SyntaxError Section :=
  match parent.find? key with
  | none => .ok (parent.put key (.section (.empty .header)))
  | some (.section child) =>
    if child.standing == .implied then
      .ok (parent.put key (.section { child with standing := .header }))
    else .error .duplicateKey
  | some _ => .error .duplicateKey

def openNext (key : String) (parent : Section) : Except SyntaxError Section :=
  match parent.find? key with
  | none => .ok (parent.put key (.sections [] (.empty .header)))
  | some (.sections closed current) =>
    .ok (parent.put key (.sections (closed ++ [current]) (.empty .header)))
  | some _ => .error .duplicateKey

def openAt (inArray : Bool) (path : List String) (root : Section) : Except SyntaxError Section :=
  match splitPath path with
  | some (path, key) =>
    changeAt false (if inArray then openNext key else openTable key) path root
  | none => .error .key

end Section

mutual

def Item.toValue : Item → Value
  | .value content => content
  | .section content => .table content.toEntries
  | .sections closed current =>
    .array (Section.toTables closed ++ [.table current.toEntries])

def Section.toEntries : Section → List Entry
  | ⟨_, entries⟩ => SectionEntry.toEntries entries

def Section.toTables : List Section → List Value
  | [] => []
  | table :: rest => .table table.toEntries :: Section.toTables rest

def SectionEntry.toEntries : List SectionEntry → List Entry
  | [] => []
  | ⟨key, item⟩ :: rest => ⟨key, item.toValue⟩ :: SectionEntry.toEntries rest

end

end ChannelProtocol.Toml
