-- Registries: named validators in the order in which they were registered, no
-- name twice.
import ChannelProtocol.Schema.Error
import ChannelProtocol.Table
import ChannelProtocol.Validator

namespace ChannelProtocol

/-- A registered validator, and what it was made from. -/
structure Registered where
  validator : Validator
  origin : Schema.Origin

structure Registry where
  table : Table Registered

structure Registration where
  name : String
  validator : Validator
  origin : Schema.Origin

namespace Registry

def empty : Registry := ⟨.empty⟩

def entries (registry : Registry) : List (String × Registered) := registry.table.entries

def size (registry : Registry) : Nat := registry.table.size

def get? (registry : Registry) (name : String) : Option Validator :=
  (registry.table.get? name).map Registered.validator

def contains (registry : Registry) (name : String) : Bool := registry.table.contains name

def register (registry : Registry) (new : Registration) : Except Schema.Error Registry :=
  match found : registry.table.get? new.name with
  | some old => .error (.nameCollision new.name old.origin new.origin)
  | none => .ok ⟨registry.table.push new.name ⟨new.validator, new.origin⟩
      ((registry.table.get?_eq_none_iff new.name).mp found)⟩

/-- Registers validators in turn, up to the first that is missing or that has a name of another
one. -/
def registerAll (registry : Registry) :
    List (Except (Stop Schema.Error) Registration) → Except (Stop Schema.Error) Registry
  | [] => .ok registry
  | .error error :: _ => .error error
  | .ok new :: rest =>
    match registry.register new with
    | .error error => .error (.fails error)
    | .ok registry => registry.registerAll rest

end Registry

end ChannelProtocol
