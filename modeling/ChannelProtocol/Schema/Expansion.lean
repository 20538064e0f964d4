-- Property lists with their splices replaced by the fields of the mixins, in
-- place and recursively.
import ChannelProtocol.Schema.Document
import ChannelProtocol.Schema.Error
import ChannelProtocol.Table

namespace ChannelProtocol.Schema

/-- A field of an expanded list, with the mixins through which it came, the outermost first. -/
structure Inlined where
  name : String
  ty : Ty
  route : List String

namespace Document

def names (doc : Document) : List String := doc.entities.names

theorem mem_names_of_mixin? {doc : Document} {mixin : String} {properties : List Property}
    (found : doc.mixin? mixin = some properties) : mixin ∈ doc.names := by
  refine (Table.contains_iff doc.entities mixin).mp ?_
  unfold mixin? get? at found
  unfold Table.contains
  cases h : doc.entities.get? mixin <;> simp_all

/-- The fields of a list at a place, while the mixins of `route` are being expanded. Fields of a
mixin are looked for at the place of the mixin. -/
def inlineFields (doc : Document) (route : List String) (location : Location) :
    List Property → Except Error (List Inlined)
  | [] => .ok []
  | .field name ty :: rest => do
    let others ← doc.inlineFields route location rest
    return ⟨name, ty, route⟩ :: others
  | .splice mixin :: rest =>
    if fresh : mixin ∈ route then .error (.mixinCycle (route ++ [mixin]))
    else
      match found : doc.mixin? mixin with
      | none => .error (.unknownReference mixin location)
      | some properties => do
        have : unvisited doc.names (route ++ [mixin]) < unvisited doc.names route :=
          unvisited_lt (fun _ mem => List.mem_append_left _ mem) (mem_names_of_mixin? found) fresh
            (by simp)
        let fields ← doc.inlineFields (route ++ [mixin])
          (.member (.named mixin) "properties") properties
        let others ← doc.inlineFields route location rest
        return fields ++ others
termination_by properties => (unvisited doc.names route, properties.length)

def expand (doc : Document) (location : Location) (properties : List Property) :
    Except Error (List Inlined) :=
  doc.inlineFields [] location properties

end Document

end ChannelProtocol.Schema
