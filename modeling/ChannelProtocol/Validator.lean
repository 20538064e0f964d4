-- Validators: what a payload has to look like. A validator is written into the
-- validators file, and it checks payloads in the program itself.
import ChannelProtocol.TypeScript.Printer

namespace ChannelProtocol

mutual

/-- A validator. `named` stands for the entry of a registry, whenever it is looked up. -/
inductive Validator where
  | string
  | boolean
  | number
  | undefined
  | binary
  | any
  | optional (inner : Validator)
  | array (element : Validator)
  | enum (literals : List String)
  | object (slots : List Slot)
  | anyChannel
  | channel (kinds : List String)
  | named (name : String)

structure Slot where
  name : String
  validator : Validator

end

namespace Validator

open TypeScript (indentation key quoted)

def quotedList (texts : List String) : String := ", ".intercalate (texts.map quoted)

mutual

/-- The text of a validator whose first line starts at the given level. -/
def print (level : Nat) : Validator → String
  | .string => "tString"
  | .boolean => "tBoolean"
  | .number => "tNumber"
  | .undefined => "tUndefined"
  | .binary => "tBinary"
  | .any => "tAny"
  | .optional inner => "tOptional(" ++ inner.print level ++ ")"
  | .array element => "tArray(" ++ element.print level ++ ")"
  | .enum literals => "tEnum([" ++ quotedList literals ++ "])"
  | .object [] => "tObject(\x7b\x7d)"
  | .object (slot :: slots) =>
    "tObject(\x7b\n" ++ printSlots (level + 1) (slot :: slots) ++ indentation level ++ "\x7d)"
  | .anyChannel => "tChannel(\"*\")"
  | .channel kinds => "tChannel([" ++ quotedList kinds ++ "])"
  | .named name => "tType(" ++ quoted name ++ ")"

def printSlots (level : Nat) : List Slot → String
  | [] => ""
  | ⟨name, validator⟩ :: rest =>
    indentation level ++ key name ++ ": " ++ validator.print level ++ ",\n" ++ printSlots level rest

end

end Validator

end ChannelProtocol
