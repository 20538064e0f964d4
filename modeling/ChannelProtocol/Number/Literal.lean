-- Numbers as they are spelled: digits in some base, and decimal fractions with
-- an exponent.
import ChannelProtocol.Number.Double

namespace ChannelProtocol.Number

/-- The value of a digit in a base up to sixteen. -/
def digit? (base : Nat) (c : Char) : Option Nat :=
  let n :=
    if c.isDigit then c.toNat - '0'.toNat
    else if 'a' ≤ c ∧ c ≤ 'f' then c.toNat - 'a'.toNat + 10
    else if 'A' ≤ c ∧ c ≤ 'F' then c.toNat - 'A'.toNat + 10
    else 16
  if n < base then some n else none

/-- Digits read after others of the given value. -/
def digitsFrom? (base : Nat) (value : Nat) : List Char → Option Nat
  | [] => some value
  | c :: rest =>
    match digit? base c with
    | some d => digitsFrom? base (value * base + d) rest
    | none => none

def digits? (base : Nat) (cs : List Char) : Option Nat :=
  if cs.isEmpty then none else digitsFrom? base 0 cs

/-- A leading sign, and what follows it. -/
def sign : List Char → Bool × List Char
  | '-' :: rest => (true, rest)
  | '+' :: rest => (false, rest)
  | cs => (false, cs)

/-- The value of an exponent with its mark, or zero if there is nothing. -/
def exponent? : List Char → Option Int
  | [] => some 0
  | c :: rest =>
    if c = 'e' ∨ c = 'E' then
      match sign rest with
      | (negative, ds) => (digits? 10 ds).map fun n => if negative then -(n : Int) else n
    else none

/-- A decimal fraction without sign: digits with at most one point among them, at least one
digit, and maybe an exponent. -/
def fraction? (cs : List Char) : Option Double :=
  let whole := cs.takeWhile Char.isDigit
  let afterWhole := cs.dropWhile Char.isDigit
  let (part, rest) :=
    match afterWhole with
    | '.' :: more => (more.takeWhile Char.isDigit, more.dropWhile Char.isDigit)
    | _ => ([], afterWhole)
  match digits? 10 (whole ++ part), exponent? rest with
  | some n, some e => some (Double.ofDecimal n (e - part.length))
  | _, _ => none

end ChannelProtocol.Number
