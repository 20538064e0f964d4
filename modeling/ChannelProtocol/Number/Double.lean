-- Double precision numbers as exact binary fractions, and the double nearest
-- to a decimal number.

namespace ChannelProtocol.Number

/-- A double precision number. A finite one is `significand * 2 ^ exponent` up to its sign, with
a significand below `2 ^ 53` that is at least `2 ^ 52` unless the exponent is the least one. -/
inductive Double where
  | finite (negative : Bool) (significand : Nat) (exponent : Int)
  | infinite (negative : Bool)
  | nan
  deriving DecidableEq, Repr

namespace Double

def leastExponent : Int := -1074

def greatestExponent : Int := 971

def zero (negative : Bool) : Double := .finite negative 0 leastExponent

def isFinite : Double → Bool
  | .finite .. => true
  | _ => false

def negate : Double → Double
  | .finite negative m q => .finite (!negative) m q
  | .infinite negative => .infinite (!negative)
  | .nan => .nan

/-- Whether two numbers are the same key: both zeros are one, and so is every `nan`. -/
def same : Double → Double → Bool
  | .finite _ 0 _, .finite _ 0 _ => true
  | a, b => a == b

/-! ## Rounding -/

/-- The quotient rounded to the nearest whole number, a half to the even one. -/
def roundDiv (num den : Nat) : Nat :=
  let q := num / den
  let r := num % den
  if 2 * r < den then q
  else if den < 2 * r then q + 1
  else if q % 2 = 0 then q else q + 1

/-- `num / den / 2 ^ e` rounded. -/
def scaledDown (num den : Nat) (e : Int) : Nat :=
  if 0 ≤ e then roundDiv num (den * Nat.pow 2 e.toNat)
  else roundDiv (num * Nat.pow 2 (-e).toNat) den

/-- The exponent with which `num / den` has a significand of 53 bits. -/
def exponentOf (num den : Nat) : Int :=
  let guess : Int := (num.log2 : Int) - den.log2 - 52
  -- the guess is right or one too large
  let low := guess - 1
  let lower :=
    if 0 ≤ low then num / (den * Nat.pow 2 low.toNat) else num * Nat.pow 2 (-low).toNat / den
  if lower < Nat.pow 2 53 then low else guess

/-- The double nearest to `num / den`. -/
def ofFraction (num den : Nat) : Double :=
  if num = 0 then zero false
  else
    let q := max (exponentOf num den) leastExponent
    let m := scaledDown num den q
    let (m, q) := if m = Nat.pow 2 53 then (Nat.pow 2 52, q + 1) else (m, q)
    if greatestExponent < q then .infinite false else .finite false m q

def digitCount (n : Nat) : Nat := (Nat.toDigits 10 n).length

/-- The double nearest to `digits * 10 ^ scale`. Numbers that are far out of range are decided
by the place of their first digit alone. -/
def ofDecimal (digits : Nat) (scale : Int) : Double :=
  if digits = 0 then zero false
  else
    let place : Int := digitCount digits + scale
    if 400 < place then .infinite false
    else if place < -400 then zero false
    else if 0 ≤ scale then ofFraction (digits * Nat.pow 10 scale.toNat) 1
    else ofFraction digits (Nat.pow 10 (-scale).toNat)

end Double

end ChannelProtocol.Number
