-- The fewest decimal digits that read back as a given double. Of the decimals
-- with so few digits the nearest is taken, and of two the even one.
import ChannelProtocol.Number.Double

namespace ChannelProtocol.Number

/-- A decimal number `digits * 10 ^ scale`. -/
structure Decimal where
  digits : Nat
  scale : Int
  deriving DecidableEq, Repr

structure Fraction where
  num : Nat
  den : Nat

namespace Fraction

/-- `n * 2 ^ e`. -/
def binary (n : Nat) (e : Int) : Fraction :=
  if 0 ≤ e then ⟨n * Nat.pow 2 e.toNat, 1⟩ else ⟨n, Nat.pow 2 (-e).toNat⟩

/-- `n * 10 ^ e`. -/
def decimal (n : Nat) (e : Int) : Fraction :=
  if 0 ≤ e then ⟨n * Nat.pow 10 e.toNat, 1⟩ else ⟨n, Nat.pow 10 (-e).toNat⟩

def cmp (a b : Fraction) : Ordering :=
  compare (a.num * b.den) (b.num * a.den)

/-- The largest power of ten that is not above the fraction. -/
def magnitude (a : Fraction) : Int :=
  if a.den ≤ a.num then (Double.digitCount (a.num / a.den) : Int) - 1
  else
    let k := Double.digitCount (a.den / a.num)
    if a.den ≤ a.num * Nat.pow 10 (k - 1) then -((k : Int) - 1) else -(k : Int)

/-- The fraction in units of `10 ^ e`, rounded down. -/
def units (a : Fraction) (e : Int) : Nat :=
  if 0 ≤ e then a.num / (a.den * Nat.pow 10 e.toNat) else a.num * Nat.pow 10 (-e).toNat / a.den

def distance (a b : Fraction) : Fraction :=
  let x := a.num * b.den
  let y := b.num * a.den
  ⟨max x y - min x y, a.den * b.den⟩

end Fraction

/-- The numbers that round to `m * 2 ^ q`. The gap below a power of two is half as wide, and the
ends belong to it when the significand is even. -/
structure Interval where
  low : Fraction
  high : Fraction
  closed : Bool

def Interval.of (m : Nat) (q : Int) : Interval :=
  let narrow := m = Nat.pow 2 52 ∧ Double.leastExponent < q
  { low := .binary (if narrow then 4 * m - 1 else 4 * m - 2) (q - 2)
    high := .binary (4 * m + 2) (q - 2)
    closed := m % 2 = 0 }

def Interval.holds (i : Interval) (a : Fraction) : Bool :=
  match i.low.cmp a, a.cmp i.high with
  | .gt, _ | _, .gt => false
  | .eq, _ | _, .eq => i.closed
  | .lt, .lt => true

/-- The decimal in units of `10 ^ e` that is next to `v`, if one lies in the interval. -/
def nearestOn (v : Fraction) (i : Interval) (e : Int) : Option Nat :=
  let below := v.units e
  let above := below + 1
  match i.holds (.decimal below e), i.holds (.decimal above e) with
  | false, false => none
  | true, false => some below
  | false, true => some above
  | true, true =>
    match (v.distance (.decimal below e)).cmp (v.distance (.decimal above e)) with
    | .lt => some below
    | .gt => some above
    | .eq => if below % 2 = 0 then some below else some above

/-- Tries grids of more and more digits, up to `more`. -/
def firstGrid (v : Fraction) (i : Interval) (e : Int) : Nat → Decimal
  | 0 => ⟨v.units e, e⟩
  | more + 1 =>
    match nearestOn v i e with
    | some n => ⟨n, e⟩
    | none => firstGrid v i (e - 1) more

/-- The decimal without zeros at its end. -/
def Decimal.stripped (d : Decimal) : Nat → Decimal
  | 0 => d
  | fuel + 1 =>
    if d.digits ≠ 0 ∧ d.digits % 10 = 0 then Decimal.stripped ⟨d.digits / 10, d.scale + 1⟩ fuel
    else d

/-- The shortest decimal of `m * 2 ^ q` for a positive `m`. Seventeen digits always suffice. -/
def shortest (m : Nat) (q : Int) : Decimal :=
  let v := Fraction.binary m q
  let d := firstGrid v (.of m q) v.magnitude 17
  d.stripped (Double.digitCount d.digits)

/-! ## Text -/

/-- How a number is laid out: up to which place of the first digit it is written without an
exponent, and the words for what is not finite. -/
structure Layout where
  /-- Whether a number whose first digit stands at this place is written without exponent. -/
  positional : Int → Bool
  infinity : String
  negativeInfinity : String
  nan : String

def zeros (n : Int) : String := String.ofList (List.replicate n.toNat '0')

/-- The text of a positive decimal. A whole number ends in `.0`; `place` is how many digits
stand before the point. -/
def Decimal.text (layout : Layout) (d : Decimal) : String :=
  let ds := Nat.toDigits 10 d.digits
  let place : Int := ds.length + d.scale
  if layout.positional place then
    if 0 ≤ d.scale then String.ofList ds ++ zeros d.scale ++ ".0"
    else if 0 < place then
      String.ofList (ds.take place.toNat) ++ "." ++ String.ofList (ds.drop place.toNat)
    else "0." ++ zeros (-place) ++ String.ofList ds
  else
    let fraction := if ds.length = 1 then "" else "." ++ String.ofList (ds.drop 1)
    String.ofList (ds.take 1) ++ fraction ++ "e" ++ toString (place - 1)

def Double.text (layout : Layout) : Double → String
  | .nan => layout.nan
  | .infinite negative => if negative then layout.negativeInfinity else layout.infinity
  | .finite negative m q =>
    (if negative then "-" else "") ++ (if m = 0 then "0.0" else (shortest m q).text layout)

end ChannelProtocol.Number
