-- Values of TOML that are a single word: truth values, numbers, dates and
-- times.
import ChannelProtocol.Number.Literal
import ChannelProtocol.Toml.Value

namespace ChannelProtocol.Toml

/-! ## Numbers -/

/-- Digits without the underscores that stand between two of them. -/
def separated? (isDigit : Char → Bool) : List Char → Option (List Char)
  | [] => none
  | [c] => if isDigit c then some [c] else none
  | c :: '_' :: rest => if isDigit c then (separated? isDigit rest).map (c :: ·) else none
  | c :: d :: rest => if isDigit c then (separated? isDigit (d :: rest)).map (c :: ·) else none

/-- Decimal digits without a needless zero in front. -/
def decimal? (cs : List Char) : Option (List Char) :=
  match separated? Char.isDigit cs with
  | some ('0' :: _ :: _) => none
  | digits? => digits?

/-- The value of digits in a base other than ten. -/
def based? (base : Nat) (cs : List Char) : Option Int :=
  match (separated? (fun c => (Number.digit? base c).isSome) cs).bind (Number.digits? base) with
  | some n => some n
  | none => none

/-- An integer, of whatever size. -/
def integer? : List Char → Option Int
  | '0' :: 'x' :: ds => based? 16 ds
  | '0' :: 'o' :: ds => based? 8 ds
  | '0' :: 'b' :: ds => based? 2 ds
  | cs =>
    let (negative, ds) := Number.sign cs
    ((decimal? ds).bind (Number.digits? 10)).map fun n => if negative then -(n : Int) else n

/-- Whether an integer fits into 64 bits. -/
def fits (n : Int) : Bool := -Int.pow 2 63 ≤ n && n < Int.pow 2 63

/-- An exponent with its mark, without underscores. -/
def exponent? : List Char → Option (List Char)
  | [] => some []
  | c :: rest =>
    if c = 'e' ∨ c = 'E' then
      let (negative, ds) := Number.sign rest
      (separated? Char.isDigit ds).map fun ds => 'e' :: (if negative then ['-'] else []) ++ ds
    else none

def isDigitOrGap (c : Char) : Bool := c.isDigit || c == '_'

/-- The parts of a decimal fraction, without underscores. It has a fraction or an exponent. -/
def fractionText? (cs : List Char) : Option (List Char) :=
  match decimal? (cs.takeWhile isDigitOrGap), cs.dropWhile isDigitOrGap with
  | some whole, '.' :: more =>
    match separated? Char.isDigit (more.takeWhile isDigitOrGap),
        exponent? (more.dropWhile isDigitOrGap) with
    | some part, some exponent => some (whole ++ '.' :: part ++ exponent)
    | _, _ => none
  | some whole, c :: more => (exponent? (c :: more)).map (whole ++ ·)
  | _, _ => none

/-- A float. One that is too large is none, unless it is negative. -/
def float? (cs : List Char) : Option Number.Double :=
  let (negative, rest) := Number.sign cs
  if rest = ['i', 'n', 'f'] then some (.infinite negative)
  else if rest = ['n', 'a', 'n'] then some .nan
  else
    match (fractionText? rest).bind Number.fraction? with
    | some value =>
      if negative then some value.negate else if value.isFinite then some value else none
    | none => none

/-! ## Dates and times -/

def twoDigits? (low high : Nat) (a b : Char) : Option Nat :=
  match Number.digits? 10 [a, b] with
  | some n => if low ≤ n ∧ n ≤ high then some n else none
  | none => none

def daysIn (year month : Nat) : Nat :=
  if month = 2 then
    if year % 4 = 0 ∧ (year % 100 ≠ 0 ∨ year % 400 = 0) then 29 else 28
  else if month = 4 ∨ month = 6 ∨ month = 9 ∨ month = 11 then 30
  else 31

def date? : List Char → Option (List Char × List Char)
  | y₁ :: y₂ :: y₃ :: y₄ :: '-' :: m₁ :: m₂ :: '-' :: d₁ :: d₂ :: rest =>
    match Number.digits? 10 [y₁, y₂, y₃, y₄], twoDigits? 1 12 m₁ m₂ with
    | some year, some month =>
      match twoDigits? 1 (daysIn year month) d₁ d₂ with
      | some _ => some ([y₁, y₂, y₃, y₄, '-', m₁, m₂, '-', d₁, d₂], rest)
      | none => none
    | _, _ => none
  | _ => none

/-- The digits of a fraction of a second: at most nine, without zeros at their end. -/
def secondFraction (digits : List Char) : List Char :=
  match ((digits.take 9).reverse.dropWhile (· == '0')).reverse with
  | [] => []
  | digits => '.' :: digits

/-- What may follow the seconds of a time, and the rest of the word. -/
def fraction? : List Char → Option (List Char × List Char)
  | '.' :: rest =>
    match rest.takeWhile Char.isDigit with
    | [] => none
    | digits => some (secondFraction digits, rest.dropWhile Char.isDigit)
  | rest => some ([], rest)

def time? : List Char → Option (List Char × List Char)
  | h₁ :: h₂ :: ':' :: m₁ :: m₂ :: ':' :: s₁ :: s₂ :: rest =>
    match twoDigits? 0 23 h₁ h₂, twoDigits? 0 59 m₁ m₂, twoDigits? 0 60 s₁ s₂, fraction? rest with
    | some _, some _, some _, some (part, rest) =>
      some ([h₁, h₂, ':', m₁, m₂, ':', s₁, s₂] ++ part, rest)
    | _, _, _, _ => none
  | _ => none

/-- The distance of a time from universal time, which is the whole rest of a word. None has the
sign of a negative one. -/
def offset? : List Char → Option (List Char)
  | [] => some []
  | ['Z'] | ['z'] => some ['Z']
  | [sign, h₁, h₂, ':', m₁, m₂] =>
    match twoDigits? 0 23 h₁ h₂, twoDigits? 0 59 m₁ m₂ with
    | some hours, some minutes =>
      if sign = '+' then some ['+', h₁, h₂, ':', m₁, m₂]
      else if sign = '-' then
        some ((if hours = 0 ∧ minutes = 0 then '+' else '-') :: [h₁, h₂, ':', m₁, m₂])
      else none
    | _, _ => none
  | _ => none

/-- A date, a time, or both, as the text in which they are kept. -/
def dateTime? (word : List Char) : Option (List Char) :=
  match date? word with
  | some (date, []) => some date
  | some (date, mark :: rest) =>
    if mark = 'T' ∨ mark = 't' ∨ mark = ' ' then
      match time? rest with
      | some (time, rest) => (offset? rest).map fun offset => date ++ 'T' :: time ++ offset
      | none => none
    else none
  | none =>
    match time? word with
    | some (time, []) => some time
    | _ => none

/-! ## Words -/

def scalar? (word : List Char) : Option Value :=
  if word = ['t', 'r', 'u', 'e'] then some (.boolean true)
  else if word = ['f', 'a', 'l', 's', 'e'] then some (.boolean false)
  else
    match integer? word with
    | some n => if fits n then some (.integer n) else none
    | none =>
      match float? word with
      | some value => some (.float value)
      | none => (dateTime? word).map fun text => .dateTime (String.ofList text)

def isWordChar (c : Char) : Bool :=
  c.isAlphanum || c == '+' || c == '-' || c == '.' || c == ':' || c == '_'

/-- A word and what follows it. A date may be followed by a space and a time. -/
def takeWord (cs : List Char) : List Char × List Char :=
  let word := cs.takeWhile isWordChar
  match cs.dropWhile isWordChar with
  | ' ' :: c :: rest =>
    if c.isDigit ∧ (date? word).any (·.2.isEmpty) then
      (word ++ ' ' :: (c :: rest).takeWhile isWordChar, (c :: rest).dropWhile isWordChar)
    else (word, ' ' :: c :: rest)
  | rest => (word, rest)

end ChannelProtocol.Toml
