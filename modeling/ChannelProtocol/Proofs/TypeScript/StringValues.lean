-- What a printed string literal denotes, by the lexical grammar of the language. A string
-- is a sequence of 16-bit code units, and a literal is read from its opening quote on, up
-- to the first quote that is not escaped.
import ChannelProtocol.Proofs.TypeScript.Literals
import ChannelProtocol.Validator

namespace ChannelProtocol.TypeScript

/-! ## Code units -/

/-- The code units of a code point. Those beyond the first 2 ^ 16 have a pair of surrogates. -/
def codeUnits (point : Nat) : List Nat :=
  if point < 0x10000 then [point]
  else [0xD800 + (point - 0x10000) / 0x400, 0xDC00 + (point - 0x10000) % 0x400]

/-- The value of a text: the code units of its characters. -/
def textUnits (text : List Char) : List Nat := text.flatMap fun c => codeUnits c.toNat

/-- A character is no surrogate, so that its first unit tells how many there are. -/
theorem codeUnits_append_inj {c d : Char} {rest other : List Nat}
    (h : codeUnits c.toNat ++ rest = codeUnits d.toNat ++ other) : c = d ∧ rest = other := by
  have valid (e : Char) : e.toNat < 0xD800 ∨ 0xDFFF < e.toNat ∧ e.toNat < 0x110000 := e.valid
  have hc := valid c
  have hd := valid d
  have same : c.toNat = d.toNat ∧ rest = other := by
    unfold codeUnits at h
    split at h <;> split at h <;>
      simp only [List.cons_append, List.nil_append, List.cons.injEq] at h
    · exact h
    · omega
    · omega
    · exact ⟨by omega, h.2.2⟩
  exact ⟨Char.toNat_inj.mp same.1, same.2⟩

theorem textUnits_inj {text word : List Char} (h : textUnits text = textUnits word) :
    text = word := by
  have ne_nil (c : Char) (rest : List Nat) : codeUnits c.toNat ++ rest ≠ [] := by
    unfold codeUnits
    split <;> simp
  unfold textUnits at h
  induction text generalizing word with
  | nil =>
    cases word with
    | nil => rfl
    | cons d word => exact absurd h.symm (ne_nil d _)
  | cons c text ih =>
    cases word with
    | nil => exact absurd h (ne_nil c _)
    | cons d word =>
      obtain ⟨rfl, tail⟩ := codeUnits_append_inj h
      rw [ih tail]

/-! ## The grammar of string literals -/

/-- The characters that end a line, of which the last two may stand in a literal. -/
def isLineTerminator (c : Char) : Bool :=
  c == '\n' || c == '\r' || c == '\u2028' || c == '\u2029'

/-- What stands for a code unit after a backslash. -/
def singleEscape? (c : Char) : Option Nat :=
  [('\x27', 0x27), ('\x22', 0x22), ('\\', 0x5C), ('b', 0x08), ('f', 0x0C), ('n', 0x0A),
    ('r', 0x0D), ('t', 0x09), ('v', 0x0B)].lookup c

/-- The characters that start an escape of their own. -/
def isEscapeCharacter (c : Char) : Bool :=
  (singleEscape? c).isSome || c.isDigit || c == 'x' || c == 'u'

def hexDigit? (c : Char) : Option Nat :=
  if c.isDigit then some (c.toNat - '0'.toNat)
  else if 'a' ≤ c ∧ c ≤ 'f' then some (c.toNat - 'a'.toNat + 10)
  else if 'A' ≤ c ∧ c ≤ 'F' then some (c.toNat - 'A'.toNat + 10)
  else none

def hexValue? (digits : List Char) : Option Nat :=
  digits.foldlM (fun value c => (hexDigit? c).map (16 * value + ·)) 0

/-- What follows a backslash, the code units it stands for, and what comes after it. Digits other
than a lone zero are left out, as a module is strict code. -/
inductive Escape : List Char → List Nat → List Char → Prop
  | single {c : Char} {unit : Nat} {rest : List Char} : singleEscape? c = some unit →
      Escape (c :: rest) [unit] rest
  | itself {c : Char} {rest : List Char} : ¬ isEscapeCharacter c → ¬ isLineTerminator c →
      Escape (c :: rest) (codeUnits c.toNat) rest
  | zero {rest : List Char} : rest.head?.any Char.isDigit = false → Escape ('0' :: rest) [0] rest
  | hex {digits : List Char} {unit : Nat} {rest : List Char} : digits.length = 2 →
      hexValue? digits = some unit → Escape ('x' :: (digits ++ rest)) [unit] rest
  | unicode {digits : List Char} {unit : Nat} {rest : List Char} : digits.length = 4 →
      hexValue? digits = some unit → Escape ('u' :: (digits ++ rest)) [unit] rest
  | codePoint {digits : List Char} {point : Nat} {rest : List Char} : digits ≠ [] →
      hexValue? digits = some point → point ≤ 0x10FFFF →
      Escape ('u' :: '\x7b' :: (digits ++ '\x7d' :: rest)) (codeUnits point) rest
  | newline {c : Char} {rest : List Char} : isLineTerminator c →
      (c = '\r' → rest.head? ≠ some '\n') → Escape (c :: rest) [] rest
  | newlinePair {rest : List Char} : Escape ('\r' :: '\n' :: rest) [] rest

/-- The characters of a literal up to its closing quote, their value, and what comes after it. -/
inductive StringCharacters : List Char → List Nat → List Char → Prop
  | close {rest : List Char} : StringCharacters ('\x22' :: rest) [] rest
  | source {c : Char} {chars rest : List Char} {value : List Nat} : c ≠ '\x22' → c ≠ '\\' →
      c ≠ '\n' → c ≠ '\r' → StringCharacters chars value rest →
      StringCharacters (c :: chars) (codeUnits c.toNat ++ value) rest
  | escape {chars more rest : List Char} {units value : List Nat} : Escape chars units more →
      StringCharacters more value rest →
      StringCharacters ('\\' :: chars) (units ++ value) rest

/-- A text starts with a string literal of this value, and goes on after it. -/
def StringLiteral (text : List Char) (value : List Nat) (rest : List Char) : Prop :=
  ∃ chars, text = '\x22' :: chars ∧ StringCharacters chars value rest

/-! ## Printed literals -/

/-- A text without line feeds and carriage returns. -/
def OnOneLine (text : List Char) : Prop := ∀ c ∈ text, c ≠ '\n' ∧ c ≠ '\r'

/-- An escaped backslash or quote stands for itself, and nothing else can be read there. -/
theorem escape_iff_of_single {c : Char} {chars : List Char} {units : List Nat} {more : List Char}
    (special : c = '\\' ∨ c = '\x22') :
    Escape (c :: chars) units more ↔ units = codeUnits c.toNat ∧ more = chars := by
  have table : singleEscape? c = some c.toNat ∧ codeUnits c.toNat = [c.toNat] := by
    rcases special with rfl | rfl <;> decide
  constructor
  · intro h
    cases h with
    | single found =>
      rw [table.1] at found
      cases found
      exact ⟨table.2.symm, rfl⟩
    | itself other => exact absurd (by simp [isEscapeCharacter, table.1]) other
    | zero | hex | unicode | codePoint | newlinePair => simp at special
    | newline ends => rcases special with rfl | rfl <;> exact absurd ends (by decide)
  · rintro ⟨rfl, rfl⟩
    rw [table.2]
    exact .single table.1

theorem stringCharacters_close_iff {rest after : List Char} {value : List Nat} :
    StringCharacters ('\x22' :: rest) value after ↔ value = [] ∧ after = rest := by
  constructor
  · intro h
    cases h with
    | close => exact ⟨rfl, rfl⟩
    | source quote => exact absurd rfl quote
  · rintro ⟨rfl, rfl⟩
    exact .close

/-- A printed character is read back as its own code units, if it does not break the line. -/
theorem stringCharacters_escapeChar_iff {c : Char} {chars after : List Char} {value : List Nat} :
    StringCharacters (escapeChar c ++ chars) value after ↔
      (c ≠ '\n' ∧ c ≠ '\r') ∧
        ∃ more, value = codeUnits c.toNat ++ more ∧ StringCharacters chars more after := by
  by_cases special : c = '\\' ∨ c = '\x22'
  · have printed : escapeChar c ++ chars = '\\' :: c :: chars := by
      rcases special with rfl | rfl <;> rfl
    have unbroken : c ≠ '\n' ∧ c ≠ '\r' := by rcases special with rfl | rfl <;> decide
    rw [printed]
    constructor
    · intro h
      cases h with
      | source _ backslash => exact absurd rfl backslash
      | escape escaped later =>
        obtain ⟨rfl, rfl⟩ := (escape_iff_of_single special).mp escaped
        exact ⟨unbroken, _, rfl, later⟩
    · rintro ⟨-, more, rfl, later⟩
      exact .escape ((escape_iff_of_single special).mpr ⟨rfl, rfl⟩) later
  · obtain ⟨backslash, quote⟩ := not_or.mp special
    have printed : escapeChar c ++ chars = c :: chars := by
      rw [escapeChar, if_neg backslash, if_neg quote]
      rfl
    rw [printed]
    constructor
    · intro h
      cases h with
      | close => exact absurd rfl quote
      | source _ _ feed carriage later => exact ⟨⟨feed, carriage⟩, _, rfl, later⟩
      | escape => exact absurd rfl backslash
    · rintro ⟨⟨feed, carriage⟩, more, rfl, later⟩
      exact .source quote backslash feed carriage later

theorem stringCharacters_escaped_iff {text rest after : List Char} {value : List Nat} :
    StringCharacters (text.flatMap escapeChar ++ '\x22' :: rest) value after ↔
      OnOneLine text ∧ value = textUnits text ∧ after = rest := by
  induction text generalizing value with
  | nil => simpa [OnOneLine, textUnits] using stringCharacters_close_iff
  | cons c text ih =>
    rw [List.flatMap_cons, List.append_assoc, stringCharacters_escapeChar_iff]
    simp only [ih, OnOneLine, List.forall_mem_cons, textUnits, List.flatMap_cons]
    constructor
    · rintro ⟨unbroken, more, rfl, later, rfl, rfl⟩
      exact ⟨⟨unbroken, later⟩, rfl, rfl⟩
    · rintro ⟨⟨unbroken, later⟩, rfl, rfl⟩
      exact ⟨unbroken, _, rfl, later, rfl, rfl⟩

/-- What stands after a literal does not matter to how it is read. -/
theorem stringLiteral_quoted_iff {text : String} {rest after : List Char} {value : List Nat} :
    StringLiteral ((quoted text).toList ++ rest) value after ↔
      OnOneLine text.toList ∧ value = textUnits text.toList ∧ after = rest := by
  rw [← stringCharacters_escaped_iff]
  simp [StringLiteral, toList_quoted]

/-- The texts that are printed for a string as a literal: as a type, as an expression, as the key
of a property, in a list of literals and as the name of a validator. -/
inductive PrintsLiteral (text : String) : String → Prop
  | type (level : Nat) : PrintsLiteral text ((Ty.literal text).print level)
  | expression : PrintsLiteral text (Expr.literal text).print
  | key : ¬ isIdentifier text → PrintsLiteral text (key text)
  | item : PrintsLiteral text (Validator.quotedList [text])
  | name {level : Nat} {printed : String} :
      (Validator.named text).print level = "tType(" ++ printed ++ ")" → PrintsLiteral text printed

theorem eq_quoted_of_prints {text printed : String} (prints : PrintsLiteral text printed) :
    printed = quoted text := by
  cases prints with
  | type => rw [Ty.print]
  | expression => rw [Expr.print]
  | key other => rw [key, if_neg other]
  | item => simp [Validator.quotedList]
  | name h =>
    rw [Validator.print] at h
    simpa [← String.toList_inj] using h.symm

/-- A printed literal is one exactly if its text has no line feed and no carriage return, which
are printed as they are. It then denotes the text and no other one, and it ends with its last
character, whatever comes after it. The items of a list are printed as they are on their own. -/
theorem printed_literal_denotes_iff (text : String) :
    (∀ printed, PrintsLiteral text printed → ∀ rest value after,
      StringLiteral (printed.toList ++ rest) value after ↔
        OnOneLine text.toList ∧ value = textUnits text.toList ∧ after = rest) ∧
    (∀ word : String, textUnits word.toList = textUnits text.toList → word = text) ∧
    ∀ texts, Validator.quotedList texts =
      ", ".intercalate (texts.map fun item => Validator.quotedList [item]) := by
  refine ⟨fun printed prints rest value after => ?_, fun word same => ?_, fun texts => ?_⟩
  · rw [eq_quoted_of_prints prints]
    exact stringLiteral_quoted_iff
  · exact String.toList_inj.mp (textUnits_inj same)
  · simp [Validator.quotedList]

/-- A key with a quote, a backslash, a line separator and a pair of surrogates. -/
theorem oddKey_denoted :
    PrintsLiteral "\"\\\u2028😀" (key "\"\\\u2028😀") ∧
      StringLiteral ((key "\"\\\u2028😀").toList ++ [':'])
        [0x22, 0x5C, 0x2028, 0xD83D, 0xDE00] [':'] := by
  have prints : PrintsLiteral "\"\\\u2028😀" (key "\"\\\u2028😀") := .key (by decide)
  refine ⟨prints, ((printed_literal_denotes_iff _).1 _ prints ..).mpr ⟨?_, by decide, rfl⟩⟩
  simp [OnOneLine]

/-- A line feed breaks the literal. -/
theorem brokenLine_not_denoted :
    ¬ ∃ value after, StringLiteral ((Ty.literal "a\nb").print 0).toList value after := by
  rintro ⟨value, after, h⟩
  rw [Ty.print, ← List.append_nil (quoted _).toList, stringLiteral_quoted_iff] at h
  exact (h.1 '\n' (by decide)).1 rfl

end ChannelProtocol.TypeScript
