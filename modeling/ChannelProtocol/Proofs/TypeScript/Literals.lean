-- String literals, lists of them, words and object keys show where they end: whatever
-- follows them, the text in them can be told, and so can what follows.
import ChannelProtocol.TypeScript.Printer

namespace ChannelProtocol.TypeScript

variable {rest other : List Char}

/-! ## String literals -/

theorem escapeChar_append_inj {c d : Char}
    (h : escapeChar c ++ rest = escapeChar d ++ other) : c = d ∧ rest = other := by
  unfold escapeChar at h
  -- What is escaped starts with a backslash, and then the character itself comes second.
  by_cases hc : c = '\\' ∨ c = '\x22' <;> by_cases hd : d = '\\' ∨ d = '\x22'
  · rcases hc with rfl | rfl <;> rcases hd with rfl | rfl <;> simp_all
  · rcases hc with rfl | rfl <;> simp_all [eq_comm]
  · rcases hd with rfl | rfl <;> simp_all
  · simp_all

/-- No quote stands unescaped inside a literal. -/
theorem escapeChar_append_ne (c : Char) : escapeChar c ++ rest ≠ '\x22' :: other := by
  unfold escapeChar
  split
  · simp
  · split <;> simp_all

/-- The text of a literal ends at the first quote that is not escaped. -/
theorem escaped_append_inj (text word : List Char)
    (h : text.flatMap escapeChar ++ '\x22' :: rest = word.flatMap escapeChar ++ '\x22' :: other) :
    text = word ∧ rest = other := by
  induction text generalizing word with
  | nil =>
    cases word with
    | nil => simpa using h
    | cons d word =>
      rw [List.flatMap_cons, List.append_assoc] at h
      exact absurd h.symm (escapeChar_append_ne d)
  | cons c text ih =>
    cases word with
    | nil =>
      rw [List.flatMap_cons, List.append_assoc] at h
      exact absurd h (escapeChar_append_ne c)
    | cons d word =>
      rw [List.flatMap_cons, List.flatMap_cons, List.append_assoc, List.append_assoc] at h
      obtain ⟨rfl, tail⟩ := escapeChar_append_inj h
      obtain ⟨rfl, rfl⟩ := ih word tail
      exact ⟨rfl, rfl⟩

theorem toList_quoted (text : String) :
    (quoted text).toList = '\x22' :: (text.toList.flatMap escapeChar ++ ['\x22']) := by
  simp [quoted, escape]

theorem quoted_append_inj {text word : String}
    (h : (quoted text).toList ++ rest = (quoted word).toList ++ other) :
    text = word ∧ rest = other := by
  simp only [toList_quoted, List.cons_append, List.append_assoc, List.nil_append,
    List.cons.injEq, true_and] at h
  obtain ⟨same, h⟩ := escaped_append_inj _ _ h
  exact ⟨String.toList_inj.mp same, h⟩

/-! ## Lists of literals -/

theorem intercalate_quoted_cons (separator text : String) (texts : List String) :
    (separator.intercalate ((text :: texts).map quoted)).toList =
      (quoted text).toList ++
        texts.flatMap fun next => separator.toList ++ (quoted next).toList := by
  induction texts generalizing text with
  | nil => simp
  | cons next texts ih =>
    have step : separator.intercalate ((text :: next :: texts).map quoted) =
        quoted text ++ separator ++ separator.intercalate ((next :: texts).map quoted) := by
      simp [String.intercalate_cons_cons]
    rw [step, String.toList_append, ih]
    simp

/-- The literals behind the first one go on as long as a separator follows. -/
theorem moreQuoted_append_inj {separator : List Char} (hr : ¬ separator <+: rest)
    (ho : ¬ separator <+: other) (texts words : List String)
    (h : (texts.flatMap fun next => separator ++ (quoted next).toList) ++ rest =
      (words.flatMap fun next => separator ++ (quoted next).toList) ++ other) :
    texts = words ∧ rest = other := by
  induction texts generalizing words with
  | nil =>
    cases words with
    | nil => simpa using h
    | cons word words => exact absurd ⟨_, by simpa using h.symm⟩ hr
  | cons text texts ih =>
    cases words with
    | nil => exact absurd ⟨_, by simpa using h⟩ ho
    | cons word words =>
      simp only [List.flatMap_cons, List.append_assoc, List.append_cancel_left_eq] at h
      obtain ⟨rfl, more⟩ := quoted_append_inj h
      obtain ⟨rfl, rfl⟩ := ih words more
      exact ⟨rfl, rfl⟩

/-- A list of literals ends where neither a separator nor, if it is empty, a quote follows. -/
theorem intercalate_quoted_append_inj {separator : String} {texts words : List String}
    (hr : ¬ separator.toList <+: rest) (ho : ¬ separator.toList <+: other)
    (hr' : rest.head? ≠ some '\x22') (ho' : other.head? ≠ some '\x22')
    (h : (separator.intercalate (texts.map quoted)).toList ++ rest =
      (separator.intercalate (words.map quoted)).toList ++ other) :
    texts = words ∧ rest = other := by
  cases texts with
  | nil =>
    cases words with
    | nil => simpa using h
    | cons word words =>
      rw [intercalate_quoted_cons, toList_quoted] at h
      simp only [List.map_nil, String.intercalate_nil, String.toList_empty, List.nil_append] at h
      simp [h] at hr'
  | cons text texts =>
    cases words with
    | nil =>
      rw [intercalate_quoted_cons, toList_quoted] at h
      simp only [List.map_nil, String.intercalate_nil, String.toList_empty, List.nil_append] at h
      simp [← h] at ho'
    | cons word words =>
      rw [intercalate_quoted_cons, intercalate_quoted_cons, List.append_assoc,
        List.append_assoc] at h
      obtain ⟨rfl, more⟩ := quoted_append_inj h
      obtain ⟨rfl, rfl⟩ := moreQuoted_append_inj hr ho texts words more
      exact ⟨rfl, rfl⟩

/-! ## Words and keys -/

/-- A word goes on up to the first character that cannot be in one. -/
theorem word_append_inj {isPart : Char → Bool} {word name : List Char}
    (hw : ∀ c ∈ word, isPart c) (hn : ∀ c ∈ name, isPart c) (hr : rest.head?.any isPart = false)
    (ho : other.head?.any isPart = false) (h : word ++ rest = name ++ other) :
    word = name ∧ rest = other := by
  have upTo {chars tail : List Char} (hc : ∀ c ∈ chars, isPart c)
      (ht : tail.head?.any isPart = false) : (chars ++ tail).takeWhile isPart = chars := by
    rw [List.takeWhile_append_of_pos hc]
    cases tail with
    | nil => simp
    | cons c tail => rw [List.takeWhile_cons_of_neg (by simpa using ht), List.append_nil]
  have same := congrArg (List.takeWhile isPart) h
  rw [upTo hw hr, upTo hn ho] at same
  subst same
  exact ⟨rfl, List.append_cancel_left h⟩

theorem isIdentifierPart_of_start {c : Char} (h : isIdentifierStart c) : isIdentifierPart c := by
  simp only [isIdentifierStart, isIdentifierPart, Char.isAlphanum, Bool.or_eq_true] at h ⊢
  rcases h with (letter | underscore) | dollar
  · exact .inl (.inl (.inl letter))
  · exact .inl (.inr underscore)
  · exact .inr dollar

theorem isIdentifierPart_of_mem {name : String} (h : isIdentifier name) {c : Char}
    (mem : c ∈ name.toList) : isIdentifierPart c := by
  unfold isIdentifier at h
  split at h
  · cases h
  · rename_i d tail chars
    rw [chars] at mem
    simp only [Bool.and_eq_true, List.all_eq_true] at h
    rcases List.mem_cons.mp mem with rfl | mem
    · exact isIdentifierPart_of_start h.1
    · exact h.2 c mem

theorem identifier_append_inj {name word : String} (hn : isIdentifier name)
    (hw : isIdentifier word) (hr : rest.head?.any isIdentifierPart = false)
    (ho : other.head?.any isIdentifierPart = false)
    (h : name.toList ++ rest = word.toList ++ other) : name = word ∧ rest = other := by
  obtain ⟨same, tail⟩ := word_append_inj (fun _ => isIdentifierPart_of_mem hn)
    (fun _ => isIdentifierPart_of_mem hw) hr ho h
  exact ⟨String.toList_inj.mp same, tail⟩

/-- A literal starts with a quote, and an identifier does not. -/
theorem identifier_append_ne_quoted {name text : String} (hn : isIdentifier name) :
    name.toList ++ rest ≠ (quoted text).toList ++ other := by
  intro h
  rw [toList_quoted] at h
  cases chars : name.toList with
  | nil => simp [isIdentifier, chars] at hn
  | cons c tail =>
    have part := isIdentifierPart_of_mem hn (c := c) (by simp [chars])
    rw [chars, List.cons_append, List.cons_append, List.cons.injEq] at h
    rw [h.1] at part
    exact absurd part (by decide)

/-- A key ends where no character of an identifier follows, whether it is quoted or not. -/
theorem key_append_inj {name word : String} (hr : rest.head?.any isIdentifierPart = false)
    (ho : other.head?.any isIdentifierPart = false)
    (h : (key name).toList ++ rest = (key word).toList ++ other) : name = word ∧ rest = other := by
  unfold key at h
  split at h
  · rename_i hn
    split at h
    · rename_i hw
      exact identifier_append_inj hn hw hr ho h
    · exact absurd h (identifier_append_ne_quoted hn)
  · split at h
    · rename_i hw
      exact absurd h.symm (identifier_append_ne_quoted hw)
    · exact quoted_append_inj h

/-! ## Lines -/

/-- A level goes two blanks further in than the one before. -/
theorem indentation_succ (level : Nat) :
    (indentation (level + 1)).toList = (indentation level).toList ++ [' ', ' '] := by
  have more : 2 * (level + 1) = 2 * level + 2 := by omega
  rw [indentation, indentation, String.toList_ofList, String.toList_ofList, more,
    ← List.replicate_append_replicate]
  rfl

end ChannelProtocol.TypeScript
