import RunMetrics.Json.Lexeme

/-!
Strings and the letters between their quotes. A character may stand for itself or behind a backslash, and
in more than one way; the reader gets the same characters from all of them. What is written is one of
these ways.
-/

set_option autoImplicit false

namespace RunMetrics.Json

/-- The letters spell the characters. An escape of four hex digits stands for a Unicode scalar value,
alone or as a pair of surrogates. -/
inductive Letters : List Char → List Char → Prop where
  | nil : Letters [] []
  | plain {c : Char} {letters chars : List Char} (no_quote : c ≠ '"') (no_backslash : c ≠ '\\')
      (no_control : 0x20 ≤ c.toNat) (more : Letters letters chars) :
      Letters (c :: letters) (c :: chars)
  | short {c value : Char} {letters chars : List Char} (stands : shortEscape? c = some value)
      (more : Letters letters chars) : Letters ('\\' :: c :: letters) (value :: chars)
  | unicode {a b c d : Char} {n : Nat} {letters chars : List Char}
      (digits : hexQuad? a b c d = some n) (no_low : isLowSurrogate n = false)
      (no_high : isHighSurrogate n = false) (more : Letters letters chars) :
      Letters ('\\' :: 'u' :: a :: b :: c :: d :: letters) (Char.ofNat n :: chars)
  | pair {a b c d a' b' c' d' : Char} {high low : Nat} {letters chars : List Char}
      (first : hexQuad? a b c d = some high) (second : hexQuad? a' b' c' d' = some low)
      (is_high : isHighSurrogate high = true) (is_low : isLowSurrogate low = true)
      (more : Letters letters chars) :
      Letters ('\\' :: 'u' :: a :: b :: c :: d :: '\\' :: 'u' :: a' :: b' :: c' :: d' :: letters)
        (pairedChar high low :: chars)

/-! ### Escapes -/

theorem hexQuad_digits {a b c d : Char} {n : Nat} (digits : hexQuad? a b c d = some n)
    (rest : List Char) : hexQuad (a :: b :: c :: d :: rest) = .ok (n, rest) := by
  rw [hexQuad, digits]

theorem shortEscape?_u : shortEscape? 'u' = none := rfl

theorem ne_u_of_shortEscape? {c value : Char} (stands : shortEscape? c = some value) : c ≠ 'u' := by
  rintro rfl
  rw [shortEscape?_u] at stands
  cases stands

theorem escape_short {c value : Char} (stands : shortEscape? c = some value) (rest : List Char) :
    escape (c :: rest) = .ok (value, rest) := by
  simp only [escape, ne_u_of_shortEscape? stands, ↓reduceIte, stands]

theorem skipEscape_short {c value : Char} (stands : shortEscape? c = some value)
    (rest : List Char) : skipEscape (c :: rest) = .ok rest := by
  simp only [skipEscape, ne_u_of_shortEscape? stands, ↓reduceIte, stands]

theorem escape_unicode {a b c d : Char} {n : Nat} (digits : hexQuad? a b c d = some n)
    (no_low : isLowSurrogate n = false) (no_high : isHighSurrogate n = false) (rest : List Char) :
    escape ('u' :: a :: b :: c :: d :: rest) = .ok (Char.ofNat n, rest) := by
  simp only [escape, unicodeEscape, hexQuad_digits digits, bind, Except.bind, no_low, no_high,
    Bool.false_eq_true, ↓reduceIte]

theorem skipEscape_unicode {a b c d : Char} {n : Nat} (digits : hexQuad? a b c d = some n)
    (rest : List Char) : skipEscape ('u' :: a :: b :: c :: d :: rest) = .ok rest := by
  simp only [skipEscape, hexQuad_digits digits, bind, Except.bind, ↓reduceIte]

/-- A number cannot be both surrogates. -/
theorem not_isLowSurrogate_of_isHighSurrogate {n : Nat} (is_high : isHighSurrogate n = true) :
    isLowSurrogate n = false := by
  simp only [isHighSurrogate, decide_eq_true_eq] at is_high
  exact decide_eq_false (by omega)

theorem escape_pair {a b c d a' b' c' d' : Char} {high low : Nat}
    (first : hexQuad? a b c d = some high) (second : hexQuad? a' b' c' d' = some low)
    (is_high : isHighSurrogate high = true) (is_low : isLowSurrogate low = true)
    (rest : List Char) :
    escape ('u' :: a :: b :: c :: d :: '\\' :: 'u' :: a' :: b' :: c' :: d' :: rest) =
      .ok (pairedChar high low, rest) := by
  simp only [escape, unicodeEscape, hexQuad_digits first, hexQuad_digits second, bind, Except.bind,
    not_isLowSurrogate_of_isHighSurrogate is_high, is_high, is_low, Bool.false_eq_true, ↓reduceIte]

/-! ### Reading -/

theorem stringChars_escape {c : Char} {letters rest chars behind : List Char} {left : Nat}
    (escaped : escape letters = .ok (c, rest))
    (others : stringChars left rest = .ok (chars, behind)) :
    stringChars (left + 1) ('\\' :: letters) = .ok (c :: chars, behind) := by
  rw [stringChars, if_neg (by decide), if_pos rfl, escaped]
  simp only [bind, Except.bind, others]

theorem skipStringChars_escape {letters rest : List Char} {left : Nat}
    (escaped : skipEscape letters = .ok rest) :
    skipStringChars (left + 1) ('\\' :: letters) = skipStringChars left rest := by
  rw [skipStringChars, if_neg (by decide), if_pos rfl, escaped]
  rfl

namespace Letters

variable {letters chars : List Char}

/-- As many letters as there are, and one for the quote, are enough to count. -/
theorem stringChars (spelled : Letters letters chars) {left : Nat} (enough : letters.length < left)
    (rest : List Char) : stringChars left (letters ++ '"' :: rest) = .ok (chars, rest) := by
  induction spelled generalizing left with
  | nil =>
    obtain ⟨left, rfl⟩ := Nat.exists_eq_add_of_lt enough
    rw [List.nil_append, Json.stringChars, if_pos rfl]
  | plain no_quote no_backslash no_control more ih =>
    obtain ⟨left, rfl⟩ := Nat.exists_eq_add_of_lt enough
    rw [List.cons_append, Json.stringChars, if_neg no_quote, if_neg no_backslash,
      if_neg (Nat.not_lt.2 no_control), ih (by rw [List.length_cons]; omega)]
    rfl
  | short stands more ih =>
    obtain ⟨left, rfl⟩ := Nat.exists_eq_add_of_lt enough
    exact stringChars_escape (escape_short stands _) (ih (by simp only [List.length_cons]; omega))
  | unicode digits no_low no_high more ih =>
    obtain ⟨left, rfl⟩ := Nat.exists_eq_add_of_lt enough
    exact stringChars_escape (escape_unicode digits no_low no_high _)
      (ih (by simp only [List.length_cons]; omega))
  | pair first second is_high is_low more ih =>
    obtain ⟨left, rfl⟩ := Nat.exists_eq_add_of_lt enough
    exact stringChars_escape (escape_pair first second is_high is_low _)
      (ih (by simp only [List.length_cons]; omega))

/-- A string is read behind its opening quote, however it is spelled. -/
theorem string {s : String} (spelled : Letters letters s.toList) (rest : List Char) :
    string (letters ++ '"' :: rest) = .ok (s, rest) := by
  have enough : letters.length < (letters ++ '"' :: rest).length := by
    rw [List.length_append, List.length_cons]
    omega
  rw [Json.string, spelled.stringChars enough]
  simp only [bind, Except.bind, String.ofList_toList]

theorem skipStringChars (spelled : Letters letters chars) {left : Nat}
    (enough : letters.length < left) (rest : List Char) :
    skipStringChars left (letters ++ '"' :: rest) = .ok rest := by
  induction spelled generalizing left with
  | nil =>
    obtain ⟨left, rfl⟩ := Nat.exists_eq_add_of_lt enough
    rw [List.nil_append, Json.skipStringChars, if_pos rfl]
  | plain no_quote no_backslash no_control more ih =>
    obtain ⟨left, rfl⟩ := Nat.exists_eq_add_of_lt enough
    rw [List.cons_append, Json.skipStringChars, if_neg no_quote, if_neg no_backslash,
      if_neg (Nat.not_lt.2 no_control)]
    exact ih (by rw [List.length_cons]; omega)
  | short stands more ih =>
    obtain ⟨left, rfl⟩ := Nat.exists_eq_add_of_lt enough
    exact (skipStringChars_escape (skipEscape_short stands _)).trans
      (ih (by simp only [List.length_cons]; omega))
  | unicode digits no_low no_high more ih =>
    obtain ⟨left, rfl⟩ := Nat.exists_eq_add_of_lt enough
    exact (skipStringChars_escape (skipEscape_unicode digits _)).trans
      (ih (by simp only [List.length_cons]; omega))
  | pair first second is_high is_low more ih =>
    -- The two surrogates are passed over one after the other.
    simp only [List.length_cons] at enough
    obtain ⟨left, rfl⟩ := Nat.exists_eq_add_of_le (Nat.le_trans (by omega : 2 ≤ _) enough)
    rw [Nat.add_comm]
    exact (skipStringChars_escape (skipEscape_unicode first _)).trans
      ((skipStringChars_escape (skipEscape_unicode second _)).trans (ih (by omega)))

theorem skipString (spelled : Letters letters chars) (rest : List Char) :
    skipString (letters ++ '"' :: rest) = .ok rest :=
  spelled.skipStringChars (by rw [List.length_append, List.length_cons]; omega) rest

end Letters

/-! ### Writing -/

theorem hexValue?_hexDigit {n : Nat} (small : n < 16) : hexValue? (Text.hexDigit n) = some n := by
  have digit : ∀ m < 16, hexValue? (Text.hexDigit m) = some m := by decide
  exact digit n small

/-- A control character is spelled by four hex digits, of which the first two are zeros. -/
theorem hexQuad?_control {c : Char} (control : c.toNat < 0x20) :
    hexQuad? '0' '0' (Text.hexDigit (c.toNat / 16)) (Text.hexDigit (c.toNat % 16)) =
      some c.toNat := by
  have zero : hexValue? '0' = some 0 := rfl
  have high : hexValue? (Text.hexDigit (c.toNat / 16)) = some (c.toNat / 16) :=
    hexValue?_hexDigit (by omega)
  have low : hexValue? (Text.hexDigit (c.toNat % 16)) = some (c.toNat % 16) :=
    hexValue?_hexDigit (by omega)
  have value : ((0 * 16 + 0) * 16 + c.toNat / 16) * 16 + c.toNat % 16 = c.toNat := by omega
  simp only [hexQuad?, zero, high, low, value]

theorem Letters.written {letters chars : List Char} (c : Char) (more : Letters letters chars) :
    Letters (writtenChar c ++ letters) (c :: chars) := by
  unfold writtenChar
  split
  case h_8 no_quote no_backslash _ _ _ _ _ =>
    split
    · rename_i control
      have no_low : isLowSurrogate c.toNat = false := decide_eq_false (by omega)
      have no_high : isHighSurrogate c.toNat = false := decide_eq_false (by omega)
      have spelled := Letters.unicode (hexQuad?_control control) no_low no_high more
      rwa [Char.ofNat_toNat] at spelled
    · rename_i shown
      exact .plain no_quote no_backslash (Nat.not_lt.1 shown) more
  all_goals exact .short rfl more

theorem letters_written (cs : List Char) : Letters (cs.flatMap writtenChar) cs := by
  induction cs with
  | nil => exact .nil
  | cons c cs ih =>
    rw [List.flatMap_cons]
    exact ih.written c

/-- A written string is read back behind its opening quote. -/
theorem string_written (s : String) (rest : List Char) :
    string (s.toList.flatMap writtenChar ++ '"' :: rest) = .ok (s, rest) :=
  (letters_written s.toList).string rest

end RunMetrics.Json
