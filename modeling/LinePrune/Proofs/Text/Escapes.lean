import LinePrune.Text.Quoted
import LinePrune.Toml.Digits
import Mathlib.Data.List.Basic

namespace LinePrune.Text

section CodePoints

/-- The number that hexadecimal digits stand for. -/
def numberOfDigits (digits : List Char) : Nat :=
  Toml.valueOfDigits 16 (digits.filterMap (Toml.digit? 16))

theorem digit?_digitChar {digit : Nat} (small : digit < 16) :
    Toml.digit? 16 digit.digitChar = some digit := by
  have each : ∀ digit < 16, Toml.digit? 16 (Nat.digitChar digit) = some digit := by decide
  exact each digit small

theorem numberOfDigits_toDigits (number : Nat) :
    numberOfDigits (Nat.toDigits 16 number) = number := by
  induction number using Nat.base_induction 16 (by decide) with
  | single number small =>
      simp [numberOfDigits, Nat.toDigits_of_lt_base small, digit?_digitChar small,
        Toml.valueOfDigits]
  | digit leading last small positive ih =>
      rw [numberOfDigits, Toml.valueOfDigits] at ih
      rw [← Nat.toDigits_append_toDigits (by decide) positive small,
        Nat.toDigits_of_lt_base small, numberOfDigits, Toml.valueOfDigits, List.filterMap_append,
        List.foldl_append, ih]
      simp [digit?_digitChar small]

theorem isAlphanum_of_mem_toDigits {number : Nat} {c : Char}
    (member : c ∈ Nat.toDigits 16 number) : c.isAlphanum = true := by
  have each : ∀ digit < 16, (Nat.digitChar digit).isAlphanum = true := by decide
  induction number using Nat.base_induction 16 (by decide) with
  | single number small =>
      rw [Nat.toDigits_of_lt_base small, List.mem_singleton] at member
      exact member ▸ each number small
  | digit leading last small positive ih =>
      rw [← Nat.toDigits_append_toDigits (by decide) positive small,
        Nat.toDigits_of_lt_base small, List.mem_append, List.mem_singleton] at member
      rcases member with before | rfl
      · exact ih before
      · exact each last small

/-- Letters and digits end no line. -/
theorem ne_terminator_of_isAlphanum {c : Char} (alphanumeric : c.isAlphanum = true) :
    c ≠ '\n' ∧ c ≠ '\r' :=
  ⟨ne_of_apply_ne Char.isAlphanum (by simp [alphanumeric]),
    ne_of_apply_ne Char.isAlphanum (by simp [alphanumeric])⟩

theorem ne_terminator_of_mem_toDigits (number : Nat) :
    ∀ c ∈ Nat.toDigits 10 number, c ≠ '\n' ∧ c ≠ '\r' := by
  intro c member
  have decimal : c.isDigit = true := Nat.isDigit_of_mem_toDigits (by decide) (by decide) member
  exact ne_terminator_of_isAlphanum (by simp [Char.isAlphanum, decimal])

end CodePoints

/-- The character that a mark behind a backslash stands for. -/
def ofMark? : Char → Option Char
  | '0' => some '\x00'
  | 't' => some '\t'
  | 'r' => some '\r'
  | 'n' => some '\n'
  | '"' => some '"'
  | '\\' => some '\\'
  | _ => none

/-- The first escape is read, and the characters behind it are left. -/
def unescape? : List Char → Option (Char × List Char)
  | [] => none
  | '\\' :: 'u' :: '\x7b' :: rest =>
      some (Char.ofNat (numberOfDigits (rest.takeWhile (· ≠ '\x7d'))),
        (rest.dropWhile (· ≠ '\x7d')).drop 1)
  | '\\' :: mark :: rest => (ofMark? mark).map fun c => (c, rest)
  | c :: rest => some (c, rest)

/-- The digits of a code point end at the first brace behind them. -/
theorem unescape?_codePointEscape (c : Char) (rest : List Char) :
    unescape? (codePointEscape c ++ rest) = some (c, rest) := by
  have digits : ∀ d ∈ Nat.toDigits 16 c.toNat, decide (d ≠ '\x7d') = true := by
    intro d member
    rw [decide_eq_true_iff]
    intro isBrace
    have alphanumeric := isAlphanum_of_mem_toDigits member
    rw [isBrace] at alphanumeric
    contradiction
  simp only [codePointEscape, List.append_assoc, List.cons_append, List.nil_append, unescape?]
  rw [List.takeWhile_append_of_pos digits, List.dropWhile_append_of_pos digits]
  simp [numberOfDigits_toDigits]

/-- No escape goes on with the characters that follow it. -/
theorem unescape?_escape (c : Char) (rest : List Char) :
    unescape? (escape c ++ rest) = some (c, rest) := by
  fun_cases escape c with
  | case7 => exact unescape?_codePointEscape c rest
  | case8 _ _ _ _ _ notBackslash =>
      rw [List.singleton_append, unescape?]
      · exact fun _ same => absurd same notBackslash
      · exact fun _ _ same => absurd same notBackslash
  | _ =>
      subst_vars
      rfl

/-- An escape cannot be taken for the end of a quotation. -/
theorem escape_append_ne_quote (c : Char) (rest others : List Char) :
    escape c ++ rest ≠ '"' :: others := by
  fun_cases escape c with
  | case7 => simp [codePointEscape]
  | case8 _ _ _ _ notQuote => simp [notQuote]
  | _ => simp

/-- An escape stays on its line. -/
theorem ne_terminator_of_mem_escape (c : Char) : ∀ d ∈ escape c, d ≠ '\n' ∧ d ≠ '\r' := by
  fun_cases escape c with
  | case7 =>
      intro d member
      simp only [codePointEscape, List.cons_append, List.nil_append, List.mem_cons,
        List.mem_append, List.not_mem_nil, or_false] at member
      rcases member with rfl | rfl | rfl | digit | rfl
      · decide
      · decide
      · decide
      · exact ne_terminator_of_isAlphanum (isAlphanum_of_mem_toDigits digit)
      · decide
  | case8 _ _ notReturn notFeed => simpa using ⟨notFeed, notReturn⟩
  | _ => simp

theorem ne_terminator_of_mem_quoted (text : String) :
    ∀ c ∈ (quoted text).toList, c ≠ '\n' ∧ c ≠ '\r' := by
  intro c member
  simp only [quoted, String.toList_ofList, List.mem_append, List.mem_cons, List.mem_flatMap,
    List.not_mem_nil, or_false] at member
  rcases member with (rfl | ⟨shown, _, escaped⟩) | rfl
  · decide
  · exact ne_terminator_of_mem_escape shown c escaped
  · decide

/-- The first quote that ends no escape closes the quotation. -/
theorem flatMap_escape_append_inj {chars others rest otherRest : List Char}
    (same : chars.flatMap escape ++ '"' :: rest = others.flatMap escape ++ '"' :: otherRest) :
    chars = others ∧ rest = otherRest := by
  induction chars generalizing others with
  | nil =>
      cases others with
      | nil => simpa using same
      | cons other others =>
          rw [List.flatMap_cons, List.append_assoc] at same
          exact absurd same.symm (escape_append_ne_quote other _ rest)
  | cons c chars ih =>
      cases others with
      | nil =>
          rw [List.flatMap_cons, List.append_assoc] at same
          exact absurd same (escape_append_ne_quote c _ otherRest)
      | cons other others =>
          simp only [List.flatMap_cons, List.append_assoc] at same
          have first := congrArg unescape? same
          simp only [unescape?_escape, Option.some.injEq, Prod.mk.injEq] at first
          obtain ⟨rfl, following⟩ := first
          obtain ⟨rfl, rests⟩ := ih following
          exact ⟨rfl, rests⟩

/-- Two quotations with something behind them are equal only part by part. -/
theorem quoted_append_inj {text other : String} {rest otherRest : List Char}
    (same : (quoted text).toList ++ rest = (quoted other).toList ++ otherRest) :
    text = other ∧ rest = otherRest := by
  simp only [quoted, String.toList_ofList, List.cons_append, List.append_assoc, List.nil_append,
    List.cons.injEq, true_and] at same
  obtain ⟨chars, rests⟩ := flatMap_escape_append_inj same
  exact ⟨String.toList_injective chars, rests⟩

end LinePrune.Text
