import LinePrune.Proofs.Toml.Spelling
import LinePrune.Toml.Printer
import Mathlib.Tactic.ByContra

namespace LinePrune.Toml

/-- The reader meets no closing quotes at another character. -/
theorem closing?_eq_none {long : Bool} {quote c : Char} {rest : List Char}
    (different : c ≠ quote) : closing? long quote (c :: rest) = none := by
  cases long with
  | false => simp [closing?, different]
  | true => simp [closing?, longClosing?, different]

/-- Two quotes or fewer do not close a long string. -/
theorem closing?_long_eq_none {quote : Char} {chars : List Char}
    (few : (chars.takeWhile (· = quote)).length ≤ 2) : closing? true quote chars = none := by
  rw [closing?, if_pos rfl, longClosing?]
  generalize (chars.takeWhile (· = quote)).length = count at few
  match count, few with
  | 0, _ => rfl
  | 1, _ => rfl
  | 2, _ => rfl

/-- Nothing but quotes remains of a text, and with the given number right before them they are two
at most. -/
def IsQuoteTail (quote : Char) (quotes : Nat) (chars : List Char) : Prop :=
  ∃ count, chars = List.replicate count quote ∧ count + quotes ≤ 2

theorem isQuoteTail_nil {quote : Char} {quotes : Nat} (few : quotes ≤ 2) :
    IsQuoteTail quote quotes [] :=
  ⟨0, rfl, by omega⟩

theorem isQuoteTail_cons {quote : Char} {quotes : Nat} {chars : List Char}
    (tail : IsQuoteTail quote (quotes + 1) chars) : IsQuoteTail quote quotes (quote :: chars) := by
  obtain ⟨count, all, few⟩ := tail
  exact ⟨count + 1, by rw [all, List.replicate_succ], by omega⟩

/-- The quotes at the end of a long string are told from those that close it. -/
theorem closing?_quoteTail {quote : Char} {quotes : Nat} {chars rest : List Char}
    (tail : IsQuoteTail quote quotes chars) (apart : rest.head? ≠ some quote) :
    closing? true quote (chars ++ quote :: quote :: quote :: rest) = some (chars, rest) := by
  have stops : rest.takeWhile (· = quote) = [] := by
    cases rest with
    | nil => rfl
    | cons first rest =>
        have different : first ≠ quote := by simpa using apart
        simp [different]
  obtain ⟨count, rfl, few⟩ := tail
  have within : count ≤ 2 := by omega
  match count, within with
  | 0, _ => simp [closing?, longClosing?, stops]
  | 1, _ => simp [closing?, longClosing?, stops]
  | 2, _ => simp [closing?, longClosing?, stops]

section Basic

theorem basicText?_of_closing {long : Bool} {chars : List Char} {closed : List Char × List Char}
    (closes : closing? long '"' chars = some closed) :
    basicText? long .character chars = some closed := by
  cases chars with
  | nil => cases long <;> cases closes
  | cons c rest =>
      rw [basicText?]
      · simp [closes]
      all_goals simp

/-- Quotes that close nothing belong to the string. -/
theorem basicText?_quote {long : Bool} {rest : List Char}
    (stays : closing? long '"' ('"' :: rest) = none) :
    basicText? long .character ('"' :: rest) = consRead '"' (basicText? long .character rest) := by
  have held : isHeld long '"' rest = true := by simp [isHeld, isPlain, Text.isControl]
  rw [basicText?]
  · simp [stays, held]
  all_goals simp

theorem basicText?_cons {long : Bool} {c : Char} {rest : List Char} (noQuote : c ≠ '"') :
    basicText? long .character (c :: rest) =
      if c = '\\' then basicText? long .escapeLetter rest
      else if isHeld long c rest then consRead c (basicText? long .character rest)
      else none := by
  rw [basicText?]
  · simp [closing?_eq_none noQuote]
  all_goals simp

/-- A backslash and a letter stand for the character that the letter means. -/
theorem basicText?_shortEscape {long : Bool} {letter meant : Char} {rest : List Char}
    (listed : shortEscape? letter = some meant) :
    basicText? long .character ('\\' :: letter :: rest) =
      consRead meant (basicText? long .character rest) := by
  have noLineFeed : letter ≠ '\n' := by
    intro lineFeed
    subst lineFeed
    cases listed
  have noBlank : isBlank letter = false := by
    by_contra blank
    simp only [isBlank, Bool.not_eq_false, Bool.or_eq_true, decide_eq_true_eq] at blank
    rcases blank with rfl | rfl <;> cases listed
  have noPair : isPair letter rest = false := by
    by_contra pair
    simp only [isPair, Bool.not_eq_false, Bool.and_eq_true, decide_eq_true_eq] at pair
    obtain ⟨rfl, -⟩ := pair
    cases listed
  rw [basicText?_cons (by decide), if_pos rfl, basicText?]
  simp [listed, noLineFeed, noBlank, noPair]

theorem digit?_upperHexDigit {value : Nat} (small : value < 16) :
    digit? 16 (upperHexDigit value) = some value := by
  decide +revert

theorem character?_toNat (c : Char) : character? c.toNat = some c := by
  have valid : c.toNat.isValidChar := c.valid
  rw [character?, if_pos valid, Char.ofNat_toNat]

/-- Two hexadecimal digits tell a small character. -/
theorem basicText?_controlEscape {long : Bool} {c : Char} {rest : List Char}
    (small : c.toNat < 256) :
    basicText? long .character (controlEscape c ++ rest) =
      consRead c (basicText? long .character rest) := by
  have zero : digit? 16 '0' = some 0 := by decide
  have high : digit? 16 (upperHexDigit (c.toNat / 16)) = some (c.toNat / 16) :=
    digit?_upperHexDigit (by omega)
  have low : digit? 16 (upperHexDigit (c.toNat % 16)) = some (c.toNat % 16) :=
    digit?_upperHexDigit (by omega)
  have code : 16 * (c.toNat / 16) + c.toNat % 16 = c.toNat := Nat.div_add_mod _ _
  have noMeaning : shortEscape? 'u' = none := by decide
  have width : escapeWidth? 'u' = some 4 := by decide
  simp only [controlEscape, List.cons_append, List.nil_append]
  rw [basicText?_cons (by decide), if_pos rfl, basicText?]
  simp [noMeaning, width, basicText?, zero, high, low, isPair, isBlank, code, character?_toNat]

/-- Each character is read back from its spelling. -/
theorem basicText?_escapeChar {long : Bool} {c : Char} {rest : List Char} (noQuote : c ≠ '"') :
    basicText? long .character (escapeChar long c ++ rest) =
      consRead c (basicText? long .character rest) := by
  unfold escapeChar
  split
  next backslash => subst backslash; exact basicText?_shortEscape rfl
  split
  next backspace => subst backspace; exact basicText?_shortEscape rfl
  split
  next tab => subst tab; exact basicText?_shortEscape rfl
  split
  next lineFeed =>
    simp only [Bool.and_eq_true, decide_eq_true_eq] at lineFeed
    obtain ⟨rfl, rfl⟩ := lineFeed
    simp [basicText?_cons, isHeld]
  split
  next formFeed => subst formFeed; exact basicText?_shortEscape rfl
  split
  next carriageReturn => subst carriageReturn; exact basicText?_shortEscape rfl
  split
  next control =>
    refine basicText?_controlEscape ?_
    simp only [Text.isControl, Bool.or_eq_true, decide_eq_true_eq] at control
    omega
  next noBackslash _ _ _ _ _ noControl =>
    simp [basicText?_cons noQuote, noBackslash, isHeld, isPlain, noControl]

theorem basicText?_short (quotes : Nat) (chars rest : List Char) :
    basicText? false .character (escapeText false quotes chars ++ '"' :: rest) =
      some (chars, rest) := by
  induction chars generalizing quotes with
  | nil => exact basicText?_of_closing rfl
  | cons c chars ih =>
      rw [escapeText]
      split
      next quote =>
        subst quote
        rw [if_neg (by simp), List.cons_append, List.cons_append, basicText?_shortEscape rfl, ih]
        rfl
      next noQuote =>
        rw [List.append_assoc, basicText?_escapeChar noQuote, ih]
        rfl

/-- A spelling is an escape, unless it is the character itself. -/
theorem escapeChar_cases (long : Bool) (c : Char) :
    (∃ tail, escapeChar long c = '\\' :: tail) ∨ (escapeChar long c = [c] ∧ c ≠ '\r') := by
  unfold escapeChar
  repeat' split
  any_goals exact .inl ⟨_, rfl⟩
  next lineFeed =>
    simp only [Bool.and_eq_true, decide_eq_true_eq] at lineFeed
    obtain ⟨rfl, -⟩ := lineFeed
    exact .inr ⟨rfl, by decide⟩
  next noReturn _ => exact .inr ⟨rfl, noReturn⟩

/-- The writer never puts three bare quotes next to each other, unless the last ones close. -/
theorem escapeText_run {quotes : Nat} (few : quotes ≤ 2) (chars rest : List Char) :
    IsQuoteTail '"' quotes chars ∨
      ((escapeText true quotes chars ++ rest).takeWhile (· = '"')).length + quotes ≤ 2 := by
  induction chars generalizing quotes with
  | nil => exact .inl (isQuoteTail_nil few)
  | cons c chars ih =>
      rw [escapeText]
      split
      next quote =>
        subst quote
        split
        next bare =>
          have room : quotes < 2 := by simpa using bare
          rcases @ih (quotes + 1) (by omega) with tail | within
          · exact .inl (isQuoteTail_cons tail)
          · refine .inr ?_
            simp only [List.cons_append, List.takeWhile_cons, decide_true, if_true,
              List.length_cons]
            omega
        next escaped => exact .inr (by simpa using few)
      next noQuote =>
        refine .inr ?_
        rcases escapeChar_cases true c with ⟨tail, spelled⟩ | ⟨spelled, -⟩
        · simpa [spelled] using few
        · simpa [spelled, noQuote] using few

theorem escapeText_quoteTail {quotes : Nat} {chars : List Char}
    (tail : IsQuoteTail '"' quotes chars) : escapeText true quotes chars = chars := by
  obtain ⟨count, rfl, few⟩ := tail
  induction count generalizing quotes with
  | zero => rfl
  | succ count ih =>
      have room : quotes < 2 := by omega
      rw [List.replicate_succ, escapeText, if_pos rfl, if_pos (by simp [room]), ih (by omega)]

/-- The number counts the bare quotes that the reader has just taken. -/
theorem basicText?_long {quotes : Nat} {chars rest : List Char} (few : quotes ≤ 2)
    (apart : rest.head? ≠ some '"') :
    basicText? true .character (escapeText true quotes chars ++ '"' :: '"' :: '"' :: rest) =
      some (chars, rest) := by
  induction chars generalizing quotes with
  | nil => exact basicText?_of_closing (closing?_quoteTail (isQuoteTail_nil few) apart)
  | cons c chars ih =>
      rcases escapeText_run few (c :: chars) ('"' :: '"' :: '"' :: rest) with tail | within
      · rw [escapeText_quoteTail tail]
        exact basicText?_of_closing (closing?_quoteTail tail apart)
      · have stays := closing?_long_eq_none (Nat.le_trans (Nat.le_add_right _ quotes) within)
        rw [escapeText] at stays ⊢
        split at stays
        next quote =>
          subst quote
          rw [if_pos rfl]
          split at stays
          next bare =>
            have room : quotes < 2 := by simpa using bare
            rw [if_pos bare, List.cons_append]
            rw [List.cons_append] at stays
            rw [basicText?_quote stays, ih (by omega)]
            rfl
          next escaped =>
            rw [if_neg escaped, List.cons_append, List.cons_append, basicText?_shortEscape rfl,
              ih (by omega)]
            rfl
        next noQuote =>
          rw [if_neg noQuote, List.append_assoc, basicText?_escapeChar noQuote, ih (by omega)]
          rfl

/-- A short string is not taken for a long one. -/
theorem head?_escapeText_short {quotes : Nat} {chars : List Char} :
    (escapeText false quotes chars).head? ≠ some '"' := by
  cases chars with
  | nil => simp [escapeText]
  | cons c chars =>
      rw [escapeText]
      split
      next => simp
      next noQuote =>
        rcases escapeChar_cases false c with ⟨tail, spelled⟩ | ⟨spelled, -⟩
        · simp [spelled]
        · simpa [spelled] using noQuote

/-- The writer begins a long string with a line feed only when the string has one. -/
theorem head?_escapeText_long {quotes : Nat} {chars rest : List Char} {first : Char}
    (starts : (escapeText true quotes chars ++ '"' :: rest).head? = some first) :
    first ≠ '\r' ∧ (first = '\n' → '\n' ∈ chars) := by
  cases chars with
  | nil =>
      obtain rfl : '"' = first := by simpa [escapeText] using starts
      decide
  | cons c chars =>
      rw [escapeText] at starts
      split at starts
      next =>
        split at starts
        all_goals
          obtain rfl := Option.some.inj starts
          exact ⟨by decide, fun lineFeed => nomatch lineFeed⟩
      next =>
        rcases escapeChar_cases true c with ⟨tail, spelled⟩ | ⟨spelled, noReturn⟩
        all_goals
          rw [spelled] at starts
          obtain rfl := Option.some.inj starts
        · exact ⟨by decide, fun lineFeed => nomatch lineFeed⟩
        · exact ⟨noReturn, fun lineFeed => lineFeed ▸ List.mem_cons_self⟩

end Basic

section Literal

theorem literalText?_of_closing {long : Bool} {chars : List Char} {closed : List Char × List Char}
    (closes : closing? long '\'' chars = some closed) :
    literalText? long chars = some closed := by
  cases chars with
  | nil => cases long <;> cases closes
  | cons c rest => rw [literalText?, closes]

theorem literalText?_cons {long : Bool} {c : Char} {rest : List Char}
    (stays : closing? long '\'' (c :: rest) = none) (held : isHeld long c rest = true) :
    literalText? long (c :: rest) = consRead c (literalText? long rest) := by
  rw [literalText?, stays]
  simp [held]

theorem literalText?_short {chars rest : List Char}
    (fits : ∀ c ∈ chars, isPlain c = true ∧ c ≠ '\'') :
    literalText? false (chars ++ '\'' :: rest) = some (chars, rest) := by
  induction chars with
  | nil => exact literalText?_of_closing rfl
  | cons c chars ih =>
      obtain ⟨plain, noQuote⟩ := fits c List.mem_cons_self
      have held : isHeld false c (chars ++ '\'' :: rest) = true := by simp [isHeld, plain]
      rw [List.cons_append, literalText?_cons (closing?_eq_none noQuote) held,
        ih fun other member => fits other (List.mem_cons_of_mem c member)]
      rfl

/-- The quotes counted so far take part in a run that is short as a whole. -/
theorem longestRun_run {quote : Char} {quotes : Nat} {chars : List Char}
    (few : longestRun quote quotes chars ≤ 2) (rest : List Char) :
    IsQuoteTail quote quotes chars ∨
      ((chars ++ rest).takeWhile (· = quote)).length + quotes ≤ 2 := by
  induction chars generalizing quotes with
  | nil => exact .inl (isQuoteTail_nil few)
  | cons c chars ih =>
      rw [longestRun] at few
      split at few
      next isQuote =>
        subst isQuote
        rcases ih few with tail | within
        · exact .inl (isQuoteTail_cons tail)
        · refine .inr ?_
          simp only [List.cons_append, List.takeWhile_cons, decide_true, if_true, List.length_cons]
          omega
      next noQuote =>
        have within := Nat.le_trans (Nat.le_max_left quotes _) few
        exact .inr (by simpa [noQuote] using within)

theorem literalText?_long {quotes : Nat} {chars rest : List Char}
    (fits : ∀ c ∈ chars, isPlain c = true ∨ c = '\n')
    (few : longestRun '\'' quotes chars ≤ 2) (apart : rest.head? ≠ some '\'') :
    literalText? true (chars ++ '\'' :: '\'' :: '\'' :: rest) = some (chars, rest) := by
  induction chars generalizing quotes with
  | nil => exact literalText?_of_closing (closing?_quoteTail (isQuoteTail_nil few) apart)
  | cons c chars ih =>
      have fitsRest := fun other member => fits other (List.mem_cons_of_mem c member)
      have held (behind : List Char) : isHeld true c behind = true := by
        rcases fits c List.mem_cons_self with plain | lineFeed
        · simp [isHeld, plain]
        · simp [isHeld, lineFeed]
      rcases longestRun_run few ('\'' :: '\'' :: '\'' :: rest) with tail | within
      · exact literalText?_of_closing (closing?_quoteTail tail apart)
      · have stays := closing?_long_eq_none (Nat.le_trans (Nat.le_add_right _ quotes) within)
        rw [List.cons_append] at stays ⊢
        rw [literalText?_cons stays (held _)]
        rw [longestRun] at few
        split at few
        next => rw [ih fitsRest few]; rfl
        next => rw [ih fitsRest (Nat.le_trans (Nat.le_max_right quotes _) few)]; rfl

end Literal

section Forms

theorem plain_of_not_control {allowed : List Char} {c : Char}
    (held : (!isControlBut allowed c) = true) : isPlain c = true ∨ c ∈ allowed := by
  simp only [isControlBut, Bool.not_and, Bool.not_not, Bool.or_eq_true,
    List.contains_iff_mem] at held
  rcases held with noControl | listed
  · exact .inl (by simp_all [isPlain])
  · exact .inr listed

/-- A short literal string holds plain characters other than its quote. -/
theorem fits_of_literal {chars : List Char} (form : formOf chars = .literal) :
    ∀ c ∈ chars, isPlain c = true ∧ c ≠ '\'' := by
  unfold formOf at form
  split at form
  next => cases form
  split at form
  next all =>
    intro c member
    have fits := List.all_eq_true.mp all c member
    simp only [Bool.and_eq_true, decide_eq_true_eq] at fits
    rcases plain_of_not_control fits.1 with plain | tab
    · exact ⟨plain, fits.2⟩
    · exact ⟨by simp_all [isPlain], fits.2⟩
  repeat' split at form
  all_goals cases form

/-- A long literal string may hold line feeds, and no three of its quotes next to each other. -/
theorem fits_of_longLiteral {chars : List Char} (form : formOf chars = .longLiteral) :
    (∀ c ∈ chars, isPlain c = true ∨ c = '\n') ∧ longestRun '\'' 0 chars ≤ 2 := by
  unfold formOf at form
  split at form
  next => cases form
  split at form
  next => cases form
  split at form
  next => cases form
  split at form
  next all =>
    simp only [Bool.and_eq_true, decide_eq_true_eq] at all
    refine ⟨?_, all.2⟩
    intro c member
    rcases plain_of_not_control (List.all_eq_true.mp all.1 c member) with plain | listed
    · exact .inl plain
    · simp only [List.mem_cons, List.not_mem_nil, or_false] at listed
      rcases listed with rfl | rfl
      · exact .inl rfl
      · exact .inr rfl
  split at form <;> cases form

/-- A line feed is put behind the opening quotes whenever the reader would take one away. -/
theorem skipFirstNewline_openingNewline {chars body : List Char}
    (opens : ∀ first, body.head? = some first → first ≠ '\r' ∧ (first = '\n' → '\n' ∈ chars)) :
    skipFirstNewline (openingNewline chars ++ body) = body := by
  unfold openingNewline
  split
  next => rfl
  next without =>
    rw [List.nil_append, skipFirstNewline]
    have noNewline : newline? body = none := by
      unfold newline?
      split
      next => exact absurd ((opens _ rfl).2 rfl) (by simpa using without)
      next => exact absurd rfl (opens _ rfl).1
      next => rfl
    rw [noNewline, Option.getD_none]

/-- Three quotes open a long string, so two quotes next to each other must be an empty one. -/
theorem string?_eq_shortString? {quote : Char} {body rest : List Char}
    (bodyApart : body.head? ≠ some quote) (restApart : rest.head? ≠ some quote) :
    string? (quote :: (body ++ quote :: rest)) =
      shortString? (quote :: (body ++ quote :: rest)) := by
  have single (more : List Char) : body ++ quote :: rest ≠ quote :: quote :: more := by
    cases body with
    | nil =>
        intro same
        simp_all
    | cons first body =>
        intro same
        simp_all
  unfold string?
  split
  next same =>
    obtain ⟨rfl, same⟩ := List.cons.inj same
    exact absurd same (single _)
  next same =>
    obtain ⟨rfl, same⟩ := List.cons.inj same
    exact absurd same (single _)
  next => rfl

/-- Whichever form the writer chooses, the reader gets the characters back. -/
theorem string?_writeChars (chars : List Char) {rest : List Char} (delimited : Delimited rest) :
    string? (writeChars chars ++ rest) = some (chars, rest) := by
  have noQuote : rest.head? ≠ some '"' := delimited.head?_ne (by decide)
  have noApostrophe : rest.head? ≠ some '\'' := delimited.head?_ne (by decide)
  unfold writeChars
  split
  all_goals simp only [List.append_assoc, List.cons_append, List.nil_append]
  next =>
    rw [string?_eq_shortString? head?_escapeText_short noQuote]
    exact basicText?_short 0 chars rest
  next form =>
    have fits := fits_of_literal form
    have noneInside : chars.head? ≠ some '\'' := by
      intro starts
      exact (fits '\'' (List.mem_of_head? starts)).2 rfl
    rw [string?_eq_shortString? noneInside noApostrophe]
    exact literalText?_short fits
  next =>
    rw [string?, skipFirstNewline_openingNewline fun _ => head?_escapeText_long]
    exact basicText?_long (Nat.zero_le 2) noQuote
  next form =>
    obtain ⟨fits, few⟩ := fits_of_longLiteral form
    rw [string?, skipFirstNewline_openingNewline]
    · exact literalText?_long fits few noApostrophe
    · intro first starts
      cases chars with
      | nil =>
          obtain rfl := Option.some.inj starts
          decide
      | cons c chars =>
          obtain rfl := Option.some.inj starts
          refine ⟨?_, fun lineFeed => lineFeed ▸ List.mem_cons_self⟩
          intro carriageReturn
          subst carriageReturn
          have held := fits '\r' List.mem_cons_self
          revert held
          decide

end Forms

/-- A written string begins with a quote, and so no scalar is read in its place. -/
theorem spells_writeChars (chars : List Char) :
    Spells (writeChars chars) (.text (String.ofList chars)) := by
  have quoted : ∃ tail, writeChars chars = '"' :: tail ∨ writeChars chars = '\'' :: tail := by
    unfold writeChars
    split
    · exact ⟨_, .inl rfl⟩
    · exact ⟨_, .inr rfl⟩
    · exact ⟨_, .inl rfl⟩
    · exact ⟨_, .inr rfl⟩
  obtain ⟨tail, starts⟩ := quoted
  constructor
  · rcases starts with starts | starts
    · exact ⟨_, _, starts, by decide⟩
    · exact ⟨_, _, starts, by decide⟩
  · intro fuel rest enough delimited
    have read := string?_writeChars chars delimited
    cases fuel with
    | zero => omega
    | succ fuel =>
        rcases starts with starts | starts
        all_goals
          rw [starts, List.cons_append] at read ⊢
          rw [value?, read]
          rfl

theorem spells_writeString (text : String) : Spells (writeString text).toList (.text text) := by
  have spells := spells_writeChars text.toList
  rw [String.ofList_toList] at spells
  rwa [writeString, String.toList_ofList]

end LinePrune.Toml
