import LinePrune.Proofs.Toml.Spelling
import Mathlib.Data.Nat.Digits.Defs
import Mathlib.Data.List.Induction

namespace LinePrune.Toml

section Grammar

/-- A digit of a base is a number below it, and its letter may be of either case. -/
def IsDigit (base : Nat) (c : Char) (digit : Nat) : Prop :=
  digit < base ∧ (c = digit.digitChar ∨ c = digit.digitChar.toUpper)

/-- Digits follow each other, with at most one underscore between two of them. -/
inductive Grouped (base : Nat) : List Char → List Nat → Prop where
  | last {c : Char} {digit : Nat} (isDigit : IsDigit base c digit) : Grouped base [c] [digit]
  | next {c : Char} {digit : Nat} {chars : List Char} {digits : List Nat}
      (isDigit : IsDigit base c digit) (others : Grouped base chars digits) :
      Grouped base (c :: chars) (digit :: digits)
  | parted {c : Char} {digit : Nat} {chars : List Char} {digits : List Nat}
      (isDigit : IsDigit base c digit) (others : Grouped base chars digits) :
      Grouped base (c :: '_' :: chars) (digit :: digits)

/-- The first digit of a magnitude weighs most, and it is zero only if there is no other. -/
def SpellsMagnitude (chars : List Char) (number : Nat) : Prop :=
  ∃ digits, Grouped 10 chars digits ∧ (digits = [0] ∨ digits.head? ≠ some 0) ∧
    number = Nat.ofDigits 10 digits.reverse

/-- These letters behind a zero mark the bases other than ten. -/
def baseMarks : List (Char × Nat) :=
  [('x', 16), ('o', 8), ('b', 2)]

/-- The spellings of an integer. Only a decimal one may have a sign, and each other base has a
mark. -/
inductive SpellsInteger : List Char → Int → Prop where
  | unsigned {chars : List Char} {number : Nat} (magnitude : SpellsMagnitude chars number) :
      SpellsInteger chars number
  | plus {chars : List Char} {number : Nat} (magnitude : SpellsMagnitude chars number) :
      SpellsInteger ('+' :: chars) number
  | minus {chars : List Char} {number : Nat} (magnitude : SpellsMagnitude chars number) :
      SpellsInteger ('-' :: chars) (-number)
  | marked {mark : Char} {base : Nat} {chars : List Char} {digits : List Nat}
      (listed : (mark, base) ∈ baseMarks) (grouped : Grouped base chars digits) :
      SpellsInteger ('0' :: mark :: chars) (Nat.ofDigits base digits.reverse : Nat)

end Grammar

section Digits

variable {base : Nat} {c : Char} {digit : Nat} {chars : List Char} {digits : List Nat}

/-- Whatever holds of the letters of every digit holds of the one there is. -/
@[elab_as_elim] theorem IsDigit.holds {property : Nat → Char → Prop}
    (isDigit : IsDigit base c digit)
    (every : ∀ other < base, property other other.digitChar ∧
      property other other.digitChar.toUpper) : property digit c := by
  obtain ⟨small, rfl | rfl⟩ := isDigit
  · exact (every digit small).1
  · exact (every digit small).2

theorem IsDigit.mono {wider : Nat} (isDigit : IsDigit base c digit) (within : base ≤ wider) :
    IsDigit wider c digit :=
  ⟨isDigit.1.trans_le within, isDigit.2⟩

/-- A smaller base has the digits below it. -/
theorem digit?_eq_some_iff_of_le (within : base ≤ 16) :
    digit? base c = some digit ↔ digit? 16 c = some digit ∧ digit < base := by
  simp only [digit?, Option.filter_eq_some_iff, decide_eq_true_eq]
  constructor
  · rintro ⟨value, small⟩
    exact ⟨⟨value, by omega⟩, small⟩
  · rintro ⟨⟨value, -⟩, small⟩
    exact ⟨value, small⟩

/-- A character in a range is told by its distance from the first one. -/
theorem exists_offset_of_range {first last : Char} (within : first ≤ c ∧ c ≤ last) :
    ∃ offset ≤ last.toNat - first.toNat, c.toNat - first.toNat = offset ∧
      c = Char.ofNat (first.toNat + offset) := by
  have low : first.toNat ≤ c.toNat := UInt32.le_iff_toNat_le.mp within.1
  have high : c.toNat ≤ last.toNat := UInt32.le_iff_toNat_le.mp within.2
  refine ⟨c.toNat - first.toNat, by omega, rfl, ?_⟩
  rw [Nat.add_sub_cancel' low, Char.ofNat_toNat]

theorem isDigit_of_digit? (read : digit? 16 c = some digit) : IsDigit 16 c digit := by
  have decimals : ∀ offset ≤ 9, Char.ofNat ('0'.toNat + offset) = offset.digitChar := by decide
  have lower : ∀ offset ≤ 5, Char.ofNat ('a'.toNat + offset) = (offset + 10).digitChar := by decide
  have upper : ∀ offset ≤ 5,
      Char.ofNat ('A'.toNat + offset) = (offset + 10).digitChar.toUpper := by decide
  simp only [digit?, Option.filter_eq_some_iff, decide_eq_true_eq, Bool.and_eq_true] at read
  obtain ⟨value, small⟩ := read
  refine ⟨small, ?_⟩
  split at value
  next within =>
    obtain ⟨offset, below, distance, letter⟩ := exists_offset_of_range within
    obtain rfl : offset = digit := distance.symm.trans (Option.some.inj value)
    exact .inl (letter.trans (decimals offset below))
  split at value
  next within =>
    obtain ⟨offset, below, distance, letter⟩ := exists_offset_of_range within
    obtain rfl : offset + 10 = digit := distance ▸ Option.some.inj value
    exact .inl (letter.trans (lower offset below))
  split at value
  next within =>
    obtain ⟨offset, below, distance, letter⟩ := exists_offset_of_range within
    obtain rfl : offset + 10 = digit := distance ▸ Option.some.inj value
    exact .inr (letter.trans (upper offset below))
  next => contradiction

theorem digit?_eq_some_iff (within : base ≤ 16) :
    digit? base c = some digit ↔ IsDigit base c digit := by
  rw [digit?_eq_some_iff_of_le within]
  constructor
  · rintro ⟨read, small⟩
    exact ⟨small, (isDigit_of_digit? read).2⟩
  · intro isDigit
    exact ⟨(isDigit.mono within).holds (by decide), isDigit.1⟩

theorem not_isDigit_underscore (within : base ≤ 16) : ¬ IsDigit base '_' digit := by
  rw [← digit?_eq_some_iff within, digit?_eq_some_iff_of_le within]
  rintro ⟨read, -⟩
  have none : digit? 16 '_' = none := by decide
  simp [none] at read

/-- Grouped digits begin with a digit. -/
theorem Grouped.exists_cons (grouped : Grouped base chars digits) :
    ∃ c digit behind others, chars = c :: behind ∧ digits = digit :: others ∧
      IsDigit base c digit := by
  cases grouped with
  | last isDigit => exact ⟨_, _, _, _, rfl, rfl, isDigit⟩
  | next isDigit others => exact ⟨_, _, _, _, rfl, rfl, isDigit⟩
  | parted isDigit others => exact ⟨_, _, _, _, rfl, rfl, isDigit⟩

/-- The reader takes digits as they are grouped, and nothing else. -/
theorem groupedDigits?_eq_some_iff (within : base ≤ 16) :
    groupedDigits? base chars = some digits ↔ Grouped base chars digits := by
  constructor
  · intro read
    fun_induction groupedDigits? base chars generalizing digits with
    | case1 => contradiction
    | case2 c =>
        obtain ⟨digit, isDigit, rfl⟩ := Option.map_eq_some_iff.mp read
        exact .last ((digit?_eq_some_iff within).mp isDigit)
    | case3 c rest ih =>
        simp only [Option.bind_eq_bind, Option.bind_eq_some_iff, Option.pure_def,
          Option.some.injEq] at read
        obtain ⟨digit, isDigit, others, readOthers, rfl⟩ := read
        exact .parted ((digit?_eq_some_iff within).mp isDigit) (ih readOthers)
    | case4 c rest several noUnderscore ih =>
        simp only [Option.bind_eq_bind, Option.bind_eq_some_iff, Option.pure_def,
          Option.some.injEq] at read
        obtain ⟨digit, isDigit, others, readOthers, rfl⟩ := read
        exact .next ((digit?_eq_some_iff within).mp isDigit) (ih readOthers)
  · intro grouped
    induction grouped with
    | last isDigit =>
        rw [groupedDigits?, (digit?_eq_some_iff within).mpr isDigit]
        rfl
    | next isDigit others ih =>
        obtain ⟨c, digit, behind, rest, rfl, rfl, isOther⟩ := others.exists_cons
        rw [groupedDigits?, (digit?_eq_some_iff within).mpr isDigit, ih]
        · rfl
        · intro alone
          contradiction
        · rintro behind starts
          obtain ⟨rfl, -⟩ := List.cons.inj starts
          exact not_isDigit_underscore within isOther
    | parted isDigit others ih =>
        rw [groupedDigits?, (digit?_eq_some_iff within).mpr isDigit, ih]
        rfl

theorem valueOfDigits_eq_ofDigits (base : Nat) (digits : List Nat) :
    valueOfDigits base digits = Nat.ofDigits base digits.reverse := by
  induction digits using List.reverseRecOn with
  | nil => rfl
  | append_singleton digits digit ih =>
      rw [List.reverse_append, List.reverse_singleton, List.singleton_append, Nat.ofDigits_cons,
        ← ih, valueOfDigits, List.foldl_append, ← valueOfDigits]
      simp [Nat.add_comm]

theorem Grouped.mem (grouped : Grouped base chars digits) :
    ∀ c ∈ chars, c = '_' ∨ ∃ digit, IsDigit base c digit := by
  induction grouped with
  | last isDigit => simpa using .inr ⟨_, isDigit⟩
  | next isDigit others ih => exact List.forall_mem_cons.mpr ⟨.inr ⟨_, isDigit⟩, ih⟩
  | parted isDigit others ih =>
      exact List.forall_mem_cons.mpr ⟨.inr ⟨_, isDigit⟩, List.forall_mem_cons.mpr ⟨.inl rfl, ih⟩⟩

theorem IsDigit.eq_zero_iff (isDigit : IsDigit 10 c digit) : digit = 0 ↔ c = '0' :=
  isDigit.holds (by decide)

/-- A zero that leads other digits is the character of that digit. -/
theorem Grouped.unled_iff (grouped : Grouped 10 chars digits) :
    (digits = [0] ∨ digits.head? ≠ some 0) ↔ ∀ second tail, chars ≠ '0' :: second :: tail := by
  cases grouped with
  | @last c digit isDigit => by_cases zero : digit = 0 <;> simp [zero]
  | next isDigit others =>
      obtain ⟨second, _, tail, rest, rfl, rfl, -⟩ := others.exists_cons
      simp [isDigit.eq_zero_iff]
  | parted isDigit others =>
      obtain ⟨-, _, -, rest, -, rfl, -⟩ := others.exists_cons
      simp [isDigit.eq_zero_iff]

theorem decimalDigits?_eq_some_iff :
    decimalDigits? chars = some digits ↔
      Grouped 10 chars digits ∧ (digits = [0] ∨ digits.head? ≠ some 0) := by
  rw [and_congr_right fun grouped => Grouped.unled_iff grouped]
  unfold decimalDigits?
  split
  next => simp
  next unled =>
    rw [groupedDigits?_eq_some_iff (by decide), iff_self_and]
    intro _ second tail led
    exact unled second tail led

end Digits

section Integers

variable {base : Nat} {chars token : List Char} {number : Int}

theorem decimalInteger?_eq_some_iff {negative : Bool} :
    decimalInteger? negative chars = some (.integer number) ↔
      ∃ magnitude, SpellsMagnitude chars magnitude ∧ number = signed negative magnitude := by
  simp only [decimalInteger?, Option.map_eq_some_iff, Value.integer.injEq,
    decimalDigits?_eq_some_iff, valueOfDigits_eq_ofDigits, SpellsMagnitude]
  constructor
  · rintro ⟨digits, ⟨grouped, leading⟩, rfl⟩
    exact ⟨_, ⟨digits, grouped, leading, rfl⟩, rfl⟩
  · rintro ⟨magnitude, ⟨digits, grouped, leading, rfl⟩, rfl⟩
    exact ⟨digits, ⟨grouped, leading⟩, rfl⟩

theorem radixInteger?_eq_some_iff (within : base ≤ 16) :
    radixInteger? base chars = some (.integer number) ↔
      ∃ digits, Grouped base chars digits ∧ number = (Nat.ofDigits base digits.reverse : Nat) := by
  unfold radixInteger?
  split
  next empty =>
    obtain rfl := List.isEmpty_iff.mp empty
    simp only [Option.some.injEq, reduceCtorEq, false_iff, not_exists, not_and]
    intro digits grouped
    cases grouped
  next =>
    simp only [Option.map_eq_some_iff, groupedDigits?_eq_some_iff within, Value.integer.injEq,
      valueOfDigits_eq_ofDigits, @eq_comm Int number]

/-- Decimal digits are neither signs nor marks. -/
theorem Grouped.not_mem {digits : List Nat} (grouped : Grouped 10 chars digits) {c : Char}
    (listed : c ∈ ['+', '-', 'x', 'o', 'b']) : c ∉ chars := by
  intro member
  rcases grouped.mem c member with rfl | ⟨digit, isDigit⟩
  · exact absurd listed (by decide)
  · have apart : c ∉ ['+', '-', 'x', 'o', 'b'] := isDigit.holds (by decide)
    exact apart listed

theorem splitSign_of_not_mem (plus : '+' ∉ chars) (minus : '-' ∉ chars) :
    splitSign chars = (false, chars) := by
  unfold splitSign
  split
  next => exact absurd List.mem_cons_self minus
  next => exact absurd List.mem_cons_self plus
  next => rfl

/-- A mark does not stand for its base inside a decimal integer. -/
theorem Grouped.ne_marked {digits : List Nat} (grouped : Grouped 10 token digits) {mark : Char}
    (listed : (mark, base) ∈ baseMarks) : token ≠ '0' :: mark :: chars := by
  rintro rfl
  simp only [baseMarks, List.mem_cons, List.not_mem_nil, or_false, Prod.mk.injEq] at listed
  rcases listed with ⟨rfl, -⟩ | ⟨rfl, -⟩ | ⟨rfl, -⟩
  · exact grouped.not_mem (c := 'x') (by decide) (by simp)
  · exact grouped.not_mem (c := 'o') (by decide) (by simp)
  · exact grouped.not_mem (c := 'b') (by decide) (by simp)

theorem integer?_marked_eq_some_iff {mark : Char} (listed : (mark, base) ∈ baseMarks) :
    integer? ('0' :: mark :: chars) = some (.integer number) ↔
      ∃ digits, Grouped base chars digits ∧ number = (Nat.ofDigits base digits.reverse : Nat) := by
  have within : base ≤ 16 ∧ integer? ('0' :: mark :: chars) = radixInteger? base chars := by
    simp only [baseMarks, List.mem_cons, List.not_mem_nil, or_false, Prod.mk.injEq] at listed
    rcases listed with ⟨rfl, rfl⟩ | ⟨rfl, rfl⟩ | ⟨rfl, rfl⟩ <;> exact ⟨by decide, rfl⟩
  rw [within.2, radixInteger?_eq_some_iff within.1]

theorem integer?_decimal_eq_some_iff
    (unmarked : ∀ mark base chars, (mark, base) ∈ baseMarks → token ≠ '0' :: mark :: chars) :
    integer? token = some (.integer number) ↔
      ∃ magnitude, SpellsMagnitude (splitSign token).2 magnitude ∧
        number = signed (splitSign token).1 magnitude := by
  rw [← decimalInteger?_eq_some_iff]
  unfold integer?
  split
  next chars => exact absurd rfl (unmarked 'x' 16 chars (by decide))
  next chars => exact absurd rfl (unmarked 'o' 8 chars (by decide))
  next chars => exact absurd rfl (unmarked 'b' 2 chars (by decide))
  next =>
    dsimp only
    -- What has an underscore but no value is still no integer with another value.
    cases decimalInteger? (splitSign token).1 (splitSign token).2 with
    | some value => rw [Option.some_or]
    | none =>
        rw [Option.none_or]
        split <;> simp

/-- The reader takes a token for an integer exactly if it spells that integer. -/
theorem integer?_eq_some_iff :
    integer? token = some (.integer number) ↔ SpellsInteger token number := by
  constructor
  · intro read
    by_cases marked : ∃ mark base chars, (mark, base) ∈ baseMarks ∧ token = '0' :: mark :: chars
    · obtain ⟨mark, base, chars, listed, rfl⟩ := marked
      obtain ⟨digits, grouped, rfl⟩ := (integer?_marked_eq_some_iff listed).mp read
      exact .marked listed grouped
    · have unmarked : ∀ mark base chars, (mark, base) ∈ baseMarks →
          token ≠ '0' :: mark :: chars :=
        fun mark base chars listed same => marked ⟨mark, base, chars, listed, same⟩
      obtain ⟨magnitude, spells, rfl⟩ := (integer?_decimal_eq_some_iff unmarked).mp read
      unfold splitSign at spells ⊢
      split at spells
      next => exact .minus spells
      next => exact .plus spells
      next => exact .unsigned spells
  · intro spells
    cases spells with
    | unsigned spelled =>
        obtain ⟨digits, grouped, -⟩ := id spelled
        have split :=
          splitSign_of_not_mem (grouped.not_mem (by decide)) (grouped.not_mem (by decide))
        refine (integer?_decimal_eq_some_iff fun _ _ _ => grouped.ne_marked).mpr ?_
        rw [split]
        exact ⟨_, spelled, rfl⟩
    | plus spelled => exact (integer?_decimal_eq_some_iff (by simp)).mpr ⟨_, spelled, rfl⟩
    | minus spelled => exact (integer?_decimal_eq_some_iff (by simp)).mpr ⟨_, spelled, rfl⟩
    | marked listed grouped =>
        exact (integer?_marked_eq_some_iff listed).mpr ⟨_, grouped, rfl⟩

end Integers

section Tokens

/-- A token ends where a value may end. -/
theorem splitToken_append {token rest : List Char} (whole : ∀ c ∈ token, isTokenChar c = true)
    (delimited : Delimited rest) : splitToken (token ++ rest) = (token, rest) := by
  induction token with
  | nil =>
      obtain ⟨mark, tail, rfl, listed⟩ := delimited
      have ends : isTokenChar mark = false ∧ isBlank mark = false := by
        simp only [List.mem_cons, List.not_mem_nil, or_false] at listed
        rcases listed with rfl | rfl | rfl <;> decide
      simp [splitToken, ends]
  | cons c token ih =>
      rw [List.cons_append, splitToken, if_pos (by simp [whole c]),
        ih fun other member => whole other (List.mem_cons_of_mem c member)]

/-- A token that is a number spells it, unless the token begins like a string or a word. -/
theorem spells_of_number? {first : Char} {tail : List Char} {value : Value}
    (whole : ∀ c ∈ first :: tail, isTokenChar c = true) (other : first ∉ ['"', '\'', 't', 'f'])
    (read : number? (first :: tail) = some value) : Spells (first :: tail) value where
  opens := ⟨first, tail, rfl, by simp [isOpening, whole first]⟩
  reads fuel rest enough delimited := by
    simp only [List.mem_cons, List.not_mem_nil, or_false, not_or] at other
    obtain ⟨noQuote, noApostrophe, notTrue, notFalse⟩ := other
    have isToken := whole first List.mem_cons_self
    have scalar : scalar? (first :: tail ++ rest) = some (value, rest) := by
      rw [scalar?, splitToken_append whole delimited]
      simp [scalarOf?, read, notTrue, notFalse]
    cases fuel with
    | zero => omega
    | succ fuel =>
        unfold value?
        split
        next starts => exact absurd (List.cons.inj starts).1 noQuote
        next starts => exact absurd (List.cons.inj starts).1 noApostrophe
        next starts =>
          obtain ⟨rfl, -⟩ := List.cons.inj starts
          exact absurd isToken (by decide)
        next starts =>
          obtain ⟨rfl, -⟩ := List.cons.inj starts
          exact absurd isToken (by decide)
        next => exact scalar

variable {base : Nat} {chars token : List Char} {number : Int}

theorem Grouped.isTokenChar {digits : List Nat} (grouped : Grouped base chars digits)
    (within : base ≤ 16) : ∀ c ∈ chars, isTokenChar c = true := by
  intro c member
  rcases grouped.mem c member with rfl | ⟨digit, isDigit⟩
  · decide
  · exact (isDigit.mono within).holds (by decide)

/-- A spelling begins neither like a string nor like a word, and a token may hold all of it. -/
theorem SpellsInteger.exists_cons (spelled : SpellsInteger token number) :
    ∃ first tail, token = first :: tail ∧ first ∉ ['"', '\'', 't', 'f'] ∧
      ∀ c ∈ token, isTokenChar c = true := by
  have decimal : 10 ≤ 16 := by decide
  have marks : ∀ entry ∈ baseMarks, entry.2 ≤ 16 ∧ isTokenChar entry.1 = true := by decide
  cases spelled with
  | unsigned magnitude =>
      obtain ⟨digits, grouped, -⟩ := magnitude
      have whole := grouped.isTokenChar decimal
      obtain ⟨first, digit, tail, others, rfl, rfl, isDigit⟩ := grouped.exists_cons
      exact ⟨first, tail, rfl, isDigit.holds (by decide), whole⟩
  | plus magnitude =>
      obtain ⟨digits, grouped, -⟩ := magnitude
      exact ⟨'+', _, rfl, by decide,
        List.forall_mem_cons.mpr ⟨by decide, grouped.isTokenChar decimal⟩⟩
  | minus magnitude =>
      obtain ⟨digits, grouped, -⟩ := magnitude
      exact ⟨'-', _, rfl, by decide,
        List.forall_mem_cons.mpr ⟨by decide, grouped.isTokenChar decimal⟩⟩
  | marked listed grouped =>
      obtain ⟨within, mark⟩ := marks _ listed
      exact ⟨'0', _, rfl, by decide, List.forall_mem_cons.mpr
        ⟨by decide, List.forall_mem_cons.mpr ⟨mark, grouped.isTokenChar within⟩⟩⟩

/-- Whatever spells an integer is read as that integer wherever a value may stand. -/
theorem SpellsInteger.spells (spelled : SpellsInteger token number) :
    Spells token (.integer number) := by
  have read : number? token = some (.integer number) := by
    rw [number?, integer?_eq_some_iff.mpr spelled, Option.some_or]
  obtain ⟨first, tail, rfl, other, whole⟩ := spelled.exists_cons
  exact spells_of_number? whole other read

end Tokens

end LinePrune.Toml
