import LinePrune.Proofs.Toml.Spelling

namespace LinePrune.Toml

/-- A bare key needs no quotes. -/
def IsBareKey (key : String) : Prop :=
  key.toList ≠ [] ∧ key.toList.all isBareKeyChar = true

instance {key : String} : Decidable (IsBareKey key) :=
  inferInstanceAs (Decidable (_ ∧ _))

/-- A text lays out statements when each of them stands on a line of its own, apart from the lines
that a value takes up. -/
inductive LaysOut : List Char → List Statement → Prop where
  | nothing : LaysOut [] []
  | emptyLine {rest : List Char} {statements : List Statement} (others : LaysOut rest statements) :
      LaysOut ('\n' :: rest) statements
  | header {key : String} {rest : List Char} {statements : List Statement}
      (isKey : IsBareKey key) (others : LaysOut rest statements) :
      LaysOut ('[' :: (key.toList ++ ']' :: '\n' :: rest)) (.openTable [] key :: statements)
  | assignment {key : String} {text rest : List Char} {value : Value} {statements : List Statement}
      (isKey : IsBareKey key) (spells : Spells text value) (others : LaysOut rest statements) :
      LaysOut (key.toList ++ ' ' :: '=' :: ' ' :: (text ++ '\n' :: rest))
        (.assign [] key value :: statements)

section Keys

variable {key : String}

theorem IsBareKey.eq_cons (isKey : IsBareKey key) :
    ∃ first tail, key.toList = first :: tail ∧ isBareKeyChar first = true := by
  cases begins : key.toList with
  | nil => exact absurd begins isKey.1
  | cons first tail =>
      exact ⟨first, tail, rfl, List.all_eq_true.mp isKey.2 first (by simp [begins])⟩

theorem bareKeyChar_cases {first : Char} (bare : isBareKeyChar first = true) :
    isBlank first = false ∧ first ∉ ['\n', '\r', '#', '['] := by
  constructor
  · rw [← Bool.not_eq_true]
    intro blank
    simp only [isBlank, Bool.or_eq_true, decide_eq_true_eq] at blank
    rcases blank with rfl | rfl <;> exact absurd bare (by decide)
  · simp only [List.mem_cons, List.not_mem_nil, or_false]
    intro listed
    rcases listed with rfl | rfl | rfl | rfl <;> exact absurd bare (by decide)

/-- The reader takes a bare key up to the first character that cannot be in one. -/
theorem simpleKey?_bare (isKey : IsBareKey key) {mark : Char} (behind : List Char)
    (ends : isBareKeyChar mark = false) :
    simpleKey? (key.toList ++ mark :: behind) = some (key, mark :: behind) := by
  have bare := List.all_eq_true.mp isKey.2
  have taken : (key.toList ++ mark :: behind).takeWhile isBareKeyChar = key.toList := by
    rw [List.takeWhile_append_of_pos bare]
    simp [ends]
  have dropped : (key.toList ++ mark :: behind).dropWhile isBareKeyChar = mark :: behind := by
    rw [List.dropWhile_append_of_pos bare]
    simp [ends]
  simp [simpleKey?, taken, dropped, isKey.1]

theorem dottedKey?_bare (isKey : IsBareKey key) (fuel : Nat) {mark : Char} {behind : List Char}
    (ends : isBareKeyChar mark = false) (single : (skipBlanks (mark :: behind)).head? ≠ some '.') :
    dottedKey? (fuel + 1) (key.toList ++ mark :: behind) =
      some (([], key), skipBlanks (mark :: behind)) := by
  obtain ⟨first, tail, begins, bare⟩ := isKey.eq_cons
  have noBlanks : skipBlanks (key.toList ++ mark :: behind) = key.toList ++ mark :: behind := by
    rw [begins]
    exact skipBlanks_cons (bareKeyChar_cases bare).1 _
  rw [dottedKey?, noBlanks, simpleKey?_bare isKey behind ends]
  simp only [Option.bind_eq_bind, Option.bind_some]
  split
  next dot => rw [dot] at single; exact absurd rfl single
  next => rfl

end Keys

/-- The beginning of a statement ends no line. -/
theorem endOfLine?_eq_none {first : Char} {tail : List Char} (noBlank : isBlank first = false)
    (noMark : first ∉ ['\n', '\r', '#']) : endOfLine? (first :: tail) = none := by
  simp only [List.mem_cons, List.not_mem_nil, or_false, not_or] at noMark
  unfold endOfLine?
  rw [skipBlanks_cons noBlank]
  split
  next comment => exact absurd (List.cons.inj comment).1 noMark.2.2
  next =>
    rw [if_neg (by simp)]
    unfold newline?
    split
    next lineFeed => exact absurd (List.cons.inj lineFeed).1 noMark.1
    next pair => exact absurd (List.cons.inj pair).1 noMark.2.1
    next => rfl

section Lines

variable {fuel lines : Nat} {rest : List Char}

theorem statements?_emptyLine :
    statements? fuel (lines + 1) ('\n' :: rest) = statements? fuel lines rest := by
  rfl

/-- One statement is taken from its line. -/
theorem statements?_line {chars : List Char} {statement : Statement}
    (begins : ∃ first tail, chars = first :: tail ∧ isBlank first = false ∧
      first ∉ ['\n', '\r', '#'])
    (reads : statement? fuel chars = some (statement, '\n' :: rest)) :
    statements? fuel (lines + 1) chars =
      (statements? fuel lines rest).map fun statements => statement :: statements := by
  obtain ⟨first, tail, rfl, noBlank, noMark⟩ := begins
  rw [statements?, endOfLine?_eq_none noBlank noMark, skipBlanks_cons noBlank, reads]
  change (statements? fuel lines rest).bind (fun statements => some (statement :: statements)) = _
  cases statements? fuel lines rest <;> rfl

theorem statement?_header {key : String} (isKey : IsBareKey key) :
    statement? (fuel + 1) ('[' :: (key.toList ++ ']' :: '\n' :: rest)) =
      some (.openTable [] key, '\n' :: rest) := by
  obtain ⟨first, tail, begins, bare⟩ := isKey.eq_cons
  have read : dottedKey? (fuel + 1) (key.toList ++ ']' :: '\n' :: rest) =
      some (([], key), ']' :: '\n' :: rest) :=
    dottedKey?_bare isKey fuel (by decide) (by simp [skipBlanks, isBlank])
  rw [statement?, header?]
  · rw [read]
    rfl
  · intro more double
    rw [begins] at double
    obtain ⟨rfl, -⟩ := List.cons.inj double
    exact absurd bare (by decide)

theorem statement?_assignment {key : String} {text : List Char} {value : Value}
    (isKey : IsBareKey key) (spells : Spells text value) (enough : text.length < fuel) :
    statement? fuel (key.toList ++ ' ' :: '=' :: ' ' :: (text ++ '\n' :: rest)) =
      some (.assign [] key value, '\n' :: rest) := by
  obtain ⟨first, tail, begins, bare⟩ := isKey.eq_cons
  have noBlanks : skipBlanks (' ' :: (text ++ '\n' :: rest)) = text ++ '\n' :: rest :=
    spells.skipBlanks_append _
  cases fuel with
  | zero => omega
  | succ fuel =>
      have read : dottedKey? (fuel + 1)
          (key.toList ++ ' ' :: '=' :: ' ' :: (text ++ '\n' :: rest)) =
          some (([], key), '=' :: ' ' :: (text ++ '\n' :: rest)) :=
        dottedKey?_bare isKey fuel (by decide) (by simp [skipBlanks, isBlank])
      rw [statement?, assignment?]
      · rw [read]
        change ((value? (fuel + 1) (skipBlanks (' ' :: (text ++ '\n' :: rest)))).bind
          fun result => some (Statement.assign [] key result.1, result.2)) = _
        rw [noBlanks, spells.reads (fuel + 1) _ enough delimited_newline]
        rfl
      · intro more header
        rw [begins] at header
        obtain ⟨rfl, -⟩ := List.cons.inj header
        exact absurd bare (by decide)

/-- The induction is on the lines. Each of them uses up at least one character. -/
theorem statements?_laysOut {chars : List Char} {statements : List Statement}
    (laysOut : LaysOut chars statements) (enough : chars.length < fuel)
    (enoughLines : chars.length < lines) : statements? fuel lines chars = some statements := by
  induction laysOut generalizing lines with
  | nothing =>
      cases lines with
      | zero => omega
      | succ lines => rfl
  | emptyLine others ih =>
      cases lines with
      | zero => omega
      | succ lines =>
          simp only [List.length_cons] at enough enoughLines
          rw [statements?_emptyLine, ih (by omega) (by omega)]
  | header isKey others ih =>
      cases lines with
      | zero => omega
      | succ lines =>
          simp only [List.length_cons, List.length_append] at enough enoughLines
          cases fuel with
          | zero => omega
          | succ fuel =>
              rw [statements?_line ⟨'[', _, rfl, by decide, by decide⟩ (statement?_header isKey),
                ih (by omega) (by omega)]
              rfl
  | assignment isKey spells others ih =>
      obtain ⟨first, tail, begins, bare⟩ := isKey.eq_cons
      cases lines with
      | zero => omega
      | succ lines =>
          simp only [List.length_cons, List.length_append] at enough enoughLines
          have starts := bareKeyChar_cases bare
          rw [statements?_line ⟨first, _, by rw [begins]; rfl, starts.1, by simp_all⟩
              (statement?_assignment isKey spells (by omega)),
            ih (by omega) (by omega)]
          rfl

end Lines

/-- A laid out text begins with a key, a bracket or a line end, and so with no byte order mark. -/
theorem skipByteOrderMark_laysOut {chars : List Char} {statements : List Statement}
    (laysOut : LaysOut chars statements) : skipByteOrderMark chars = chars := by
  unfold skipByteOrderMark
  split
  next rest =>
    generalize starts : '\ufeff' :: rest = chars at laysOut
    cases laysOut with
    | nothing => cases starts
    | emptyLine others => cases starts
    | header isKey others => cases starts
    | assignment isKey spells others =>
        obtain ⟨first, tail, begins, bare⟩ := isKey.eq_cons
        rw [begins] at starts
        obtain ⟨rfl, -⟩ := List.cons.inj starts
        exact absurd bare (by decide)
  next => rfl

theorem parse?_laysOut {text : String} {statements : List Statement}
    (laysOut : LaysOut text.toList statements) :
    parse? text = Members.ofStatements statements := by
  have within : text.toList.length < stepBound text.toList := by
    unfold stepBound
    omega
  simp only [parse?, skipByteOrderMark_laysOut laysOut, statements?_laysOut laysOut within within]
  rfl

end LinePrune.Toml
