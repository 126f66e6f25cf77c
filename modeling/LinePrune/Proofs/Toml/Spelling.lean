import LinePrune.Toml.Document

namespace LinePrune.Toml

/-- A comma, a closing bracket or a line end may stand right behind a value. -/
def Delimited (rest : List Char) : Prop :=
  ∃ mark tail, rest = mark :: tail ∧ mark ∈ [',', ']', '\n']

theorem delimited_comma {tail : List Char} : Delimited (',' :: tail) :=
  ⟨',', tail, rfl, by decide⟩

theorem delimited_bracket {tail : List Char} : Delimited (']' :: tail) :=
  ⟨']', tail, rfl, by decide⟩

theorem delimited_newline {tail : List Char} : Delimited ('\n' :: tail) :=
  ⟨'\n', tail, rfl, by decide⟩

/-- Nothing else stands right behind a value. -/
theorem Delimited.head?_ne {rest : List Char} (delimited : Delimited rest) {c : Char}
    (other : c ∉ [',', ']', '\n']) : rest.head? ≠ some c := by
  obtain ⟨mark, tail, rfl, listed⟩ := delimited
  intro same
  rw [List.head?_cons, Option.some.injEq] at same
  exact other (same ▸ listed)

/-- No value begins with a blank, a comment or a closing mark. -/
def isOpening (c : Char) : Bool :=
  isTokenChar c || c = '['

/-- A text spells a value when the reader takes the value from it and leaves what stands behind.
Every character allows for one step at least. -/
structure Spells (text : List Char) (value : Value) : Prop where
  opens : ∃ first tail, text = first :: tail ∧ isOpening first = true
  reads : ∀ fuel rest, text.length < fuel → Delimited rest →
    value? fuel (text ++ rest) = some (value, rest)

/-- What begins a value is no filler. -/
theorem opening_cases {first : Char} (opening : isOpening first = true) :
    isBlank first = false ∧ first ∉ ['\n', '\r', '#', ']'] := by
  simp only [isOpening, isTokenChar, Bool.or_eq_true, Bool.not_eq_true', Bool.or_eq_false_iff,
    decide_eq_true_eq, decide_eq_false_iff_not] at opening
  rcases opening with token | rfl
  · simp [token]
  · decide

/-- Blanks end at every other character. -/
theorem skipBlanks_cons {first : Char} (noBlank : isBlank first = false) (tail : List Char) :
    skipBlanks (first :: tail) = first :: tail := by
  simp [skipBlanks, noBlank]

section Behind

variable {text : List Char} {value : Value}

/-- No blank stands right before a spelled value. -/
theorem Spells.skipBlanks_append (spells : Spells text value) (behind : List Char) :
    skipBlanks (text ++ behind) = text ++ behind := by
  obtain ⟨first, tail, rfl, opening⟩ := spells.opens
  exact skipBlanks_cons (opening_cases opening).1 _

/-- No filler stands right before a spelled value. -/
theorem Spells.skipFiller_append (spells : Spells text value) (behind : List Char) :
    skipFiller false (text ++ behind) = text ++ behind := by
  obtain ⟨first, tail, rfl, opening⟩ := spells.opens
  obtain ⟨noBlank, noMark⟩ := opening_cases opening
  simp only [List.mem_cons, List.not_mem_nil, or_false, not_or] at noMark
  simp [skipFiller, noBlank, noMark]

/-- A closing bracket is not taken for a spelled value. -/
theorem Spells.append_ne_bracket (spells : Spells text value) (behind rest : List Char) :
    text ++ behind ≠ ']' :: rest := by
  obtain ⟨first, tail, rfl, opening⟩ := spells.opens
  intro closes
  obtain ⟨rfl, -⟩ := List.cons.inj closes
  exact absurd opening (by decide)

end Behind

end LinePrune.Toml
