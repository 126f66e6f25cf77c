import LinePrune.Proofs.Line.Rendering

namespace LinePrune

namespace Text

/-- Every carriage return has a line feed at once behind it. -/
def ReturnsPaired (chars : List Char) : Prop :=
  ∀ index, chars[index]? = some '\r' → chars[index + 1]? = some '\n'

theorem returnsPaired_iff {chars : List Char} : ReturnsPaired chars ↔
    ∀ index < chars.length, chars[index]? = some '\r' → chars[index + 1]? = some '\n' := by
  constructor
  · exact fun paired index _ => paired index
  · intro paired index found
    exact paired index (List.getElem?_eq_some_iff.mp found).1 found

instance (chars : List Char) : Decidable (ReturnsPaired chars) :=
  decidable_of_iff _ returnsPaired_iff.symm

variable {c : Char} {rest : List Char}

theorem ReturnsPaired.tail (paired : ReturnsPaired (c :: rest)) : ReturnsPaired rest :=
  fun index => paired (index + 1)

theorem ReturnsPaired.exists_feed (paired : ReturnsPaired ('\r' :: rest)) :
    ∃ behind, rest = '\n' :: behind := by
  have feed : rest.head? = some '\n' := by
    rw [List.head?_eq_getElem?]
    exact paired 0 rfl
  exact List.head?_eq_some_iff.mp feed

end Text

namespace Piece

/-- Without a lone carriage return there is nothing that a line feed could join. -/
theorem Separate.canonical_of_ne_return {pieces : List Piece} (separate : Separate pieces)
    (unreturned : ∀ piece ∈ pieces, piece.terminator ≠ some .cr) : Canonical pieces where
  toSeparate := separate
  unjoined := by
    have never : ∀ first ∈ pieces, ∀ second ∈ pieces, ¬ first.Joins second :=
      fun first member _ _ joins => unreturned first member joins.1
    exact (List.pairwise_of_forall_mem_list never).isChain

theorem terminator_ne_consFirst {c : Char} {pieces : List Piece}
    (unreturned : ∀ piece ∈ pieces, piece.terminator ≠ some .cr) :
    ∀ piece ∈ consFirst c pieces, piece.terminator ≠ some .cr := by
  cases pieces with
  | nil => simp [consFirst]
  | cons piece rest => simpa [consFirst] using unreturned

/-- No piece of a text with paired carriage returns ends with a lone one. -/
theorem terminator_ne_of_returnsPaired {chars : List Char} (paired : Text.ReturnsPaired chars) :
    ∀ piece ∈ cut chars, piece.terminator ≠ some .cr := by
  fun_induction cut chars with
  | case1 => simp
  | case2 rest ih => simpa using ih paired.tail.tail
  | case3 rest notPair ih =>
      obtain ⟨behind, rfl⟩ := paired.exists_feed
      exact absurd rfl (notPair behind)
  | case4 rest ih => simpa using ih paired.tail
  | case5 c rest _ _ _ ih => exact terminator_ne_consFirst (ih paired.tail)

end Piece

namespace Line

/-- The line with the number has another text, and every other line is as before. -/
def retexted (number : Nat) (text : String) (line : Line) : Line :=
  if line.number = number then { line with text := text } else line

variable {number : Nat} {text : String} {line : Line}

theorem retexted_of_ne (other : line.number ≠ number) : line.retexted number text = line :=
  if_neg other

theorem number_retexted (line : Line) : (line.retexted number text).number = line.number := by
  rw [retexted]
  split <;> rfl

theorem piece_retexted (line : Line) : (line.retexted number text).piece =
    ⟨if line.number = number then text.toList else line.text.toList, line.terminator⟩ := by
  rw [retexted]
  split <;> rfl

theorem map_number_retexted (lines : List Line) :
    (lines.map (retexted number text)).map Line.number = lines.map Line.number := by
  rw [List.map_map]
  exact List.map_congr_left fun line _ => number_retexted line

/-- Lines behind the number are left alone. -/
theorem map_retexted_enumerate_of_lt {first : Nat} (before : number < first)
    (pieces : List Piece) :
    (enumerate first pieces).map (retexted number text) = enumerate first pieces := by
  induction pieces generalizing first with
  | nil => rfl
  | cons piece rest ih =>
      rw [enumerate, List.map_cons, ih (Nat.lt_succ_of_lt before), retexted_of_ne]
      exact before.ne'

/-- A line with another text is filled unless it is open and loses its text. -/
theorem filled_retexted_iff (filled : line.piece.terminator = none → line.piece.chars ≠ []) :
    ((line.retexted number text).piece.terminator = none →
        (line.retexted number text).piece.chars ≠ []) ↔
      (line.number = number → line.terminator.isSome = true ∨ text ≠ "") := by
  rw [piece_retexted]
  by_cases same : line.number = number
  · cases ending : line.terminator <;> simp [same]
  · simpa [same, piece] using filled

/-- Lines stay separate with a plain text for one of them, unless an open line loses its text. -/
theorem separate_map_retexted_iff {lines : List Line}
    (separate : Piece.Separate (lines.map piece))
    (plain : ∀ c ∈ text.toList, c ≠ '\n' ∧ c ≠ '\r') :
    Piece.Separate ((lines.map (retexted number text)).map piece) ↔
      ∀ line ∈ lines, line.number = number → line.terminator.isSome = true ∨ text ≠ "" := by
  have filled := List.forall_mem_map.mp separate.filled
  have terminated : lines.Pairwise fun line _ => line.terminator.isSome = true :=
    List.pairwise_map.mp separate.terminated
  have ownPlain : ∀ line ∈ lines, ∀ c ∈ line.text.toList, c ≠ '\n' ∧ c ≠ '\r' :=
    List.forall_mem_map.mp separate.plain
  have filled_iff : (∀ changed ∈ (lines.map (retexted number text)).map piece,
      changed.terminator = none → changed.chars ≠ []) ↔
        ∀ line ∈ lines, line.number = number → line.terminator.isSome = true ∨ text ≠ "" := by
    rw [List.forall_mem_map, List.forall_mem_map]
    exact forall₂_congr fun line member => filled_retexted_iff (filled line member)
  constructor
  · exact fun stillSeparate => filled_iff.mp stillSeparate.filled
  · intro closed
    refine ⟨?_, ?_, filled_iff.mpr closed⟩
    · simpa only [List.pairwise_map, piece_retexted] using terminated
    · rw [List.forall_mem_map, List.forall_mem_map]
      intro line member
      rw [piece_retexted]
      by_cases same : line.number = number
      · simpa only [if_pos same] using plain
      · simpa only [if_neg same] using ownPlain line member

/-- In a text with paired carriage returns only an open line that loses its text keeps the lines
from being canonical again. -/
theorem canonical_map_retexted_iff {contents : String}
    (paired : Text.ReturnsPaired contents.toList)
    (plain : ∀ c ∈ text.toList, c ≠ '\n' ∧ c ≠ '\r') :
    Canonical ((split contents).map (retexted number text)) ↔
      ∀ line ∈ split contents, line.number = number →
        line.terminator.isSome = true ∨ text ≠ "" := by
  rw [← separate_map_retexted_iff (separate_split contents) plain]
  constructor
  · exact fun canonical => canonical.pieces.toSeparate
  · intro separate
    have unreturned := Piece.terminator_ne_of_returnsPaired paired
    rw [← map_piece_split, List.forall_mem_map] at unreturned
    refine ⟨?_, separate.canonical_of_ne_return ?_⟩
    · rw [map_number_retexted, List.length_map, map_number_split]
    · rw [List.forall_mem_map, List.forall_mem_map]
      intro line member
      rw [piece_retexted]
      exact unreturned line member

end Line

end LinePrune
