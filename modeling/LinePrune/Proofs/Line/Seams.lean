import LinePrune.Proofs.Line.Decomposition

namespace LinePrune

namespace Piece

/-- One of two texts is empty, or a terminator ends at the seam between them. -/
def EndsAtSeam (first second : List Char) : Prop :=
  first = [] ∨ second = [] ∨ first.getLast? = some '\n' ∨
    first.getLast? = some '\r' ∧ second.head? ≠ some '\n'

/-- Pieces are parted when the last one of the first text is closed for good. -/
def Parted (first second : List Piece) : Prop :=
  ∀ last ∈ first.getLast?, ∀ next ∈ second.head?,
    last.terminator.isSome = true ∧ ¬ last.Joins next

/-- Every piece but the last is closed anyway. -/
theorem terminated_of_getLast? {pieces : List Piece}
    (terminated : pieces.Pairwise fun piece _ => piece.terminator.isSome = true)
    (closed : ∀ last ∈ pieces.getLast?, last.terminator.isSome = true) :
    ∀ piece ∈ pieces, piece.terminator.isSome = true := by
  obtain rfl | ⟨front, last, rfl⟩ := List.eq_nil_or_concat' pieces
  · simp
  · intro piece member
    rcases List.mem_append.mp member with before | isLast
    · have isLast := List.mem_singleton_self last
      exact (List.pairwise_append.mp terminated).2.2 piece before last isLast
    · obtain rfl := List.mem_singleton.mp isLast
      exact closed piece (by simp)

/-- Canonical pieces stay canonical side by side exactly when they are parted. -/
theorem canonical_append_iff {first second : List Piece} (firstCanonical : Canonical first)
    (secondCanonical : Canonical second) : Canonical (first ++ second) ↔ Parted first second := by
  constructor
  · intro canonical last isLast next isNext
    have closed := (List.pairwise_append.mp canonical.terminated).2.2 last
      (List.mem_of_getLast? isLast) next (List.mem_of_head? isNext)
    exact ⟨closed, (List.isChain_append.mp canonical.unjoined).2.2 last isLast next isNext⟩
  · intro parted
    have closed : ∀ piece ∈ first, ∀ next ∈ second, piece.terminator.isSome = true := by
      intro piece member next behind
      cases second with
      | nil => contradiction
      | cons head rest =>
          have lastClosed : ∀ last ∈ first.getLast?, last.terminator.isSome = true :=
            fun last isLast => (parted last isLast head rfl).1
          exact terminated_of_getLast? firstCanonical.terminated lastClosed piece member
    refine ⟨⟨?_, ?_, ?_⟩, ?_⟩
    · exact List.pairwise_append.mpr
        ⟨firstCanonical.terminated, secondCanonical.terminated, closed⟩
    · exact List.forall_mem_append.mpr ⟨firstCanonical.plain, secondCanonical.plain⟩
    · exact List.forall_mem_append.mpr ⟨firstCanonical.filled, secondCanonical.filled⟩
    · exact List.isChain_append.mpr ⟨firstCanonical.unjoined, secondCanonical.unjoined,
        fun last isLast next isNext => (parted last isLast next isNext).2⟩

@[simp] theorem cut_eq_nil_iff {chars : List Char} : cut chars = [] ↔ chars = [] := by
  constructor
  · intro none
    rw [← flatMap_content_cut chars, none, List.flatMap_nil]
  · rintro rfl
    rfl

/-- A text begins with a line feed exactly when its first piece is a bare one. -/
theorem head?_cut_eq_feed_iff {chars : List Char} :
    (cut chars).head? = some ⟨[], some .lf⟩ ↔ chars.head? = some '\n' := by
  constructor
  · exact head?_of_head?_cut
  · intro feed
    obtain ⟨rest, rfl⟩ := List.head?_eq_some_iff.mp feed
    simp [cut]

/-- A text ends as its last piece does. -/
theorem getLast?_of_getLast?_cut {chars : List Char} {last : Piece}
    (isLast : (cut chars).getLast? = some last) : chars.getLast? = last.content.getLast? := by
  obtain ⟨front, pieces⟩ := List.getLast?_eq_some_iff.mp isLast
  have filled := (separate_cut chars).filled last (List.mem_of_getLast? isLast)
  have content : last.content ≠ [] := by
    cases ending : last.terminator with
    | none => simpa [Piece.content, ending] using filled ending
    | some terminator => cases terminator <;> simp [Piece.content, ending, Terminator.chars]
  rw [← flatMap_content_cut chars, pieces, List.flatMap_append, List.flatMap_singleton,
    List.getLast?_append_of_ne_nil _ content]

/-- An open piece ends with one of its own characters. -/
theorem ne_terminator_of_open {piece : Piece} (plain : ∀ c ∈ piece.chars, c ≠ '\n' ∧ c ≠ '\r')
    (isOpen : piece.terminator = none) :
    piece.content.getLast? ≠ some '\n' ∧ piece.content.getLast? ≠ some '\r' := by
  have content : piece.content = piece.chars := by simp [Piece.content, isOpen]
  rw [content]
  exact ⟨fun feed => (plain _ (List.mem_of_getLast? feed)).1 rfl,
    fun back => (plain _ (List.mem_of_getLast? back)).2 rfl⟩

/-- A closed piece ends with the last character of its terminator. -/
theorem getLast?_content_of_closed {piece : Piece} {terminator : Terminator}
    (closed : piece.terminator = some terminator) :
    piece.content.getLast? = some (if terminator = .cr then '\r' else '\n') := by
  cases terminator <;> simp [Piece.content, closed, Terminator.chars]

/-- Whether the pieces of two texts are parted can be seen at the seam. -/
theorem parted_cut_iff {first second : List Char} :
    Parted (cut first) (cut second) ↔ EndsAtSeam first second := by
  cases isLast : (cut first).getLast? with
  | none =>
      obtain rfl : first = [] := cut_eq_nil_iff.mp (List.getLast?_eq_none_iff.mp isLast)
      exact iff_of_true (by simp [Parted, cut]) (.inl rfl)
  | some last =>
      cases isNext : (cut second).head? with
      | none =>
          obtain rfl : second = [] := cut_eq_nil_iff.mp (List.head?_eq_none_iff.mp isNext)
          exact iff_of_true (by simp [Parted, cut]) (.inr (.inl rfl))
      | some next =>
          have firstFilled : first ≠ [] := by
            rintro rfl
            simp [cut] at isLast
          have secondFilled : second ≠ [] := by
            rintro rfl
            simp [cut] at isNext
          have bare : next = ⟨[], some .lf⟩ ↔ second.head? = some '\n' := by
            rw [← head?_cut_eq_feed_iff, isNext, Option.some.injEq]
          simp only [Parted, EndsAtSeam, isLast, isNext, Option.mem_some, forall_eq', firstFilled,
            secondFilled, false_or, Joins, bare, getLast?_of_getLast?_cut isLast]
          cases ending : last.terminator with
          | none =>
              have plain := chars_cut first last (List.mem_of_getLast? isLast)
              simp [ne_terminator_of_open plain ending]
          | some terminator =>
              rw [getLast?_content_of_closed ending]
              cases terminator <;> simp

/-- The pieces of two texts are the pieces of the whole exactly when a terminator ends at the seam,
unless there is nothing on one side of it. -/
theorem cut_append_iff {first second : List Char} :
    cut (first ++ second) = cut first ++ cut second ↔ EndsAtSeam first second := by
  rw [← parted_cut_iff, ← canonical_append_iff (canonical_cut first) (canonical_cut second)]
  constructor
  · intro same
    rw [← same]
    exact canonical_cut _
  · intro canonical
    have recut := cut_flatMap_content canonical
    rwa [List.flatMap_append, flatMap_content_cut, flatMap_content_cut] at recut

/-- The second text can be cut short without a loss at the seam. -/
theorem EndsAtSeam.of_append {before text after : List Char}
    (seam : EndsAtSeam before (text ++ after)) : EndsAtSeam before text := by
  cases text with
  | nil => exact .inr (.inl rfl)
  | cons c rest => simpa [EndsAtSeam] using seam

/-- A seam follows a closed piece, unless a line feed joins its carriage return. -/
theorem EndsAtSeam.of_closed {piece : Piece} {terminator : Terminator}
    (closed : piece.terminator = some terminator) (before : List Char) {rest : List Char}
    (unjoined : terminator = .cr → rest.head? ≠ some '\n') :
    EndsAtSeam (before ++ piece.content) rest := by
  rw [EndsAtSeam, List.getLast?_append, getLast?_content_of_closed closed, Option.some_or]
  by_cases back : terminator = .cr
  · rw [if_pos back]
    exact .inr (.inr (.inr ⟨rfl, unjoined back⟩))
  · rw [if_neg back]
    exact .inr (.inr (.inl rfl))

/-- A piece alone is cut into itself. -/
theorem cut_content {piece : Piece} (plain : ∀ c ∈ piece.chars, c ≠ '\n' ∧ c ≠ '\r')
    (filled : piece.terminator = none → piece.chars ≠ []) : cut piece.content = [piece] := by
  have canonical : Canonical [piece] :=
    ⟨⟨List.pairwise_singleton _ _, by simpa using plain, by simpa using filled⟩, .singleton _⟩
  rw [← List.flatMap_singleton content piece, cut_flatMap_content canonical]

end Piece

namespace Line

/-- The line as it stands behind others. -/
def shifted (count : Nat) (line : Line) : Line :=
  { line with number := line.number + count }

theorem map_shifted_enumerate (count first : Nat) (pieces : List Piece) :
    (enumerate first pieces).map (shifted count) = enumerate (first + count) pieces := by
  induction pieces generalizing first with
  | nil => rfl
  | cons piece rest ih =>
      rw [enumerate, List.map_cons, ih, enumerate, Nat.add_right_comm]
      rfl

theorem enumerate_append (first : Nat) (before behind : List Piece) :
    enumerate first (before ++ behind) =
      enumerate first before ++ enumerate (first + before.length) behind := by
  induction before generalizing first with
  | nil => rfl
  | cons piece rest ih =>
      rw [List.cons_append, enumerate, ih, enumerate, List.cons_append, List.length_cons,
        Nat.add_right_comm, Nat.add_assoc]

/-- Lines in order are equal when their pieces are. -/
theorem enumerate_inj {first : Nat} {pieces others : List Piece} :
    enumerate first pieces = enumerate first others ↔ pieces = others := by
  constructor
  · intro same
    rw [← map_piece_enumerate first pieces, same, map_piece_enumerate]
  · exact congrArg _

theorem split_append_shifted (first second : String) :
    split first ++ (split second).map (shifted (split first).length) =
      enumerate 1 (Piece.cut first.toList ++ Piece.cut second.toList) := by
  rw [enumerate_append, split, split, map_shifted_enumerate, length_enumerate]

/-- A piece behind a seam is one more line. -/
theorem split_append_content {before : String} {piece : Piece}
    (seam : Piece.EndsAtSeam before.toList piece.content)
    (plain : ∀ c ∈ piece.chars, c ≠ '\n' ∧ c ≠ '\r')
    (filled : piece.terminator = none → piece.chars ≠ []) :
    split (before ++ String.ofList piece.content) =
      split before ++ [ofPiece ((split before).length + 1) piece] := by
  rw [split, String.toList_append, String.toList_ofList, Piece.cut_append_iff.mpr seam,
    Piece.cut_content plain filled, enumerate_append, split, length_enumerate, Nat.add_comm]
  rfl

/-- The lines of two texts side by side are those of the first text and then those of the second
one, counted on, exactly when one of the texts is empty or a terminator ends at the seam. -/
theorem split_append_iff (first second : String) :
    split (first ++ second) = split first ++ (split second).map (shifted (split first).length) ↔
      first = "" ∨ second = "" ∨ first.toList.getLast? = some '\n' ∨
        first.toList.getLast? = some '\r' ∧ second.toList.head? ≠ some '\n' := by
  rw [split_append_shifted, split, String.toList_append, enumerate_inj, Piece.cut_append_iff,
    Piece.EndsAtSeam, String.toList_eq_nil_iff, String.toList_eq_nil_iff]

/-- A line feed that meets the carriage return of another text makes one terminator with it. -/
example : split ("a\r" ++ "\nb") = [⟨1, "a", some .crlf⟩, ⟨2, "b", none⟩] := by
  decide

end Line

end LinePrune
