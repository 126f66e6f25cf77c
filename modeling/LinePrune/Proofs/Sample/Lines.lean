import LinePrune.Proofs.Line.OtherText
import LinePrune.Proofs.Text.Escapes
import LinePrune.Sample

namespace LinePrune

namespace Sample

variable {chars : List Char}

theorem map_content_consFirst (c : Char) (pieces : List Piece) :
    (Piece.consFirst c pieces).map Piece.content = consFirst c (pieces.map Piece.content) := by
  cases pieces <;> rfl

/-- The pieces of a text with paired carriage returns are the contents of its lines. -/
theorem pieces_eq_map_content_cut (paired : Text.ReturnsPaired chars) :
    pieces chars = (Piece.cut chars).map Piece.content := by
  fun_induction Piece.cut chars with
  | case1 => rfl
  | case2 rest ih =>
      rw [pieces_cons_of_ne (by decide), pieces, consFirst, ih paired.tail.tail]
      rfl
  | case3 rest notPair ih =>
      obtain ⟨behind, rfl⟩ := paired.exists_feed
      exact absurd rfl (notPair behind)
  | case4 rest ih =>
      rw [pieces, ih paired.tail]
      rfl
  | case5 c rest _ _ notFeed ih =>
      rw [pieces_cons_of_ne notFeed, ih paired.tail, map_content_consFirst]

/-- A text has no more pieces than lines, for a carriage return parts lines only. -/
theorem length_pieces_le (chars : List Char) :
    (pieces chars).length ≤ (Piece.cut chars).length := by
  fun_induction Piece.cut chars with
  | case1 => rfl
  | case2 rest ih =>
      rw [pieces_cons_of_ne (by decide), pieces, consFirst]
      exact Nat.succ_le_succ ih
  | case3 rest _ ih =>
      rw [pieces_cons_of_ne (by decide), length_consFirst, List.length_cons]
      omega
  | case4 rest ih =>
      rw [pieces]
      exact Nat.succ_le_succ ih
  | case5 c rest _ _ notFeed ih =>
      rw [pieces_cons_of_ne notFeed, length_consFirst, Piece.length_consFirst]
      omega

/-- What stands behind the text of a line is its terminator. -/
theorem terminatorTail_content {piece : Piece} (plain : ∀ c ∈ piece.chars, c ≠ '\n' ∧ c ≠ '\r') :
    terminatorTail piece.content = (piece.terminator.map Terminator.chars).getD [] := by
  have marks : ∀ c ∈ ((piece.terminator.map Terminator.chars).getD []).reverse,
      isTerminatorChar c = true := by
    rcases piece.terminator with _ | _ | _ | _ <;> simp [Terminator.chars, isTerminatorChar]
  have texts : piece.chars.reverse.takeWhile isTerminatorChar = [] := by
    cases reversed : piece.chars.reverse with
    | nil => rfl
    | cons c rest =>
        have member : c ∈ piece.chars := by
          rw [← List.mem_reverse, reversed]
          exact List.mem_cons_self
        have notMark : isTerminatorChar c = false := by simp [isTerminatorChar, plain c member]
        rw [List.takeWhile_cons_of_neg (by simp [notMark])]
  rw [terminatorTail, Piece.content, List.reverse_append, List.takeWhile_append_of_pos marks, texts,
    List.append_nil, List.reverse_reverse]

/-- Replacing one of the contents of some lines gives the line with its number another text. -/
theorem map_content_retexted {pieces : List Piece}
    (plain : ∀ piece ∈ pieces, ∀ c ∈ piece.chars, c ≠ '\n' ∧ c ≠ '\r')
    (first index : Nat) (text : String) :
    (((Line.enumerate first pieces).map (Line.retexted (first + index) text)).map Line.piece).map
        Piece.content =
      replaceAt text.toList (index + 1) (pieces.map Piece.content) := by
  induction pieces generalizing first index with
  | nil => rfl
  | cons piece rest ih =>
      rw [List.forall_mem_cons] at plain
      cases index with
      | zero =>
          -- The first line is the one with the number, and all others stand behind it.
          rw [Line.enumerate, List.map_cons,
            Line.map_retexted_enumerate_of_lt (Nat.lt_succ_self _), List.map_cons,
            Line.map_piece_enumerate, List.map_cons, List.map_cons, replaceAt, replacePiece,
            terminatorTail_content plain.1, Line.piece_retexted]
          simp [Line.ofPiece, Piece.content]
      | succ index =>
          have other : (Line.ofPiece first piece).number ≠ first + (index + 1) := by
            simp [Line.ofPiece]
          have behind := ih plain.2 (first + 1) index
          rw [Nat.add_right_comm, Nat.add_assoc] at behind
          rw [Line.enumerate, List.map_cons, Line.retexted_of_ne other, List.map_cons,
            Line.piece_ofPiece, List.map_cons, behind, List.map_cons, replaceAt]

/-- With paired carriage returns the lines of a text are its pieces, so a replaced piece is a line
with another text. -/
theorem join_content_retexted {contents : String} (paired : Text.ReturnsPaired contents.toList)
    (number : Nat) (text : String) :
    String.join (((Line.split contents).map (Line.retexted number text)).map Line.content) =
      replaceLine contents number text := by
  apply String.toList_injective
  rw [Line.toList_join_content, replaceLine, String.toList_ofList, pieces_eq_map_content_cut paired,
    Line.split]
  cases number with
  | zero =>
      rw [Line.map_retexted_enumerate_of_lt Nat.zero_lt_one, Line.map_piece_enumerate,
        replaceAt_of_absent (.inl rfl), List.flatMap_def]
  | succ index =>
      have replaced := map_content_retexted (Piece.chars_cut contents.toList) 1 index text
      rw [Nat.add_comm 1 index] at replaced
      rw [List.flatMap_def, replaced]

/-- The line that is named by its number. -/
def numbered (number : Nat) : Line :=
  ⟨number, "line " ++ toString number, some .lf⟩

theorem content_numbered (number : Nat) : (numbered number).content = numberedLine number :=
  rfl

theorem join_content_numbered (count : Nat) :
    String.join (((List.range' 1 count).map numbered).map Line.content) = numberedLines count := by
  rw [numberedLines, List.range'_eq_map_range, List.map_map, List.map_map]
  congr 1
  refine List.map_congr_left fun index _ => ?_
  rw [Function.comp_apply, Function.comp_apply, content_numbered, Nat.add_comm]

theorem plain_numbered (number : Nat) :
    ∀ c ∈ (numbered number).text.toList, c ≠ '\n' ∧ c ≠ '\r' := by
  rw [numbered, String.toList_append, Nat.toString_eq_repr, Nat.toList_repr,
    List.forall_mem_append]
  exact ⟨by simp, Text.ne_terminator_of_mem_toDigits number⟩

theorem separate_numbered (count : Nat) :
    Piece.Separate (((List.range' 1 count).map numbered).map Line.piece) where
  terminated := by
    rw [List.pairwise_map, List.pairwise_map]
    exact List.pairwise_of_forall fun _ _ => rfl
  plain := by
    rw [List.forall_mem_map, List.forall_mem_map]
    exact fun number _ => plain_numbered number
  filled := by
    rw [List.forall_mem_map, List.forall_mem_map]
    exact fun number _ isOpen => absurd isOpen nofun

theorem canonical_numbered (count : Nat) : Line.Canonical ((List.range' 1 count).map numbered) where
  numbered := by
    rw [List.map_map, List.length_map, List.length_range']
    exact List.map_id _
  pieces := by
    refine (separate_numbered count).canonical_of_ne_return ?_
    rw [List.forall_mem_map, List.forall_mem_map]
    exact fun number _ => nofun

/-- In a text with paired carriage returns, replacing a piece by a plain text gives the line with
its number that text and changes nothing else, exactly when the line is terminated or the text
holds something. In any text a number without a line replaces nothing. Numbered lines are read as
they are numbered. -/
theorem split_replaceLine_numberedLines :
    (∀ (contents : String) (number : Nat) (text : String),
      Text.ReturnsPaired contents.toList → (∀ c ∈ text.toList, c ≠ '\n' ∧ c ≠ '\r') →
        (Line.split (replaceLine contents number text) =
            (Line.split contents).map (Line.retexted number text) ↔
          ∀ line ∈ Line.split contents, line.number = number →
            line.terminator.isSome = true ∨ text ≠ "")) ∧
    (∀ (contents : String) (number : Nat) (text : String),
      number = 0 ∨ (Line.split contents).length < number →
        replaceLine contents number text = contents) ∧
    ∀ count, Line.split (numberedLines count) = (List.range' 1 count).map numbered := by
  refine ⟨?_, ?_, ?_⟩
  · intro contents number text paired plain
    rw [Line.split_eq_iff, join_content_retexted paired,
      Line.canonical_map_retexted_iff paired plain]
    exact and_iff_left rfl
  · intro contents number text absent
    have fewer := length_pieces_le contents.toList
    rw [Line.split, Line.length_enumerate] at absent
    rw [replaceLine, replaceAt_of_absent (absent.imp_right fewer.trans_lt), flatten_pieces,
      String.ofList_toList]
  · intro count
    exact Line.split_eq_iff.mpr ⟨canonical_numbered count, join_content_numbered count⟩

/-- The open line behind a pair of terminators gets a text, and no line stands behind it. -/
theorem split_replaceLine_of_mixed_terminators :
    let contents := "a\r\n\nb"
    Text.ReturnsPaired contents.toList ∧ (∀ c ∈ "é".toList, c ≠ '\n' ∧ c ≠ '\r') ∧
      Line.split (replaceLine contents 3 "é") =
        [⟨1, "a", some .crlf⟩, ⟨2, "", some .lf⟩, ⟨3, "é", none⟩] ∧
      Line.split (replaceLine contents 1 "") =
        [⟨1, "", some .crlf⟩, ⟨2, "", some .lf⟩, ⟨3, "b", none⟩] ∧
      (Line.split contents).length < 4 ∧ replaceLine contents 4 "é" = contents := by
  intro contents
  have paired : Text.ReturnsPaired contents.toList := by decide
  have plain : ∀ c ∈ "é".toList, c ≠ '\n' ∧ c ≠ '\r' := by simp
  have absent : (Line.split contents).length < 4 := by decide
  obtain ⟨replaced, unchanged, -⟩ := split_replaceLine_numberedLines
  refine ⟨paired, plain, ?_, ?_, absent, unchanged contents 4 "é" (.inr absent)⟩
  · exact ((replaced contents 3 "é" paired plain).mpr (by decide)).trans (by decide)
  · exact ((replaced contents 1 "" paired (by simp)).mpr (by decide)).trans (by decide)

/-- A lone carriage return parts lines that are one piece. -/
example : Line.split "a\rb\n" = [⟨1, "a", some .cr⟩, ⟨2, "b", some .lf⟩] ∧
    replaceLine "a\rb\n" 1 "c" = "c\n" := by
  decide

end Sample

end LinePrune
