import LinePrune.Line
import Mathlib.Data.List.Chain

namespace LinePrune

namespace Piece

/-- Pieces can be told apart again when they stand side by side: no text holds a terminator
character, only the last piece may be open, and an open piece holds something. -/
structure Separate (pieces : List Piece) : Prop where
  terminated : pieces.Pairwise fun piece _ => piece.terminator.isSome = true
  plain : ∀ piece ∈ pieces, ∀ c ∈ piece.chars, c ≠ '\n' ∧ c ≠ '\r'
  filled : ∀ piece ∈ pieces, piece.terminator = none → piece.chars ≠ []

/-- Leaving pieces out keeps the others apart. -/
theorem Separate.sublist {chosen pieces : List Piece} (separate : Separate pieces)
    (fewer : chosen.Sublist pieces) : Separate chosen where
  terminated := separate.terminated.sublist fewer
  plain piece member := separate.plain piece (fewer.subset member)
  filled piece member := separate.filled piece (fewer.subset member)

/-- No piece stands behind an open one. -/
theorem Separate.eq_nil_of_open {piece : Piece} {rest : List Piece}
    (separate : Separate (piece :: rest)) (isOpen : piece.terminator = none) : rest = [] := by
  refine List.eq_nil_iff_forall_not_mem.mpr fun other member => ?_
  have closed := List.rel_of_pairwise_cons separate.terminated member
  simp [isOpen] at closed

/-- A carriage return takes a line feed that follows it at once for its other half. -/
def Joins (first second : Piece) : Prop :=
  first.terminator = some .cr ∧ second = ⟨[], some .lf⟩

/-- Canonical pieces are separate, and no two neighbours have terminators that join. -/
structure Canonical (pieces : List Piece) : Prop extends Separate pieces where
  unjoined : pieces.IsChain fun first second => ¬ first.Joins second

theorem terminated_consFirst {c : Char} {pieces : List Piece}
    (terminated : pieces.Pairwise fun piece _ => piece.terminator.isSome = true) :
    (consFirst c pieces).Pairwise fun piece _ => piece.terminator.isSome = true := by
  cases pieces with
  | nil => simp [consFirst]
  | cons piece rest => simpa [consFirst] using terminated

theorem filled_consFirst {c : Char} {pieces : List Piece}
    (filled : ∀ piece ∈ pieces, piece.terminator = none → piece.chars ≠ []) :
    ∀ piece ∈ consFirst c pieces, piece.terminator = none → piece.chars ≠ [] := by
  cases pieces with
  | nil => simp [consFirst]
  | cons piece rest =>
      simp only [List.mem_cons, forall_eq_or_imp] at filled
      simpa [consFirst] using filled.2

/-- The pieces of every text are separate. -/
theorem separate_cut (chars : List Char) : Separate (cut chars) where
  plain := chars_cut chars
  terminated := by
    fun_induction cut chars with
    | case1 => simp
    | case2 rest ih => simpa using ih
    | case3 rest _ ih => simpa using ih
    | case4 rest ih => simpa using ih
    | case5 c rest _ _ _ ih => exact terminated_consFirst ih
  filled := by
    fun_induction cut chars with
    | case1 => simp
    | case2 rest ih => simpa using ih
    | case3 rest _ ih => simpa using ih
    | case4 rest ih => simpa using ih
    | case5 c rest _ _ _ ih => exact filled_consFirst ih

/-- The first piece of a text is a bare line feed only where the text begins with one. -/
theorem head?_of_head?_cut {chars : List Char} (bare : (cut chars).head? = some ⟨[], some .lf⟩) :
    chars.head? = some '\n' := by
  obtain ⟨others, pieces⟩ := List.head?_eq_some_iff.mp bare
  rw [← flatMap_content_cut chars, pieces]
  rfl

theorem unjoined_consFirst {c : Char} {pieces : List Piece}
    (unjoined : pieces.IsChain fun first second => ¬ first.Joins second) :
    (consFirst c pieces).IsChain fun first second => ¬ first.Joins second := by
  cases pieces with
  | nil => simp [consFirst]
  | cons piece rest =>
      rw [List.isChain_cons] at unjoined
      exact List.isChain_cons.mpr unjoined

theorem unjoined_cut (chars : List Char) :
    (cut chars).IsChain fun first second => ¬ first.Joins second := by
  fun_induction cut chars with
  | case1 => exact .nil
  | case2 rest ih => exact List.isChain_cons.mpr ⟨by simp [Joins], ih⟩
  | case3 rest notPair ih =>
      refine List.isChain_cons.mpr ⟨?_, ih⟩
      intro next first joins
      obtain ⟨_, rfl⟩ := joins
      obtain ⟨behind, rfl⟩ := List.head?_eq_some_iff.mp (head?_of_head?_cut first)
      exact notPair behind rfl
  | case4 rest ih => exact List.isChain_cons.mpr ⟨by simp [Joins], ih⟩
  | case5 c rest _ _ _ ih => exact unjoined_consFirst ih

/-- The pieces of every text are canonical. -/
theorem canonical_cut (chars : List Char) : Canonical (cut chars) :=
  ⟨separate_cut chars, unjoined_cut chars⟩

section Cutting

variable {chars : List Char} {terminator : Terminator}

theorem cut_cons_of_plain {c : Char} (plain : c ≠ '\n' ∧ c ≠ '\r') (rest : List Char) :
    cut (c :: rest) = consFirst c (cut rest) := by
  rw [cut]
  · exact fun _ isReturn _ => plain.2 isReturn
  · exact plain.2
  · exact plain.1

/-- A terminator closes the piece in front of it, unless what follows is its other half. -/
theorem cut_terminator_append (rest : List Char)
    (unjoined : terminator = .cr → rest.head? ≠ some '\n') :
    cut (terminator.chars ++ rest) = ⟨[], some terminator⟩ :: cut rest := by
  cases terminator with
  | lf => simp [Terminator.chars, cut]
  | crlf => simp [Terminator.chars, cut]
  | cr =>
      rw [Terminator.chars, List.singleton_append, cut]
      intro behind feed
      subst feed
      exact unjoined rfl rfl

/-- Characters without a terminator go to the piece behind them. -/
theorem cut_append_of_plain (plain : ∀ c ∈ chars, c ≠ '\n' ∧ c ≠ '\r') {rest : List Char}
    {piece : Piece} {others : List Piece} (behind : cut rest = piece :: others) :
    cut (chars ++ rest) = ⟨chars ++ piece.chars, piece.terminator⟩ :: others := by
  induction chars with
  | nil => exact behind
  | cons c chars ih =>
      rw [List.forall_mem_cons] at plain
      rw [List.cons_append, cut_cons_of_plain plain.1, ih plain.2, consFirst]
      rfl

/-- Characters that nothing closes are one open piece. -/
theorem cut_of_plain (plain : ∀ c ∈ chars, c ≠ '\n' ∧ c ≠ '\r') (filled : chars ≠ []) :
    cut chars = [⟨chars, none⟩] := by
  induction chars with
  | nil => exact absurd rfl filled
  | cons c chars ih =>
      rw [List.forall_mem_cons] at plain
      rw [cut_cons_of_plain plain.1]
      cases chars with
      | nil => rfl
      | cons next others => rw [ih plain.2 (List.cons_ne_nil _ _), consFirst]

/-- Canonical pieces side by side are cut into themselves. -/
theorem cut_flatMap_content {pieces : List Piece} (canonical : Canonical pieces) :
    cut (pieces.flatMap content) = pieces := by
  induction pieces with
  | nil => rfl
  | cons piece rest ih =>
      obtain ⟨separate, unjoined⟩ := canonical
      rw [List.isChain_cons] at unjoined
      have restCut : cut (rest.flatMap content) = rest :=
        ih ⟨separate.sublist (List.sublist_cons_self ..), unjoined.2⟩
      have plain := separate.plain piece (List.mem_cons_self ..)
      obtain ⟨chars, ending⟩ := piece
      rw [List.flatMap_cons, content]
      cases ending with
      | some terminator =>
          have notPair : terminator = .cr → (rest.flatMap content).head? ≠ some '\n' := by
            intro isReturn feed
            subst isReturn
            obtain ⟨behind, text⟩ := List.head?_eq_some_iff.mp feed
            rw [text, cut] at restCut
            exact unjoined.1 ⟨[], some .lf⟩ (by rw [← restCut, List.head?_cons, Option.mem_some])
              ⟨rfl, rfl⟩
          rw [List.append_assoc, Option.map_some, Option.getD_some,
            cut_append_of_plain plain (cut_terminator_append _ notPair), restCut]
          simp
      | none =>
          -- An open piece is the last one, so nothing follows that could be glued to it.
          obtain rfl := separate.eq_nil_of_open rfl
          have filled := separate.filled _ (List.mem_cons_self ..) rfl
          simpa using cut_of_plain plain filled

end Cutting

end Piece

namespace Line

/-- Without its number, a line is a piece. -/
def piece (line : Line) : Piece :=
  ⟨line.text.toList, line.terminator⟩

@[simp] theorem piece_ofPiece (number : Nat) (piece : Piece) :
    (ofPiece number piece).piece = piece := by
  simp [ofPiece, Line.piece]

@[simp] theorem map_piece_enumerate (first : Nat) (pieces : List Piece) :
    (enumerate first pieces).map piece = pieces := by
  induction pieces generalizing first with
  | nil => rfl
  | cons piece rest ih => rw [enumerate, List.map_cons, piece_ofPiece, ih]

theorem map_piece_split (contents : String) :
    (split contents).map piece = Piece.cut contents.toList :=
  map_piece_enumerate 1 _

/-- The numbers of lines in order and their pieces are all that there is to them. -/
theorem enumerate_map_piece {first : Nat} {lines : List Line}
    (numbered : lines.map number = List.range' first lines.length) :
    enumerate first (lines.map piece) = lines := by
  induction lines generalizing first with
  | nil => rfl
  | cons line rest ih =>
      rw [List.map_cons, List.length_cons, List.range'_succ, List.cons.injEq] at numbered
      obtain ⟨rfl, following⟩ := numbered
      rw [List.map_cons, enumerate, ih following, ofPiece, piece, String.ofList_toList]

theorem toList_content (line : Line) : line.content.toList = line.piece.content := by
  rw [content, String.toList_append, String.toList_ofList, piece, Piece.content]

theorem toList_join_content (lines : List Line) :
    (String.join (lines.map content)).toList = (lines.map piece).flatMap Piece.content := by
  induction lines with
  | nil => rfl
  | cons line rest ih =>
      rw [List.map_cons, String.join_cons, String.toList_append, ih, List.map_cons,
        List.flatMap_cons, toList_content]

/-- Canonical lines are numbered from one, and their pieces are canonical. -/
structure Canonical (lines : List Line) : Prop where
  numbered : lines.map number = List.range' 1 lines.length
  pieces : Piece.Canonical (lines.map piece)

theorem canonical_split (contents : String) : Canonical (split contents) where
  numbered := map_number_split contents
  pieces := map_piece_split contents ▸ Piece.canonical_cut _

/-- Lines are those of a text exactly when they are canonical and make up the text. -/
theorem split_eq_iff {contents : String} {lines : List Line} :
    split contents = lines ↔ Canonical lines ∧ String.join (lines.map content) = contents := by
  constructor
  · rintro rfl
    exact ⟨canonical_split contents, join_content_split contents⟩
  · rintro ⟨canonical, rfl⟩
    rw [split, toList_join_content, Piece.cut_flatMap_content canonical.pieces,
      enumerate_map_piece canonical.numbered]

/-- Every text falls into canonical lines and is made up of them, and of all lists of lines the
canonical ones alone are what their contents fall into. -/
theorem split_join_content_iff :
    (∀ contents, Canonical (split contents) ∧
      String.join ((split contents).map content) = contents) ∧
    ∀ lines, split (String.join (lines.map content)) = lines ↔ Canonical lines := by
  refine ⟨fun contents => ⟨canonical_split contents, join_content_split contents⟩, fun lines => ?_⟩
  constructor
  · intro same
    rw [← same]
    exact canonical_split _
  · intro canonical
    rw [split, toList_join_content, Piece.cut_flatMap_content canonical.pieces,
      enumerate_map_piece canonical.numbered]

/-- A line that is lost to the terminator in front of it. -/
example : split (String.join ([⟨1, "a", some .cr⟩, ⟨2, "", some .lf⟩].map content)) =
    [⟨1, "a", some .crlf⟩] := by
  decide

end Line

end LinePrune
