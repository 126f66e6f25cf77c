import LinePrune.Proofs.Line.Decomposition

namespace LinePrune

namespace Piece

/-- The rewritten form of a terminated piece ends with a line feed, whatever ended it before. -/
def rewritten (piece : Piece) : Piece :=
  ⟨piece.chars, piece.terminator.map fun _ => .lf⟩

/-- Rewriting neither keeps pieces apart nor runs them together. -/
theorem separate_map_rewritten_iff {pieces : List Piece} :
    Separate (pieces.map rewritten) ↔ Separate pieces := by
  have terminated :
      ((pieces.map rewritten).Pairwise fun piece _ => piece.terminator.isSome = true) ↔
      pieces.Pairwise fun piece _ => piece.terminator.isSome = true := by
    simp [List.pairwise_map, rewritten]
  have plain : (∀ piece ∈ pieces.map rewritten, ∀ c ∈ piece.chars, c ≠ '\n' ∧ c ≠ '\r') ↔
      ∀ piece ∈ pieces, ∀ c ∈ piece.chars, c ≠ '\n' ∧ c ≠ '\r' := by
    simp [rewritten]
  have filled : (∀ piece ∈ pieces.map rewritten, piece.terminator = none → piece.chars ≠ []) ↔
      ∀ piece ∈ pieces, piece.terminator = none → piece.chars ≠ [] := by
    simp [rewritten]
  constructor
  · intro separate
    exact ⟨terminated.mp separate.terminated, plain.mp separate.plain, filled.mp separate.filled⟩
  · intro separate
    exact ⟨terminated.mpr separate.terminated, plain.mpr separate.plain,
      filled.mpr separate.filled⟩

/-- No rewritten piece ends with a carriage return that could join what follows. -/
theorem Separate.canonical_map_rewritten {pieces : List Piece} (separate : Separate pieces) :
    Canonical (pieces.map rewritten) where
  toSeparate := separate_map_rewritten_iff.mpr separate
  unjoined := by
    have never (first second : Piece) : ¬ first.rewritten.Joins second.rewritten := by
      cases ending : first.terminator <;> simp [Joins, rewritten, ending]
    exact (List.isChain_map rewritten).mpr (List.pairwise_of_forall never).isChain

/-- Rewritten pieces side by side are cut into themselves. -/
theorem cut_flatMap_rewritten {pieces : List Piece} (separate : Separate pieces) :
    cut (pieces.flatMap fun piece => piece.rewritten.content) = pieces.map rewritten := by
  rw [← List.flatMap_map rewritten]
  exact cut_flatMap_content separate.canonical_map_rewritten

end Piece

namespace Line

/-- Lines that are read back carry their ranks as numbers and end with line feeds. -/
def renumbered (lines : List Line) : List Line :=
  lines.mapIdx fun index line =>
    ⟨index + 1, line.text, line.terminator.map fun _ => .lf⟩

@[simp] theorem length_renumbered (lines : List Line) :
    (renumbered lines).length = lines.length :=
  List.length_mapIdx

theorem map_text_renumbered (lines : List Line) :
    (renumbered lines).map text = lines.map text := by
  apply List.ext_getElem?
  intro index
  rw [List.getElem?_map, List.getElem?_map, renumbered, List.getElem?_mapIdx, Option.map_map]
  rfl

theorem mem_renumbered_iff {lines : List Line} {line : Line} :
    line ∈ renumbered lines ↔ ∃ index kept, lines[index]? = some kept ∧
      line = ⟨index + 1, kept.text, kept.terminator.map fun _ => .lf⟩ := by
  simp only [renumbered, List.mem_iff_getElem?, List.getElem?_mapIdx, Option.map_eq_some_iff,
    eq_comm (a := line)]

theorem toList_rendered (line : Line) : line.rendered.toList = line.piece.rewritten.content := by
  cases ending : line.terminator <;>
    simp [rendered, piece, Piece.rewritten, Piece.content, ending, Terminator.chars]

theorem toList_render (lines : List Line) :
    (render lines).toList =
      (lines.map piece).flatMap fun piece => piece.rewritten.content := by
  induction lines with
  | nil => rfl
  | cons line rest ih =>
      rw [render, List.map_cons, String.join_cons, String.toList_append, toList_rendered,
        List.map_cons, List.flatMap_cons, ← ih, render]

theorem map_piece_renumbered (lines : List Line) :
    (renumbered lines).map piece = (lines.map piece).map Piece.rewritten := by
  apply List.ext_getElem?
  intro index
  rw [List.getElem?_map, List.getElem?_map, List.getElem?_map, renumbered, List.getElem?_mapIdx,
    Option.map_map, Option.map_map]
  rfl

theorem map_number_renumbered (lines : List Line) :
    (renumbered lines).map number = List.range' 1 lines.length := by
  apply List.ext_getElem
  · simp
  · intro index _ _
    simp [renumbered, Nat.add_comm]

/-- Separate lines that are rendered are read back one by one. -/
theorem split_render {lines : List Line} (separate : Piece.Separate (lines.map piece)) :
    split (render lines) = renumbered lines := by
  have numbered : (renumbered lines).map number = List.range' 1 (renumbered lines).length := by
    rw [map_number_renumbered, length_renumbered]
  calc split (render lines)
      = enumerate 1 ((renumbered lines).map piece) := by
        rw [split, toList_render, Piece.cut_flatMap_rewritten separate, map_piece_renumbered]
    _ = renumbered lines := enumerate_map_piece numbered

theorem separate_split (contents : String) : Piece.Separate ((split contents).map piece) := by
  rw [map_piece_split]
  exact Piece.separate_cut _

/-- No other lines are read back, since the lines of every text are separate. -/
theorem split_render_eq_renumbered_iff {lines : List Line} :
    split (render lines) = renumbered lines ↔ Piece.Separate (lines.map piece) := by
  constructor
  · intro reread
    have separate := separate_split (render lines)
    rw [reread, map_piece_renumbered] at separate
    exact Piece.separate_map_rewritten_iff.mp separate
  · exact split_render

/-- Any choice of the lines of a file can be rendered and read back. -/
theorem split_render_of_sublist {contents : String} {chosen : List Line}
    (fewer : chosen.Sublist (split contents)) : split (render chosen) = renumbered chosen :=
  split_render ((separate_split contents).sublist (fewer.map piece))

/-- Only the last line of a file can be without a terminator. -/
theorem terminated_of_sublist {contents : String} {chosen : List Line}
    (fewer : chosen.Sublist (split contents)) :
    chosen.Pairwise fun line _ => line.terminator.isSome = true := by
  have terminated := ((separate_split contents).sublist (fewer.map piece)).terminated
  rwa [List.pairwise_map] at terminated

end Line

end LinePrune
