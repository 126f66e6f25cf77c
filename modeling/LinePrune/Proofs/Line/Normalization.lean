import LinePrune.Proofs.Line.Rendering
import LinePrune.Text.Replacement

namespace LinePrune

namespace Piece

theorem flatMap_rewritten_consFirst (c : Char) (pieces : List Piece) :
    ((consFirst c pieces).flatMap fun piece => piece.rewritten.content) =
      c :: pieces.flatMap fun piece => piece.rewritten.content := by
  cases pieces <;> simp [consFirst, rewritten, content]

/-- A line feed behind a carriage return goes with it, and the other carriage returns are left to
the second replacement. -/
theorem flatMap_rewritten_cut (chars : List Char) :
    ((cut chars).flatMap fun piece => piece.rewritten.content) =
      Text.replaceIn ['\r'] ['\n'] (Text.replaceIn ['\r', '\n'] ['\n'] chars) := by
  have pair (rest : List Char) : Text.replaceIn ['\r', '\n'] ['\n'] ('\r' :: '\n' :: rest) =
      '\n' :: Text.replaceIn ['\r', '\n'] ['\n'] rest :=
    Text.replaceIn_append_of_filled (List.cons_ne_nil _ _) rest
  fun_induction cut chars with
  | case1 => simp
  | case2 rest ih =>
      rw [List.flatMap_cons, ih, pair, Text.replaceIn_singleton, Text.replaceIn_singleton]
      rfl
  | case3 rest notPair ih =>
      have absent : ¬ ['\r', '\n'] <+: '\r' :: rest := by
        rintro ⟨behind, whole⟩
        exact notPair behind (List.cons.inj whole).2.symm
      rw [List.flatMap_cons, ih, Text.replaceIn_cons_of_absent _ absent,
        Text.replaceIn_singleton, Text.replaceIn_singleton]
      rfl
  | case4 rest ih =>
      rw [List.flatMap_cons, ih, Text.replaceIn_cons_of_absent _ (by simp),
        Text.replaceIn_singleton, Text.replaceIn_singleton]
      rfl
  | case5 c rest _ notReturn _ ih =>
      have absent : ¬ ['\r', '\n'] <+: c :: rest := by
        rintro ⟨behind, whole⟩
        exact notReturn (List.cons.inj whole).1.symm
      rw [flatMap_rewritten_consFirst, ih, Text.replaceIn_cons_of_absent _ absent,
        Text.replaceIn_singleton, Text.replaceIn_singleton, List.flatMap_cons, if_neg notReturn,
        List.singleton_append]

end Piece

namespace Line

/-- The text with every pair of a carriage return and a line feed replaced by a line feed, and then
every other carriage return. -/
def withLineFeeds (contents : String) : String :=
  Text.replace (Text.replace contents "\r\n" "\n") "\r" "\n"

theorem toList_withLineFeeds (contents : String) : (withLineFeeds contents).toList =
    Text.replaceIn ['\r'] ['\n'] (Text.replaceIn ['\r', '\n'] ['\n'] contents.toList) := by
  rw [withLineFeeds, Text.toList_replace, Text.toList_replace]
  rfl

theorem render_split (contents : String) : render (split contents) = withLineFeeds contents := by
  apply String.toList_injective
  rw [toList_render, map_piece_split, Piece.flatMap_rewritten_cut, toList_withLineFeeds]

theorem return_not_mem_withLineFeeds (contents : String) :
    '\r' ∉ (withLineFeeds contents).toList := by
  rw [toList_withLineFeeds]
  exact Text.not_mem_replaceIn_singleton (by decide) _

/-- Where no carriage return is, there is nothing to replace. -/
theorem withLineFeeds_of_not_mem {contents : String} (absent : '\r' ∉ contents.toList) :
    withLineFeeds contents = contents := by
  have noPair : ¬ "\r\n".toList <:+: contents.toList := by
    intro found
    exact absent (found.subset List.mem_cons_self)
  have noReturn : ¬ "\r".toList <:+: contents.toList := by
    intro found
    exact absent (found.subset List.mem_cons_self)
  rw [withLineFeeds, Text.replace_of_not_infix _ noPair, Text.replace_of_not_infix _ noReturn]

/-- Splitting and rendering a text replaces its terminators by line feeds, changes nothing exactly
when there is no carriage return, and changes nothing the second time. -/
theorem render_split_normalizes (contents : String) :
    render (split contents) = Text.replace (Text.replace contents "\r\n" "\n") "\r" "\n" ∧
      (render (split contents) = contents ↔ '\r' ∉ contents.toList) ∧
      render (split (render (split contents))) = render (split contents) := by
  have noReturn : '\r' ∉ (render (split contents)).toList := by
    rw [render_split]
    exact return_not_mem_withLineFeeds contents
  refine ⟨render_split contents, ⟨fun same => same ▸ noReturn, fun absent => ?_⟩, ?_⟩
  · rw [render_split, withLineFeeds_of_not_mem absent]
  · rw [render_split (render (split contents)), withLineFeeds_of_not_mem noReturn]

/-- Carriage returns and line feeds that make four terminators. -/
example : render (split "\r\r\n\n\r") = "\n\n\n\n" := by
  decide

end Line

end LinePrune
