import LinePrune.Proofs.Line.Rendering
import LinePrune.Selection
import Mathlib.Data.List.Basic

namespace LinePrune

namespace Line

/-- A plain line has its terminator behind its text and nowhere in it. -/
def IsPlain (line : Line) : Prop :=
  ∀ c ∈ line.text.toList, c ≠ '\n' ∧ c ≠ '\r'

theorem isPlain_of_mem_split {contents : String} {line : Line} (member : line ∈ split contents) :
    line.IsPlain := by
  have listed : line.piece ∈ (split contents).map piece := List.mem_map_of_mem member
  exact (separate_split contents).plain line.piece listed

/-- The characters in front of the first terminator character. -/
def textOfContent (content : String) : String :=
  String.ofList (content.toList.takeWhile fun c => c ≠ '\n' && c ≠ '\r')

/-- A content tells the text of its line. -/
theorem textOfContent_content {line : Line} (plain : line.IsPlain) :
    textOfContent line.content = line.text := by
  have kept : ∀ c ∈ line.text.toList, (c ≠ '\n' && c ≠ '\r') = true := by
    intro c member
    simpa using plain c member
  apply String.toList_injective
  rw [textOfContent, String.toList_ofList, content, String.toList_append,
    List.takeWhile_append_of_pos kept, String.toList_ofList]
  rcases line.terminator with _ | _ | _ | _ <;> simp [Terminator.chars]

/-- The characters behind a text tell its terminator, or that it has none. -/
theorem ending_injective :
    Function.Injective fun ending : Option Terminator => (ending.map Terminator.chars).getD [] := by
  intro first second same
  rcases first with _ | _ | _ | _ <;> rcases second with _ | _ | _ | _ <;>
    simp [Terminator.chars] at same ⊢

/-- Lines with one number are known by their contents. -/
theorem eq_of_content_eq {first second : Line} (firstPlain : first.IsPlain)
    (secondPlain : second.IsPlain) (number : first.number = second.number)
    (same : first.content = second.content) : first = second := by
  have text : first.text = second.text := by
    rw [← textOfContent_content firstPlain, same, textOfContent_content secondPlain]
  have endings := congrArg String.toList same
  simp only [content, text, String.toList_append, String.toList_ofList,
    List.append_cancel_left_eq] at endings
  have terminator : first.terminator = second.terminator := ending_injective endings
  cases first
  cases second
  simp_all

/-- The line as it is rendered, with a line feed for its terminator. -/
def normalized (line : Line) : Line :=
  ⟨line.number, line.text, line.terminator.map fun _ => .lf⟩

@[simp] theorem rendered_normalized (line : Line) : line.normalized.rendered = line.rendered := by
  simp [rendered, normalized]

theorem render_map_normalized (lines : List Line) :
    render (lines.map normalized) = render lines := by
  simp [render, Function.comp_def]

theorem render_append (first second : List Line) :
    render (first ++ second) = render first ++ render second := by
  simp [render]

theorem render_congr {first second : List Line}
    (same : first.map normalized = second.map normalized) : render first = render second := by
  rw [← render_map_normalized first, same, render_map_normalized]

/-- No carriage return is rendered. -/
theorem return_not_mem_render {lines : List Line} (plain : ∀ line ∈ lines, line.IsPlain) :
    '\r' ∉ (render lines).toList := by
  induction lines with
  | nil => simp [render]
  | cons line rest ih =>
      rw [List.forall_mem_cons] at plain
      have inText : '\r' ∉ line.text.toList := fun member => (plain.1 '\r' member).2 rfl
      rw [← List.singleton_append, render_append, String.toList_append, List.mem_append, not_or]
      refine ⟨?_, ih plain.2⟩
      simp only [render, rendered, List.map_cons, List.map_nil, String.join_cons]
      split <;> simp [inText]

end Line

/-- The removal with the text of its line alone for its content. -/
def Removal.withoutTerminator (removal : Removal) : Removal :=
  { removal with content := Line.textOfContent removal.content }

namespace Rules

/-- A plain line is removed by its number and its text, and leaves them behind. -/
theorem map_withoutTerminator_removal? {rules : Rules} {line : Line} (plain : line.IsPlain) :
    (rules.removal? line).map Removal.withoutTerminator =
      match rules.disposition line.number line.text with
      | .keep => none
      | .remove reason => some ⟨line.number, reason, line.text⟩ := by
  rw [removal?]
  cases rules.disposition line.number line.text with
  | keep => rfl
  | remove reason => simp [Removal.withoutTerminator, Line.textOfContent_content plain]

/-- The removals without their terminators are read off the normalized lines. -/
theorem map_withoutTerminator_removed {rules : Rules} {lines : List Line}
    (plain : ∀ line ∈ lines, line.IsPlain) :
    (rules.select lines).removed.map Removal.withoutTerminator =
      (rules.select (lines.map Line.normalized)).removed.map Removal.withoutTerminator := by
  simp only [select, List.map_filterMap, List.filterMap_map]
  apply List.filterMap_congr
  intro line member
  have normalizedPlain : line.normalized.IsPlain := plain line member
  rw [Function.comp_apply, map_withoutTerminator_removal? (plain line member),
    map_withoutTerminator_removal? normalizedPlain]
  rfl

/-- Normalized lines are retained with the lines that they come from. -/
theorem retained_map_normalized (rules : Rules) (lines : List Line) :
    (rules.select (lines.map Line.normalized)).retained =
      (rules.select lines).retained.map Line.normalized := by
  simp only [retained_eq_filter, List.filter_map]
  rfl

end Rules

end LinePrune
