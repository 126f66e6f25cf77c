import LinePrune.Text.Pieces
import LinePrune.Text.Raw

namespace LinePrune.Path

/-- Two slashes in a row have an empty piece between them. -/
def pieces : List RawChar → List (List RawChar)
  | [] => [[]]
  | .char '/' :: rest => [] :: pieces rest
  | part :: rest => consFirst part (pieces rest)

/-- A piece that names the directory it stands in. -/
def here : List RawChar := [.char '.']

/-- A piece that leads to the parent. -/
def parent : List RawChar := [.char '.', .char '.']

/-- An empty piece and a single dot name nothing. -/
def components (path : RawText) : List (List RawChar) :=
  (pieces path.toList).filter fun piece => piece ≠ [] && piece ≠ here

/-- The file name is the last component, unless that component leads to the parent. -/
def fileName? (path : RawText) : Option RawText :=
  match (components path).getLast? with
  | none => none
  | some last => if last = parent then none else some ⟨last⟩

/-- A path without a file name is shown whole. -/
def shownName (path : RawText) : String :=
  ((fileName? path).getD path).display

theorem pieces_ne_nil (parts : List RawChar) : pieces parts ≠ [] := by
  fun_cases pieces parts with
  | case1 => simp
  | case2 => simp
  | case3 part rest => cases pieces rest <;> simp [consFirst]

/-- A slash at the end of a path has an empty piece behind it. -/
theorem pieces_append_slash (parts : List RawChar) :
    pieces (parts ++ [.char '/']) = pieces parts ++ [[]] := by
  fun_induction pieces parts with
  | case1 => rfl
  | case2 rest ih => simp [pieces, ih]
  | case3 part rest notSlash ih =>
      rw [List.cons_append, pieces, ih, consFirst_append part _ (pieces_ne_nil rest)]
      exact notSlash

end LinePrune.Path
