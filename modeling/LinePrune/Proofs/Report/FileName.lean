import LinePrune.Report
import Mathlib.Data.List.Induction

namespace LinePrune

namespace Path

/-- An idle piece leads nowhere. -/
def IsIdle (piece : List RawChar) : Prop :=
  piece = [] ∨ piece = here

/-- A name leads from a directory to an entry in it. -/
structure IsName (name : RawText) : Prop where
  filled : name ≠ ""
  single : .char '/' ∉ name.toList
  notHere : name ≠ "."
  notParent : name ≠ ".."

/-- A trail is made of slashes, each of them with or without a dot behind it. -/
def IsTrail (trail : String) : Prop :=
  ∃ parts : List String, (∀ part ∈ parts, part = "/" ∨ part = "/.") ∧ trail = String.join parts

/-- A path ends in a piece that is not idle when all pieces behind it are. -/
def EndsIn (path : RawText) (piece : List RawChar) : Prop :=
  ∃ before behind, path.toList.splitOn (.char '/') = before ++ piece :: behind ∧ ¬ IsIdle piece ∧
    ∀ other ∈ behind, IsIdle other

section Components

theorem pieces_eq_splitOn (parts : List RawChar) : pieces parts = parts.splitOn (.char '/') := by
  fun_induction pieces parts with
  | case1 => rfl
  | case2 rest ih =>
      rw [ih, List.splitOn, List.splitOn, List.splitOnP_cons_eq_if_modifyHead]
      rfl
  | case3 part rest notSlash ih =>
      have apart : (part == .char '/') = false := by simpa using notSlash
      rw [ih, List.splitOn, List.splitOn, List.splitOnP_cons_eq_if_modifyHead, apart]
      cases split : List.splitOnP (· == .char '/') rest with
      | nil => exact absurd split (List.splitOnP_ne_nil _ _)
      | cons piece others => rfl

variable {path name : RawText} {trail : String} {piece : List RawChar}

theorem components_append_slash (first second : RawText) :
    components (first ++ "/" ++ second) = components first ++ components second := by
  have slash : RawText.toList "/" = [.char '/'] := rfl
  have parted : (first ++ "/" ++ second).toList.splitOn (.char '/') =
      first.toList.splitOn (.char '/') ++ second.toList.splitOn (.char '/') := by
    rw [RawText.toList_append, RawText.toList_append, slash, List.append_assoc,
      List.singleton_append]
    exact List.splitOnP_append_cons first.toList second.toList (by simp)
  simp only [components, pieces_eq_splitOn, parted, List.filter_append]

/-- A path is told by the components it has without the trail. The induction takes away the last
part of the trail, behind which stands an idle piece. -/
theorem components_append_trail (path : RawText) (isTrail : IsTrail trail) :
    components (path ++ trail) = components path := by
  obtain ⟨parts, listed, rfl⟩ := isTrail
  induction parts using List.reverseRecOn with
  | nil => simp
  | append_singleton parts part ih =>
      have before := ih fun other member => listed other (List.mem_append_left _ member)
      have last := listed part (by simp)
      rw [String.join_append, RawText.ofString_append, ← RawText.append_assoc]
      rcases last with rfl | rfl
      · have idle : components "" = [] := by decide
        have behind := components_append_slash (path ++ String.join parts) ""
        simpa [before, idle] using behind
      · have idle : components "." = [] := by decide
        have behind := components_append_slash (path ++ String.join parts) "."
        have parted : RawText.ofString "/." = "/" ++ "." := rfl
        simpa [before, idle, parted, RawText.append_assoc] using behind

theorem components_of_isName (isName : IsName name) : components name = [name.toList] := by
  have filled : name.toList ≠ [] := by
    intro empty
    exact isName.filled (RawText.ext empty)
  have notHere : name.toList ≠ here := by
    intro same
    exact isName.notHere (RawText.ext same)
  rw [components, pieces_eq_splitOn, List.splitOn_eq_singleton isName.single]
  simp [filled, notHere]

/-- A component is a piece that is not idle. -/
theorem leads_iff (piece : List RawChar) :
    (piece ≠ [] && piece ≠ here) = true ↔ ¬ IsIdle piece := by
  simp [IsIdle]

theorem components_eq_nil_iff :
    components path = [] ↔ ∀ piece ∈ path.toList.splitOn (.char '/'), IsIdle piece := by
  rw [components, pieces_eq_splitOn, List.filter_eq_nil_iff]
  simp only [leads_iff, not_not]

theorem getLast?_components_eq_some_iff :
    (components path).getLast? = some piece ↔ EndsIn path piece := by
  rw [components, pieces_eq_splitOn, List.getLast?_filter, List.find?_eq_some_iff_append, EndsIn]
  simp only [leads_iff, Bool.not_eq_true', ← Bool.not_eq_true, not_not]
  constructor
  · rintro ⟨leads, behind, before, reversed, idle⟩
    refine ⟨before.reverse, behind.reverse, ?_, leads, ?_⟩
    · rw [← List.reverse_inj, reversed]
      simp
    · exact fun other member => idle other (List.mem_reverse.mp member)
  · rintro ⟨before, behind, split, leads, idle⟩
    refine ⟨leads, behind.reverse, before.reverse, ?_, ?_⟩
    · rw [split]
      simp
    · exact fun other member => idle other (List.mem_reverse.mp member)

theorem slash_not_mem_pieces (parts : List RawChar) :
    ∀ piece ∈ pieces parts, .char '/' ∉ piece := by
  fun_induction pieces parts with
  | case1 => simp
  | case2 rest ih => simpa using ih
  | case3 part rest notSlash ih =>
      obtain ⟨piece, others, more⟩ := List.exists_cons_of_ne_nil (pieces_ne_nil rest)
      rw [more, List.forall_mem_cons] at ih
      rw [more, consFirst, List.forall_mem_cons, List.mem_cons, not_or]
      exact ⟨⟨fun slash => notSlash slash.symm, ih.1⟩, ih.2⟩

/-- A piece has nothing that the path does not have. -/
theorem sublist_of_mem_pieces (parts : List RawChar) :
    ∀ piece ∈ pieces parts, piece.Sublist parts := by
  fun_induction pieces parts with
  | case1 => simp
  | case2 rest ih =>
      rw [List.forall_mem_cons]
      exact ⟨List.nil_sublist _, fun piece member => (ih piece member).cons _⟩
  | case3 part rest _ ih =>
      obtain ⟨piece, others, more⟩ := List.exists_cons_of_ne_nil (pieces_ne_nil rest)
      rw [more, List.forall_mem_cons] at ih
      rw [more, consFirst, List.forall_mem_cons]
      exact ⟨ih.1.cons_cons part, fun other member => (ih.2 other member).cons part⟩

/-- A path that is its own last component has no other one. -/
theorem endsIn_self_iff : EndsIn path path.toList ∧ path ≠ ".." ↔ IsName path := by
  constructor
  · rintro ⟨⟨before, behind, split, leads, -⟩, notParent⟩
    have single : .char '/' ∉ path.toList := by
      apply slash_not_mem_pieces path.toList
      rw [pieces_eq_splitOn, split]
      simp
    refine ⟨?_, single, ?_, notParent⟩
    · rintro rfl
      exact leads (.inl rfl)
    · rintro rfl
      exact leads (.inr rfl)
  · intro isName
    rw [← getLast?_components_eq_some_iff, components_of_isName isName]
    exact ⟨rfl, isName.notParent⟩

end Components

section Names

variable {path name : RawText} {piece : List RawChar}

theorem shownName_of_endsIn (ends : EndsIn path piece) :
    shownName path = if piece = parent then path.display else RawText.display ⟨piece⟩ := by
  rw [shownName, fileName?, getLast?_components_eq_some_iff.mpr ends]
  dsimp only
  split
  next => rfl
  next => rfl

theorem shownName_of_components (isName : IsName name)
    (last : (components path).getLast? = some name.toList) : shownName path = name.display := by
  have notParent : name.toList ≠ parent := by
    intro same
    exact isName.notParent (RawText.ext same)
  rw [shownName_of_endsIn (getLast?_components_eq_some_iff.mp last), if_neg notParent]

/-- A last component that is shown like its path is all of it, since no other part of the path is
as long. -/
theorem eq_toList_of_display_eq (ends : EndsIn path piece)
    (same : RawText.display ⟨piece⟩ = path.display) : piece = path.toList := by
  obtain ⟨before, behind, split, -, -⟩ := ends
  have member : piece ∈ pieces path.toList := by
    rw [pieces_eq_splitOn, split]
    simp
  have long : piece.length = path.toList.length := by
    simpa using congrArg (fun shown => shown.toList.length) same
  exact (sublist_of_mem_pieces path.toList piece member).eq_of_length long

/-- A path that shows itself has no last component, or that one leads to the parent, or it is the
path itself. -/
theorem shownName_eq_self_iff :
    shownName path = path.display ↔
      (∀ piece ∈ path.toList.splitOn (.char '/'), IsIdle piece) ∨ EndsIn path parent ∨
        IsName path := by
  rw [← components_eq_nil_iff, ← endsIn_self_iff]
  simp only [← getLast?_components_eq_some_iff]
  cases last : (components path).getLast? with
  | none =>
      rw [List.getLast?_eq_none_iff] at last
      simp [shownName, fileName?, last]
  | some piece =>
      have filled : components path ≠ [] := by
        intro empty
        simp [empty] at last
      have ends := getLast?_components_eq_some_iff.mp last
      rw [shownName_of_endsIn ends]
      simp only [filled, false_or, Option.some.injEq]
      split
      next isParent => simp [isParent]
      next notParent =>
        simp only [notParent, false_or]
        constructor
        · intro same
          refine ⟨eq_toList_of_display_eq ends same, ?_⟩
          rintro rfl
          exact notParent (eq_toList_of_display_eq ends same)
        · rintro ⟨rfl, -⟩
          rfl

end Names

end Path

/-- The report of an update tells a name when its last line, behind one line for each removal, says
that the file of this name was updated. -/
def TellsName (path : RawText) (name : String) : Prop :=
  ∀ removed : List Removal, (Outcome.updated removed).report path =
    removed.map Removal.report ++
      ["Successfully updated " ++ name ++ ", removed " ++ toString removed.length ++ " lines"]

theorem tellsName_iff {path : RawText} {name : String} :
    TellsName path name ↔ Path.shownName path = name := by
  constructor
  · intro tells
    have last := tells []
    simpa [Outcome.report] using last
  · rintro rfl removed
    rfl

/-- The name of a file is told whatever directory stands in front of it and whatever trail behind,
and a whole path is told when it does not end in any such name or is nothing else. -/
theorem report_tellsName :
    (∀ (directory : RawText) (name trail : String), Path.IsName name → Path.IsTrail trail →
      TellsName (name ++ trail) name ∧ TellsName (directory ++ "/" ++ name ++ trail) name) ∧
    ∀ path : RawText, TellsName path path.display ↔
      (∀ piece ∈ path.toList.splitOn (.char '/'), Path.IsIdle piece) ∨
        Path.EndsIn path Path.parent ∨ Path.IsName path := by
  constructor
  · intro directory name trail isName isTrail
    have alone : (Path.components (name ++ trail)).getLast? = some (RawText.toList name) := by
      rw [Path.components_append_trail name isTrail, Path.components_of_isName isName]
      rfl
    have inside : (Path.components (directory ++ "/" ++ name ++ trail)).getLast? =
        some (RawText.toList name) := by
      rw [Path.components_append_trail _ isTrail, Path.components_append_slash,
        Path.components_of_isName isName, List.getLast?_concat]
    constructor
    · rw [tellsName_iff, Path.shownName_of_components isName alone, RawText.display_ofString]
    · rw [tellsName_iff, Path.shownName_of_components isName inside, RawText.display_ofString]
  · intro path
    rw [tellsName_iff, Path.shownName_eq_self_iff]

/-- The directory ends in a parent step, and the trail has a dot between two slashes. -/
theorem report_tellsName_behind_parent :
    let trail := "//./"
    Path.IsName "...x" ∧ Path.IsTrail trail ∧
      TellsName ("a/./.." ++ "/" ++ "...x" ++ trail) "...x" ∧
      Path.EndsIn "x/../." Path.parent ∧ TellsName "x/../." "x/../." := by
  intro trail
  have isName : Path.IsName "...x" := ⟨by decide, by decide, by decide, by decide⟩
  have isTrail : Path.IsTrail trail := ⟨["/", "/.", "/"], by decide, rfl⟩
  have ends : Path.EndsIn "x/../." Path.parent :=
    ⟨[[.char 'x']], [Path.here], by decide, by simp [Path.IsIdle, Path.parent, Path.here],
      by simp [Path.IsIdle]⟩
  exact ⟨isName, isTrail, (report_tellsName.1 "a/./.." "...x" trail isName isTrail).2, ends,
    (report_tellsName.2 "x/../.").mpr (.inr (.inl ends))⟩

end LinePrune
