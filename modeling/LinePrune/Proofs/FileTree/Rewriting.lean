import LinePrune.Proofs.FileTree.Reading

namespace LinePrune.FileTree

/-- A path of two parts leads where its second part leads from the end of its first one. -/
theorem walk_append_eq_ok_iff {tree : FileTree} {location reached : Location}
    {first second : List (List RawChar)} :
    tree.walk location (first ++ second) = .ok reached ↔
      ∃ middle, tree.walk location first = .ok middle ∧ tree.walk middle second = .ok reached := by
  induction first generalizing location with
  | nil => simp [walk]
  | cons piece rest ih =>
      simp only [List.cons_append, walk]
      cases tree.entryAt? location with
      | none => simp
      | some entry =>
          cases entry with
          | file bytes => simp
          | directory =>
              dsimp only
              split
              · exact ih
              · split
                · exact ih
                · cases tree.child location ⟨piece⟩ with
                  | error cause => simp
                  | ok next => exact ih

/-- A last step that leads to a file takes the name of that file in its directory. -/
theorem walk_singleton_file {tree : FileTree} {location reached : Location} {piece : List RawChar}
    {bytes : ByteArray} (walked : tree.walk location [piece] = .ok reached)
    (file : tree.entryAt? reached = some (.file bytes)) :
    tree.entryAt? location = some .directory ∧ piece ≠ [] ∧ piece ≠ Path.here ∧
      piece ≠ Path.parent ∧ RawText.size ⟨piece⟩ ≤ nameLimit ∧
        reached = ⟨piece⟩ :: location := by
  rw [walk] at walked
  cases stands : tree.entryAt? location with
  | none => simp [stands] at walked
  | some entry =>
      cases entry with
      | file other => simp [stands] at walked
      | directory =>
          simp only [stands, walk] at walked
          -- Staying and going up both end in a directory, so the step must take a name.
          split at walked
          · obtain rfl := Except.ok.inj walked
            simp [stands] at file
          · next notStay =>
            split at walked
            · obtain rfl := Except.ok.inj walked
              simp [entryAt?_tail stands] at file
            · next notUp =>
              cases entered : tree.child location ⟨piece⟩ with
              | error cause => simp [entered] at walked
              | ok next =>
                  obtain ⟨short, _, rfl⟩ := child_eq_ok_iff.mp entered
                  simp only [entered, Except.ok.injEq] at walked
                  simp only [Bool.or_eq_true, decide_eq_true_eq, not_or] at notStay
                  exact ⟨rfl, notStay.1, notStay.2, notUp, short, walked.symm⟩

/-- The place of a file that can be found is the place where its path writes. -/
theorem locateForWriting_of_file {tree : FileTree} {path : RawText} {location : Location}
    {bytes : ByteArray} (located : tree.locate path = .ok location)
    (file : tree.entryAt? location = some (.file bytes)) :
    tree.locateForWriting path = .ok location := by
  rw [locate] at located
  rw [locateForWriting]
  cases refused : pathError? path with
  | some cause => simp [refused] at located
  | none =>
      simp only [refused] at located ⊢
      obtain ⟨parents, last, split⟩ : ∃ parents last,
          Path.pieces path.toList = parents ++ [last] :=
        ⟨_, _, (List.dropLast_concat_getLast (Path.pieces_ne_nil _)).symm⟩
      rw [split, walk_append_eq_ok_iff] at located
      obtain ⟨directory, walked, step⟩ := located
      obtain ⟨stands, notEmpty, notStay, notUp, short, rfl⟩ := walk_singleton_file step file
      have noSlash : path.toList.getLast? ≠ some (.char '/') := by
        intro slash
        obtain ⟨front, whole⟩ := List.getLast?_eq_some_iff.mp slash
        rw [whole, Path.pieces_append_slash] at split
        have lastEmpty : [[]] = [last] := List.append_inj_right' split rfl
        exact notEmpty (List.singleton_inj.mp lastEmpty).symm
      simp [split, notEmpty, walked, stands, notStay, notUp, noSlash, Nat.not_lt.mpr short, file]

/-- Walking only asks where directories stand and where anything stands at all. -/
theorem walk_congr {first second : FileTree}
    (present : ∀ location, (first.entryAt? location).isSome = (second.entryAt? location).isSome)
    (directory : ∀ location,
      first.entryAt? location = some .directory ↔ second.entryAt? location = some .directory)
    (location : Location) (pieces : List (List RawChar)) :
    first.walk location pieces = second.walk location pieces := by
  induction pieces generalizing location with
  | nil => rfl
  | cons piece rest ih =>
      have enter (name : RawText) : first.child location name = second.child location name := by
        rw [child, child, present]
      have here := present location
      have kind := directory location
      rw [walk, walk]
      cases firstEntry : first.entryAt? location with
      | none =>
          cases secondEntry : second.entryAt? location with
          | none => rfl
          | some entry => simp [firstEntry, secondEntry] at here
      | some entry =>
          cases secondEntry : second.entryAt? location with
          | none => simp [firstEntry, secondEntry] at here
          | some other =>
              rw [firstEntry, secondEntry] at kind
              cases entry with
              | file bytes =>
                  cases other with
                  | file otherBytes => rfl
                  | directory => simp at kind
              | directory =>
                  cases other with
                  | file otherBytes => simp at kind
                  | directory => simp only [ih, enter]

/-- Two trees differ in the contents of one file and in nothing else. -/
structure Rewritten (before after : FileTree) (location : Location) (bytes : ByteArray) : Prop where
  stood : ∃ old, before.entryAt? location = some (.file old)
  workingDirectory : after.workingDirectory = before.workingDirectory
  entries : ∀ other, after.entryAt? other =
    if other = location then some (.file bytes) else before.entryAt? other

namespace Rewritten

variable {before after : FileTree} {location : Location} {bytes : ByteArray}

/-- No entry is created or deleted. -/
theorem isSome_entryAt? (rewritten : Rewritten before after location bytes) (other : Location) :
    (after.entryAt? other).isSome = (before.entryAt? other).isSome := by
  obtain ⟨old, stood⟩ := rewritten.stood
  rw [rewritten.entries]
  split
  next same => simp [same, stood]
  next => rfl

/-- No file becomes a directory, and no directory becomes a file. -/
theorem directory_iff (rewritten : Rewritten before after location bytes) (other : Location) :
    after.entryAt? other = some .directory ↔ before.entryAt? other = some .directory := by
  obtain ⟨old, stood⟩ := rewritten.stood
  rw [rewritten.entries]
  split
  next same => simp [same, stood]
  next => exact Iff.rfl

/-- Every path leads to where it led before. -/
theorem locate_eq (rewritten : Rewritten before after location bytes) (path : RawText) :
    after.locate path = before.locate path := by
  rw [locate, locate, start, start, rewritten.workingDirectory]
  cases pathError? path with
  | some cause => rfl
  | none => exact walk_congr rewritten.isSome_entryAt? rewritten.directory_iff _ _

end Rewritten

/-- A file that a path leads to can be rewritten through that path. -/
theorem writeText_of_file {tree : FileTree} {path : RawText} {location : Location}
    {old : ByteArray} (located : tree.locate path = .ok location)
    (file : tree.entryAt? location = some (.file old)) (contents : String) :
    ∃ after, tree.writeText path contents = .ok after ∧
      Rewritten tree after location contents.toUTF8 := by
  refine ⟨tree.put location (.file contents.toUTF8), ?_, ⟨old, file⟩, rfl, ?_⟩
  · rw [writeText, locateForWriting_of_file located file]
  · cases location with
    | nil => simp at file
    | cons name parents =>
        exact entryAt?_put_file (entryAt?_parent file) (by simp [file]) contents.toUTF8

end LinePrune.FileTree
