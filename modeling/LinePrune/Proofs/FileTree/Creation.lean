import LinePrune.Proofs.FileTree.Rewriting

namespace LinePrune

namespace Path

/-- Only a slash leaves an empty piece behind it. -/
theorem getLast?_of_getLast?_pieces {parts : List RawChar}
    (last : (pieces parts).getLast? = some []) :
    parts = [] ∨ parts.getLast? = some (.char '/') := by
  fun_induction pieces parts with
  | case1 => exact .inl rfl
  | case2 rest ih =>
      rw [List.getLast?_cons_of_ne_nil (pieces_ne_nil rest)] at last
      rcases ih last with rfl | slash
      · exact .inr rfl
      · exact .inr (by rw [List.getLast?_cons, slash]; rfl)
  | case3 part rest _ ih =>
      cases more : pieces rest with
      | nil => exact absurd more (pieces_ne_nil rest)
      | cons piece others =>
          rw [more] at last ih
          cases others with
          | nil => simp [consFirst] at last
          | cons next others =>
              rw [consFirst, List.getLast?_cons_cons] at last
              rw [List.getLast?_cons_cons] at ih
              rcases ih last with rfl | slash
              · simp [pieces] at more
              · exact .inr (by rw [List.getLast?_cons, slash]; rfl)

end Path

namespace FileTree

/-- One piece of a path leads from a directory to itself, to the one above it or into it. -/
inductive Step (tree : FileTree) (location : Location) (piece : List RawChar) :
    Location → Prop where
  | stay : piece = [] ∨ piece = Path.here → Step tree location piece location
  | up : piece = Path.parent → Step tree location piece location.tail
  | enter : piece ≠ [] → piece ≠ Path.here → piece ≠ Path.parent →
      RawText.size ⟨piece⟩ ≤ nameLimit →
      (tree.entryAt? (⟨piece⟩ :: location)).isSome = true →
      Step tree location piece (⟨piece⟩ :: location)

/-- A way is gone step by step, each of them from a directory. -/
theorem walk_cons_eq_ok_iff {tree : FileTree} {location reached : Location} {piece : List RawChar}
    {rest : List (List RawChar)} :
    tree.walk location (piece :: rest) = .ok reached ↔
      tree.entryAt? location = some .directory ∧
        ∃ next, tree.Step location piece next ∧ tree.walk next rest = .ok reached := by
  rw [walk]
  constructor
  · intro walked
    split at walked
    · contradiction
    · contradiction
    · next stands =>
      refine ⟨stands, ?_⟩
      split at walked
      next stays => exact ⟨location, .stay (by simpa using stays), walked⟩
      next moves =>
        simp only [Bool.or_eq_true, decide_eq_true_eq, not_or] at moves
        split at walked
        next up => exact ⟨location.tail, .up up, walked⟩
        next enters =>
          cases entered : tree.child location ⟨piece⟩ with
          | error cause => simp [entered] at walked
          | ok next =>
              obtain ⟨short, present, rfl⟩ := child_eq_ok_iff.mp entered
              simp only [entered] at walked
              exact ⟨_, .enter moves.1 moves.2 enters short present, walked⟩
  · rintro ⟨stands, next, step, walked⟩
    rw [stands]
    cases step with
    | stay stays => simpa [stays] using walked
    | up up => simpa [up, Path.parent, Path.here] using walked
    | enter notEmpty notDot notUp short present =>
        have entered := child_eq_ok_iff.mpr ⟨short, present, rfl⟩
        simpa [notEmpty, notDot, notUp, entered] using walked

/-- A file stands where nothing stood, and all other entries are as they were. -/
structure Created (before after : FileTree) (location : Location) (bytes : ByteArray) : Prop where
  absent : before.entryAt? location = none
  workingDirectory : after.workingDirectory = before.workingDirectory
  entries : ∀ other, after.entryAt? other =
    if other = location then some (.file bytes) else before.entryAt? other

namespace Created

variable {before after : FileTree} {location reached : Location} {bytes : ByteArray}

theorem entryAt?_self (created : Created before after location bytes) :
    after.entryAt? location = some (.file bytes) := by
  rw [created.entries, if_pos rfl]

theorem entryAt?_of_ne (created : Created before after location bytes) {other : Location}
    (different : other ≠ location) : after.entryAt? other = before.entryAt? other := by
  rw [created.entries, if_neg different]

/-- What stood somewhere stands there still. -/
theorem entryAt?_of_some (created : Created before after location bytes) {other : Location}
    {entry : Entry} (stands : before.entryAt? other = some entry) :
    after.entryAt? other = some entry := by
  rw [created.entryAt?_of_ne, stands]
  rintro rfl
  simp [created.absent] at stands

/-- The new file is no directory. -/
theorem directory_iff (created : Created before after location bytes) {other : Location} :
    after.entryAt? other = some .directory ↔ before.entryAt? other = some .directory := by
  by_cases same : other = location
  · simp [same, created.entryAt?_self, created.absent]
  · rw [created.entryAt?_of_ne same]

/-- A way that led somewhere leads there still. -/
theorem walk_of_ok (created : Created before after location bytes) {start : Location}
    {pieces : List (List RawChar)} (walked : before.walk start pieces = .ok reached) :
    after.walk start pieces = .ok reached := by
  induction pieces generalizing start with
  | nil => exact walked
  | cons piece rest ih =>
      obtain ⟨stands, next, step, others⟩ := walk_cons_eq_ok_iff.mp walked
      refine walk_cons_eq_ok_iff.mpr ⟨created.directory_iff.mpr stands, next, ?_, ih others⟩
      cases step with
      | stay stays => exact .stay stays
      | up up => exact .up up
      | enter notEmpty notDot notUp short present =>
          obtain ⟨entry, found⟩ := Option.isSome_iff_exists.mp present
          exact .enter notEmpty notDot notUp short (by rw [created.entryAt?_of_some found]; rfl)

/-- A way that leads anywhere but to the new file led there before. -/
theorem walk_of_ne (created : Created before after location bytes) {start : Location}
    {pieces : List (List RawChar)} (walked : after.walk start pieces = .ok reached)
    (different : reached ≠ location) : before.walk start pieces = .ok reached := by
  induction pieces generalizing start with
  | nil => exact walked
  | cons piece rest ih =>
      obtain ⟨stands, next, step, others⟩ := walk_cons_eq_ok_iff.mp walked
      refine walk_cons_eq_ok_iff.mpr ⟨created.directory_iff.mp stands, next, ?_, ih others⟩
      cases step with
      | stay stays => exact .stay stays
      | up up => exact .up up
      | enter notEmpty notDot notUp short present =>
          refine .enter notEmpty notDot notUp short ?_
          -- Nothing lies behind the new file, so a step to it would have been the last one.
          rw [← created.entryAt?_of_ne, present]
          rintro same
          rw [same] at others
          cases rest with
          | nil => exact different (Except.ok.inj others).symm
          | cons next others' =>
              obtain ⟨directory, _⟩ := walk_cons_eq_ok_iff.mp others
              simp [created.entryAt?_self] at directory

theorem locate_of_ok (created : Created before after location bytes) {path : RawText}
    (located : before.locate path = .ok reached) : after.locate path = .ok reached := by
  rw [locate] at located ⊢
  cases refused : pathError? path with
  | some cause => simp [refused] at located
  | none =>
      simp only [refused, start] at located ⊢
      rw [created.workingDirectory]
      exact created.walk_of_ok located

theorem locate_of_ne (created : Created before after location bytes) {path : RawText}
    (located : after.locate path = .ok reached) (different : reached ≠ location) :
    before.locate path = .ok reached := by
  rw [locate] at located ⊢
  cases refused : pathError? path with
  | some cause => simp [refused] at located
  | none =>
      simp only [refused, start] at located ⊢
      rw [created.workingDirectory] at located
      exact created.walk_of_ne located different

end Created

/-- An accepted path without a slash at its end has its last piece at its end. -/
theorem pieces_of_noSlash {path : RawText} {last : List RawChar} {parents : List (List RawChar)}
    (accepted : pathError? path = none) (noSlash : path.toList.getLast? ≠ some (.char '/'))
    (split : (Path.pieces path.toList).reverse.dropWhile (· = []) = last :: parents) :
    Path.pieces path.toList = parents.reverse ++ [last] ∧ last ≠ [] := by
  have filled : path.toList ≠ [] := by
    intro empty
    obtain rfl : path = "" := RawText.ext empty
    contradiction
  obtain ⟨front, final, whole⟩ : ∃ front final, Path.pieces path.toList = front ++ [final] :=
    ⟨_, _, (List.dropLast_concat_getLast (Path.pieces_ne_nil _)).symm⟩
  have notEmpty : final ≠ [] := by
    rintro rfl
    rcases Path.getLast?_of_getLast?_pieces (whole ▸ List.getLast?_concat) with empty | slash
    · exact filled empty
    · exact noSlash slash
  rw [whole, List.reverse_concat, List.dropWhile_cons_of_neg (by simpa using notEmpty)] at split
  obtain ⟨rfl, rfl⟩ := List.cons.inj split
  exact ⟨by rw [List.reverse_reverse, whole], notEmpty⟩

/-- The pieces of a path but the last one lead to a directory, and the last one is a name there. -/
structure Names (tree : FileTree) (path : RawText) (directory : Location) (name : List RawChar) :
    Prop where
  accepted : pathError? path = none
  way : ∃ parents, Path.pieces path.toList = parents ++ [name] ∧
    tree.walk (tree.start path) parents = .ok directory
  stands : tree.entryAt? directory = some .directory
  notEmpty : name ≠ []
  notDot : name ≠ Path.here
  notUp : name ≠ Path.parent
  short : RawText.size ⟨name⟩ ≤ nameLimit

/-- A path leads to an entry that bears its name. -/
theorem Names.locate {tree : FileTree} {path : RawText} {directory : Location} {name : List RawChar}
    (names : tree.Names path directory name)
    (present : (tree.entryAt? (⟨name⟩ :: directory)).isSome = true) :
    tree.locate path = .ok (⟨name⟩ :: directory) := by
  obtain ⟨parents, pieces, walked⟩ := names.way
  have enters : tree.Step directory name (⟨name⟩ :: directory) :=
    .enter names.notEmpty names.notDot names.notUp names.short present
  rw [FileTree.locate, names.accepted, pieces]
  exact walk_append_eq_ok_iff.mpr ⟨directory, walked,
    walk_cons_eq_ok_iff.mpr ⟨names.stands, _, enters, rfl⟩⟩

/-- A path that names something in a directory names it there still. -/
theorem Created.names {before after : FileTree} {location directory : Location}
    {bytes : ByteArray} {path : RawText} {name : List RawChar}
    (created : Created before after location bytes) (names : before.Names path directory name) :
    after.Names path directory name := by
  obtain ⟨parents, pieces, walked⟩ := names.way
  refine { names with
    way := ⟨parents, pieces, ?_⟩
    stands := created.directory_iff.mpr names.stands }
  rw [start, created.workingDirectory]
  exact created.walk_of_ok walked

/-- A path is written where it names an entry, unless a directory stands there. -/
theorem locateForWriting_eq_ok {tree : FileTree} {path : RawText} {location : Location}
    (located : tree.locateForWriting path = .ok location) :
    ∃ directory name, tree.Names path directory name ∧
      tree.entryAt? (⟨name⟩ :: directory) ≠ some .directory ∧
      location = ⟨name⟩ :: directory := by
  rw [locateForWriting] at located
  split at located
  · contradiction
  next accepted =>
    split at located
    · contradiction
    next name reversed split =>
      split at located
      · contradiction
      next directory walked =>
        split at located
        · contradiction
        · contradiction
        next stands =>
          simp only [Bool.or_eq_true, decide_eq_true_eq] at located
          split at located
          · contradiction
          next named =>
            simp only [not_or] at named
            split at located
            · contradiction
            next short =>
              split at located
              · contradiction
              next notDirectory =>
                have whole := pieces_of_noSlash accepted named.2 split
                have names : tree.Names path directory name :=
                  ⟨accepted, ⟨_, whole.1, walked⟩, stands, whole.2, named.1.1, named.1.2,
                    Nat.not_lt.mp short⟩
                exact ⟨directory, name, names, notDirectory, (Except.ok.inj located).symm⟩

/-- A path leads to what was written by it, be that a new file or the contents of one that stood. -/
theorem created_or_rewritten_of_writeText {tree after : FileTree} {path : RawText}
    {contents : String} (written : tree.writeText path contents = .ok after) :
    ∃ location, after.locate path = .ok location ∧
      (Created tree after location contents.toUTF8 ∨
        Rewritten tree after location contents.toUTF8) := by
  rw [writeText] at written
  cases located : tree.locateForWriting path with
  | error cause => simp [located] at written
  | ok location =>
      simp only [located, Except.ok.injEq] at written
      subst written
      obtain ⟨directory, name, names, notDirectory, rfl⟩ := locateForWriting_eq_ok located
      have entries := entryAt?_put_file names.stands notDirectory contents.toUTF8
      cases stands : tree.entryAt? (⟨name⟩ :: directory) with
      | none =>
          have created : Created tree (tree.put (⟨name⟩ :: directory)
              (.file contents.toUTF8)) (⟨name⟩ :: directory) contents.toUTF8 :=
            ⟨stands, rfl, entries⟩
          refine ⟨_, (created.names names).locate ?_, .inl created⟩
          rw [created.entryAt?_self]
          rfl
      | some entry =>
          cases entry with
          | directory => exact absurd stands notDirectory
          | file old =>
              have rewritten : Rewritten tree (tree.put (⟨name⟩ :: directory)
                  (.file contents.toUTF8)) (⟨name⟩ :: directory) contents.toUTF8 :=
                ⟨⟨old, stands⟩, rfl, entries⟩
              refine ⟨_, ?_, .inr rewritten⟩
              rw [rewritten.locate_eq, names.locate (by simp [stands])]

end FileTree

end LinePrune
