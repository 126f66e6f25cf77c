/-
This file has files and directories as a value, through which paths lead.
-/

import LinePrune.FileAccess
import LinePrune.Path

namespace LinePrune

/-- A location lists the names from an entry up to the root, the own name first. -/
abbrev Location := List RawText

inductive Entry where
  | file (bytes : ByteArray)
  | directory

instance : DecidableEq Entry
  | .directory, .directory => .isTrue rfl
  | .directory, .file _ => .isFalse nofun
  | .file _, .directory => .isFalse nofun
  | .file first, .file second =>
      match ByteArray.instDecidableEq first second with
      | .isTrue same => .isTrue (congrArg Entry.file same)
      | .isFalse different => .isFalse fun same => different (Entry.file.inj same)

/-- There are files and directories and nothing else, so no entry leads to another one. Every file
may be read and written, and only a run changes it. -/
structure FileTree where
  entries : List (Location × Entry)
  workingDirectory : Location

namespace FileTree

/-- The root is always a directory, and every other entry stands in a directory. What is listed
below a file or below nothing cannot be found. -/
def entryAt? (tree : FileTree) : Location → Option Entry
  | [] => some .directory
  | name :: parents =>
      if tree.entryAt? parents = some .directory then tree.entries.lookup (name :: parents)
      else none

/-- A location holds at most one entry, the one put there last. -/
def put (tree : FileTree) (location : Location) (entry : Entry) : FileTree :=
  { tree with
    entries := (location, entry) :: tree.entries.filter fun other => other.1 != location }

/-- No name may have more bytes than this. -/
def nameLimit : Nat := 255

/-- A whole path must have fewer bytes than this. -/
def pathLimit : Nat := 4096

/-- A name leads into the directory only if something stands there. -/
def child (tree : FileTree) (location : Location) (name : RawText) :
    Except FileError Location :=
  if nameLimit < name.size then .error .nameTooLong
  else if (tree.entryAt? (name :: location)).isSome then .ok (name :: location)
  else .error .notFound

/-- Every step, even one that stays, starts from a directory. -/
def walk (tree : FileTree) (location : Location) :
    List (List RawChar) → Except FileError Location
  | [] => .ok location
  | piece :: rest =>
      match tree.entryAt? location with
      | none => .error .notFound
      | some (.file _) => .error .notDirectory
      | some .directory =>
          if piece = [] || piece = Path.here then tree.walk location rest
          else if piece = Path.parent then tree.walk location.tail rest
          else
            match tree.child location ⟨piece⟩ with
            | .error cause => .error cause
            | .ok next => tree.walk next rest

/-- A path that begins with a slash starts at the root. -/
def start (tree : FileTree) (path : RawText) : Location :=
  if path.toList.head? = some (.char '/') then [] else tree.workingDirectory

/-- These paths are refused before any entry is looked at. -/
def pathError? (path : RawText) : Option FileError :=
  if path.toList.contains (.char '\x00') then some .nulInPath
  else if path.isEmpty then some .notFound
  else if pathLimit ≤ path.size then some .nameTooLong
  else none

/-- The location of a path is that of an entry that exists. -/
def locate (tree : FileTree) (path : RawText) : Except FileError Location :=
  match pathError? path with
  | some cause => .error cause
  | none => tree.walk (tree.start path) (Path.pieces path.toList)

def pathExists (tree : FileTree) (path : RawText) : Bool :=
  match tree.locate path with
  | .ok location => (tree.entryAt? location).isSome
  | .error _ => false

def readBytes (tree : FileTree) (path : RawText) : Except FileError ByteArray :=
  match tree.locate path with
  | .error cause => .error cause
  | .ok location =>
      match tree.entryAt? location with
      | none => .error .notFound
      | some .directory => .error .isDirectory
      | some (.file bytes) => .ok bytes

def readText (tree : FileTree) (path : RawText) : Except FileError String :=
  match tree.readBytes path with
  | .error cause => .error cause
  | .ok bytes =>
      match String.fromUTF8? bytes with
      | none => .error .notText
      | some text => .ok text

/-- A file may be written where one stands already, or in a directory that has room for it. -/
def locateForWriting (tree : FileTree) (path : RawText) : Except FileError Location :=
  match pathError? path with
  | some cause => .error cause
  | none =>
      match (Path.pieces path.toList).reverse.dropWhile (· = []) with
      | [] => .error .isDirectory
      | last :: parents =>
          match tree.walk (tree.start path) parents.reverse with
          | .error cause => .error cause
          | .ok location =>
              match tree.entryAt? location with
              | none => .error .notFound
              | some (.file _) => .error .notDirectory
              | some .directory =>
                  let name : RawText := ⟨last⟩
                  if last = Path.here || last = Path.parent ||
                      path.toList.getLast? = some (.char '/') then
                    .error .isDirectory
                  else if nameLimit < name.size then .error .nameTooLong
                  else if tree.entryAt? (name :: location) = some .directory then
                    .error .isDirectory
                  else .ok (name :: location)

/-- A refused write leaves the tree as it was. -/
def writeText (tree : FileTree) (path : RawText) (contents : String) : Except FileError FileTree :=
  match tree.locateForWriting path with
  | .error cause => .error cause
  | .ok location => .ok (tree.put location (.file contents.toUTF8))

/-- A run on a tree reads the current tree and replaces it by the one that it wrote. -/
instance : FileAccess (StateM FileTree) where
  pathExists path := return (← get).pathExists path
  readText path := return (← get).readText path
  writeText path contents := do
    match (← get).writeText path contents with
    | .error cause => return .error cause
    | .ok tree =>
        set tree
        return .ok ()

@[simp] theorem entryAt?_nil (tree : FileTree) : tree.entryAt? [] = some .directory := rfl

theorem child_eq_ok_iff {tree : FileTree} {location next : Location} {name : RawText} :
    tree.child location name = .ok next ↔
      name.size ≤ nameLimit ∧ (tree.entryAt? (name :: location)).isSome = true ∧
        next = name :: location := by
  rw [child]
  split
  next long => simp [Nat.not_le.mpr long]
  next short =>
    split
    next stands => simp [Nat.not_lt.mp short, stands, eq_comm]
    next missing => simp [missing]

theorem lookup_filter_ne {location other : Location} (different : other ≠ location)
    (entries : List (Location × Entry)) :
    (entries.filter fun held => held.1 != location).lookup other = entries.lookup other := by
  induction entries with
  | nil => rfl
  | cons held rest ih =>
      obtain ⟨place, entry⟩ := held
      by_cases here : place = location
      · subst here
        have apart : (other == place) = false := by simpa using different
        simp [List.lookup_cons, apart, ih]
      · have kept : (place != location) = true := by simpa using here
        simp [List.lookup_cons, kept, ih]

theorem entryAt?_parent {tree : FileTree} {name : RawText} {parents : Location} {entry : Entry}
    (found : tree.entryAt? (name :: parents) = some entry) :
    tree.entryAt? parents = some .directory := by
  rw [entryAt?] at found
  split at found
  next directory => exact directory
  next => contradiction

/-- The directory above a directory is one too, and the root is above itself. -/
theorem entryAt?_tail {tree : FileTree} {location : Location}
    (directory : tree.entryAt? location = some .directory) :
    tree.entryAt? location.tail = some .directory := by
  cases location with
  | nil => exact directory
  | cons name parents => exact entryAt?_parent directory

/-- Putting a file where no directory is changes what is found there and nowhere else. -/
theorem entryAt?_put_file {tree : FileTree} {name : RawText} {parents : Location}
    (parent : tree.entryAt? parents = some .directory)
    (notDirectory : tree.entryAt? (name :: parents) ≠ some .directory) (bytes : ByteArray)
    (other : Location) :
    (tree.put (name :: parents) (.file bytes)).entryAt? other =
      if other = name :: parents then some (.file bytes) else tree.entryAt? other := by
  induction other with
  | nil => simp
  | cons otherName above ih =>
      by_cases same : otherName :: above = name :: parents
      · obtain ⟨rfl, rfl⟩ := List.cons.inj same
        have apart : above ≠ otherName :: above := List.ne_cons_self
        rw [if_neg apart] at ih
        rw [if_pos rfl, entryAt?, ih, if_pos parent]
        simp [put]
      · rw [if_neg same, entryAt?, entryAt?, ih]
        by_cases inside : above = name :: parents
        · subst inside
          simp [notDirectory]
        · have differs : (otherName :: above == name :: parents) = false := by simpa using same
          simp only [if_neg inside, put, List.lookup_cons, differs]
          rw [lookup_filter_ne same]

end FileTree

end LinePrune
