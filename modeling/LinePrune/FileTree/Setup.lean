import LinePrune.FileTree

namespace LinePrune.FileTree

/-- A location comes with all directories above it, save the root. -/
def chain : Location → List (Location × Entry)
  | [] => []
  | name :: parents => (name :: parents, .directory) :: chain parents

/-- The working directory and all directories above it exist, and nothing else does. -/
def fresh (workingDirectory : Location) : FileTree where
  entries := chain workingDirectory
  workingDirectory := workingDirectory

/-- Pieces that do not exist yet are made along the way. -/
def makeDirectories (tree : FileTree) (location : Location) :
    List (List RawChar) → FileTree × Location
  | [] => (tree, location)
  | piece :: rest =>
      if piece = [] || piece = Path.here then tree.makeDirectories location rest
      else if piece = Path.parent then tree.makeDirectories location.tail rest
      else
        let next := ⟨piece⟩ :: location
        if (tree.entryAt? next).isSome then tree.makeDirectories next rest
        else (tree.put next .directory).makeDirectories next rest

def makeDirectory (tree : FileTree) (path : RawText) : FileTree :=
  (tree.makeDirectories (tree.start path) (Path.pieces path.toList)).1

/-- The parents of the file are made first, and an existing file is replaced. -/
def install (tree : FileTree) (path : RawText) (bytes : ByteArray) : FileTree :=
  match (Path.pieces path.toList).reverse with
  | [] => tree
  | last :: parents =>
      let (tree, location) := tree.makeDirectories (tree.start path) parents.reverse
      tree.put (⟨last⟩ :: location) (.file bytes)

/-- The entry goes together with everything below it. -/
def remove (tree : FileTree) (path : RawText) : FileTree :=
  match tree.locate path with
  | .error _ => tree
  | .ok location =>
      { tree with
        entries := tree.entries.filter fun other => !location.isSuffixOf other.1 }

/-- The path of an entry from one of the directories above it, if the entry is below that one. -/
def pathBelow? (directory : Location) : Location × Entry → Option String
  | (location, entry) =>
      if directory.isSuffixOf location && location.length != directory.length then
        let names := (location.take (location.length - directory.length)).reverse
        let path := "/".intercalate (names.map RawText.display)
        some (if entry = .directory then path ++ "/" else path)
      else none

/-- All paths below the working directory ascend, and those of directories end with a slash. -/
def listing (tree : FileTree) : List String :=
  (tree.entries.filterMap (pathBelow? tree.workingDirectory)).mergeSort fun first second =>
    first ≤ second

end LinePrune.FileTree
