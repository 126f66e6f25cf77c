import LinePrune.Text.Pieces

namespace LinePrune.Sample

def numberedLine (number : Nat) : String :=
  "line " ++ toString number ++ "\n"

def numberedLines (count : Nat) : String :=
  String.join ((List.range count).map fun index => numberedLine (index + 1))

/-- Every piece but the last ends with its line feed. -/
def pieces : List Char → List (List Char)
  | [] => []
  | '\n' :: rest => ['\n'] :: pieces rest
  | c :: rest => consFirst c (pieces rest)

def isTerminatorChar (c : Char) : Bool :=
  c = '\r' || c = '\n'

/-- The tail of a piece is the longest run of terminator characters at its end. -/
def terminatorTail (piece : List Char) : List Char :=
  (piece.reverse.takeWhile isTerminatorChar).reverse

def replacePiece (text : List Char) (piece : List Char) : List Char :=
  text ++ terminatorTail piece

/-- The piece with the number, counted from one, gets a new text and keeps its tail. -/
def replaceAt (text : List Char) : Nat → List (List Char) → List (List Char)
  | _, [] => []
  | 0, pieces => pieces
  | 1, piece :: rest => replacePiece text piece :: rest
  | number + 2, piece :: rest => piece :: replaceAt text (number + 1) rest

def replaceLine (contents : String) (number : Nat) (text : String) : String :=
  String.ofList (replaceAt text.toList number (pieces contents.toList)).flatten

theorem pieces_cons_of_ne {c : Char} (other : c ≠ '\n') (rest : List Char) :
    pieces (c :: rest) = consFirst c (pieces rest) := by
  rw [pieces]
  exact other

/-- The pieces of a text are all of it. -/
theorem flatten_pieces (chars : List Char) : (pieces chars).flatten = chars := by
  fun_induction pieces chars with
  | case1 => rfl
  | case2 rest ih => rw [List.flatten_cons, ih, List.singleton_append]
  | case3 c rest _ ih => rw [flatten_consFirst, ih]

/-- A number that no piece has replaces none. -/
theorem replaceAt_of_absent {text : List Char} {number : Nat} {pieces : List (List Char)}
    (absent : number = 0 ∨ pieces.length < number) : replaceAt text number pieces = pieces := by
  fun_induction replaceAt text number pieces with
  | case1 => rfl
  | case2 => rfl
  | case3 piece rest => simp at absent
  | case4 number piece rest ih =>
      rw [ih]
      simp only [List.length_cons] at absent
      omega

end LinePrune.Sample
