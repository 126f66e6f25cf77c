/-
This file parts a text into numbered lines, each with the terminator that ends it.
-/

namespace LinePrune

/-- A terminator is a line feed, a carriage return, or the pair of both. -/
inductive Terminator where
  | lf
  | crlf
  | cr
  deriving DecidableEq, Repr

def Terminator.chars : Terminator → List Char
  | .lf => ['\n']
  | .crlf => ['\r', '\n']
  | .cr => ['\r']

/-- A piece is a run of characters with the terminator that closes it, if any. -/
structure Piece where
  chars : List Char
  terminator : Option Terminator
  deriving DecidableEq, Repr

/-- This puts one more character in front of the first piece. -/
def Piece.consFirst (c : Char) : List Piece → List Piece
  | [] => [⟨[c], none⟩]
  | piece :: rest => ⟨c :: piece.chars, piece.terminator⟩ :: rest

/-- A carriage return joins a line feed that follows it at once. -/
def Piece.cut : List Char → List Piece
  | [] => []
  | '\r' :: '\n' :: rest => ⟨[], some .crlf⟩ :: cut rest
  | '\r' :: rest => ⟨[], some .cr⟩ :: cut rest
  | '\n' :: rest => ⟨[], some .lf⟩ :: cut rest
  | c :: rest => consFirst c (cut rest)

def Piece.content (piece : Piece) : List Char :=
  piece.chars ++ (piece.terminator.map Terminator.chars).getD []

/-- A line keeps the position that it has in its file, counted from one. -/
structure Line where
  number : Nat
  text : String
  terminator : Option Terminator
  deriving DecidableEq, Repr

namespace Line

def ofPiece (number : Nat) (piece : Piece) : Line :=
  ⟨number, String.ofList piece.chars, piece.terminator⟩

/-- The pieces are numbered in order, the first one with the given number. -/
def enumerate (first : Nat) : List Piece → List Line
  | [] => []
  | piece :: rest => ofPiece first piece :: enumerate (first + 1) rest

/-- Contents without characters have no line, and a last terminator opens no further line. -/
def split (contents : String) : List Line :=
  Line.enumerate 1 (Piece.cut contents.toList)

/-- The content of a line is its text with its own terminator. -/
def content (line : Line) : String :=
  line.text ++ String.ofList ((line.terminator.map Terminator.chars).getD [])

/-- The rendered form ends every terminated line with a line feed. -/
def rendered (line : Line) : String :=
  if line.terminator.isSome then line.text ++ "\n" else line.text

def render (lines : List Line) : String :=
  String.join (lines.map rendered)

end Line

@[simp] theorem Piece.content_consFirst (c : Char) (pieces : List Piece) :
    (consFirst c pieces).flatMap Piece.content = c :: pieces.flatMap Piece.content := by
  cases pieces <;> simp [consFirst, content]

theorem Piece.length_consFirst (c : Char) (pieces : List Piece) :
    (consFirst c pieces).length = max 1 pieces.length := by
  cases pieces <;> simp [consFirst]

/-- Cutting loses nothing. -/
theorem Piece.flatMap_content_cut (chars : List Char) :
    (cut chars).flatMap Piece.content = chars := by
  fun_induction cut chars with
  | case1 => rfl
  | case2 rest ih => simp [content, Terminator.chars, ih]
  | case3 rest _ ih => simp [content, Terminator.chars, ih]
  | case4 rest ih => simp [content, Terminator.chars, ih]
  | case5 c rest _ _ _ ih => simp [ih]

theorem Piece.chars_consFirst {c : Char} {pieces : List Piece} {allowed : Char → Prop}
    (first : allowed c) (others : ∀ piece ∈ pieces, ∀ c ∈ piece.chars, allowed c) :
    ∀ piece ∈ consFirst c pieces, ∀ c ∈ piece.chars, allowed c := by
  cases pieces with
  | nil => simpa [consFirst] using first
  | cons piece rest =>
      simp only [consFirst, List.mem_cons, forall_eq_or_imp] at others ⊢
      exact ⟨⟨first, others.1⟩, others.2⟩

/-- Terminator characters stand in terminators only. -/
theorem Piece.chars_cut (chars : List Char) :
    ∀ piece ∈ cut chars, ∀ c ∈ piece.chars, c ≠ '\n' ∧ c ≠ '\r' := by
  fun_induction cut chars with
  | case1 => simp
  | case2 rest ih => simpa using ih
  | case3 rest _ ih => simpa using ih
  | case4 rest ih => simpa using ih
  | case5 c rest _ notReturn notFeed ih =>
      exact chars_consFirst ⟨fun isFeed => notFeed isFeed, fun isReturn => notReturn isReturn⟩ ih

@[simp] theorem Line.length_enumerate (first : Nat) (pieces : List Piece) :
    (Line.enumerate first pieces).length = pieces.length := by
  induction pieces generalizing first with
  | nil => rfl
  | cons piece rest ih => simp [Line.enumerate, ih]

/-- The numbers of a file's lines run from one to their count. -/
theorem Line.map_number_enumerate (first : Nat) (pieces : List Piece) :
    (Line.enumerate first pieces).map Line.number = List.range' first pieces.length := by
  induction pieces generalizing first with
  | nil => rfl
  | cons piece rest ih => simp [Line.enumerate, Line.ofPiece, ih, List.range'_succ]

theorem Line.map_number_split (contents : String) :
    (Line.split contents).map Line.number = List.range' 1 (Line.split contents).length := by
  simp only [Line.split, Line.map_number_enumerate, Line.length_enumerate]

theorem Line.ascending_split (contents : String) :
    ((Line.split contents).map Line.number).Pairwise (· < ·) := by
  rw [Line.map_number_split]
  exact List.pairwise_lt_range'

@[simp] theorem Line.toList_content_ofPiece (number : Nat) (piece : Piece) :
    (Line.ofPiece number piece).content.toList = piece.content := by
  simp [Line.content, Line.ofPiece, Piece.content]

theorem Line.toList_join_content_enumerate (first : Nat) (pieces : List Piece) :
    (String.join ((Line.enumerate first pieces).map Line.content)).toList =
      pieces.flatMap Piece.content := by
  induction pieces generalizing first with
  | nil => rfl
  | cons piece rest ih =>
      simp only [Line.enumerate, List.map_cons, String.join_cons, String.toList_append, ih,
        Line.toList_content_ofPiece, List.flatMap_cons]

/-- The contents of all lines, side by side, are the contents of the file. -/
theorem Line.join_content_split (contents : String) :
    String.join ((Line.split contents).map Line.content) = contents := by
  apply String.toList_injective
  rw [Line.split, Line.toList_join_content_enumerate, Piece.flatMap_content_cut]

end LinePrune
