import LinePrune.Text.Control

namespace LinePrune.Toml

def isBlank (c : Char) : Bool :=
  c = ' ' || c = '\t'

/-- Plain characters are those that comments and strings hold as themselves. -/
def isPlain (c : Char) : Bool :=
  c = '\t' || !Text.isControl c

def skipBlanks (chars : List Char) : List Char :=
  chars.dropWhile isBlank

/-- A lone carriage return does not end a line. -/
def newline? : List Char → Option (List Char)
  | '\n' :: rest => some rest
  | '\r' :: '\n' :: rest => some rest
  | _ => none

/-- A line ends with an optional comment and then the end of the line or of the document. -/
def endOfLine? (chars : List Char) : Option (List Char) :=
  let afterComment :=
    match skipBlanks chars with
    | '#' :: rest => rest.dropWhile isPlain
    | rest => rest
  if afterComment.isEmpty then some [] else newline? afterComment

/-- Between the items of a list stand blanks, ends of lines and comments in any order. The flag
tells whether a comment is open. Nothing remains after a comment that holds a control character. -/
def skipFiller : Bool → List Char → List Char
  | _, [] => []
  | true, c :: rest =>
      if c = '\n' then skipFiller false rest
      else if c = '\r' && rest.head? = some '\n' then skipFiller true rest
      else if isPlain c then skipFiller true rest
      else []
  | false, c :: rest =>
      if c = '#' then skipFiller true rest
      else if isBlank c || c = '\n' then skipFiller false rest
      else if c = '\r' && rest.head? = some '\n' then skipFiller false rest
      else c :: rest

end LinePrune.Toml
