/-
This file reads strings, each from behind its opening quotes.
-/

import LinePrune.Toml.Digits
import LinePrune.Toml.Filler

namespace LinePrune.Toml

/-- Only surrogates and numbers beyond the last code point are no characters. -/
def character? (code : Nat) : Option Char :=
  if code.isValidChar then some (Char.ofNat code) else none

def shortEscape? (letter : Char) : Option Char :=
  [('b', '\x08'), ('t', '\t'), ('n', '\n'), ('f', '\x0c'), ('r', '\r'), ('e', '\x1b'),
    ('"', '"'), ('\\', '\\')].lookup letter

/-- The number of hexadecimal digits that follow the letter. -/
def escapeWidth? (letter : Char) : Option Nat :=
  [('x', 2), ('u', 4), ('U', 8)].lookup letter

/-- A reader inside a string either takes characters as they come, or skips the blanks and line
ends behind a backslash at the end of a line, or is inside an escape. -/
inductive Awaiting where
  | character
  | text
  | escapeLetter
  | lineEnd
  | escapeDigits (missing : Nat) (code : Nat)

/-- This puts a character in front of what a reader took. -/
def consRead (c : Char) (read : Option (List Char × List Char)) :
    Option (List Char × List Char) :=
  read.map fun result => (c :: result.1, result.2)

/-- Three quotes close a long string, and up to two more right before them belong to it. -/
def longClosing? (quote : Char) (chars : List Char) : Option (List Char × List Char) :=
  match (chars.takeWhile (· = quote)).length with
  | 0 => none
  | 1 => none
  | 2 => none
  | 3 => some ([], chars.drop 3)
  | 4 => some ([quote], chars.drop 4)
  | _ => some ([quote, quote], chars.drop 5)

/-- One quote closes a short string. -/
def closing? (long : Bool) (quote : Char) (chars : List Char) :
    Option (List Char × List Char) :=
  if long then longClosing? quote chars
  else if chars.head? = some quote then some ([], chars.tail)
  else none

def isPair (c : Char) (rest : List Char) : Bool :=
  c = '\r' && rest.head? = some '\n'

/-- A long string may hold line ends, but no lone carriage return. -/
def isHeld (long : Bool) (c : Char) (rest : List Char) : Bool :=
  isPlain c || (long && (c = '\n' || isPair c rest))

/-- A backslash at the end of a line removes all blanks and line ends up to the next text. It may
stand in long strings only. -/
def basicText? (long : Bool) : Awaiting → List Char → Option (List Char × List Char)
  | _, [] => none
  | .escapeLetter, c :: rest =>
      if long && c = '\n' then basicText? long .text rest
      else if long && (isBlank c || isPair c rest) then basicText? long .lineEnd rest
      else
        match shortEscape? c with
        | some meant => consRead meant (basicText? long .character rest)
        | none =>
            match escapeWidth? c with
            | some width => basicText? long (.escapeDigits width 0) rest
            | none => none
  | .lineEnd, c :: rest =>
      if c = '\n' then basicText? long .text rest
      else if isBlank c || isPair c rest then basicText? long .lineEnd rest
      else none
  | .escapeDigits missing code, c :: rest =>
      match digit? 16 c with
      | none => none
      | some digit =>
          if missing ≤ 1 then
            match character? (16 * code + digit) with
            | some meant => consRead meant (basicText? long .character rest)
            | none => none
          else basicText? long (.escapeDigits (missing - 1) (16 * code + digit)) rest
  | awaiting, c :: rest =>
      if awaiting matches .text && (isBlank c || c = '\n' || isPair c rest) then
        basicText? long .text rest
      else
        match closing? long '"' (c :: rest) with
        | some closed => some closed
        | none =>
            if c = '\\' then basicText? long .escapeLetter rest
            else if isHeld long c rest then consRead c (basicText? long .character rest)
            else none

/-- A literal string knows no escapes. -/
def literalText? (long : Bool) : List Char → Option (List Char × List Char)
  | [] => none
  | c :: rest =>
      match closing? long '\'' (c :: rest) with
      | some closed => some closed
      | none => if isHeld long c rest then consRead c (literalText? long rest) else none

/-- A line end right behind the opening quotes of a long string is no part of it. -/
def skipFirstNewline (chars : List Char) : List Char :=
  (newline? chars).getD chars

/-- A short string stays on one line. -/
def shortString? : List Char → Option (List Char × List Char)
  | '"' :: rest => basicText? false .character rest
  | '\'' :: rest => literalText? false rest
  | _ => none

def string? : List Char → Option (List Char × List Char)
  | '"' :: '"' :: '"' :: rest => basicText? true .character (skipFirstNewline rest)
  | '\'' :: '\'' :: '\'' :: rest => literalText? true (skipFirstNewline rest)
  | chars => shortString? chars

end LinePrune.Toml
