/-
This file leaves the commands to a terminal out of a text.
-/

import LinePrune.Text.Control

namespace LinePrune.Text

namespace Terminal

/-- A mode tells which part of which command comes next. The strings of devices are led in by
parameters, and all other strings start at once. -/
inductive Mode where
  | plain
  | escape
  | escapeIntermediate
  | controlSequence
  | deviceEntry
  | deviceParameters
  | deviceIntermediate
  | controlString
  | systemCommand
  deriving DecidableEq, Repr

def isLayout (c : Char) : Bool :=
  c = '\t' || c = '\n' || c = '\x0c' || c = '\r'

def isIntermediate (c : Char) : Bool :=
  0x20 ≤ c.toNat && c.toNat ≤ 0x2F

def isParameter (c : Char) : Bool :=
  0x30 ≤ c.toNat && c.toNat ≤ 0x3F

/-- These parameters are private when they come first, and make a string invalid later on. -/
def isPrivateParameter (c : Char) : Bool :=
  0x3C ≤ c.toNat && c.toNat ≤ 0x3F

def isFinal (c : Char) : Bool :=
  0x40 ≤ c.toNat && c.toNat ≤ 0x7E

/-- The byte that ends a string may be any byte of a character. -/
def holdsStringEnd (c : Char) : Bool :=
  (String.utf8EncodeChar c).contains 0x9C

def Mode.afterEscape (c : Char) : Mode :=
  if isIntermediate c then .escapeIntermediate
  else if c = '[' then .controlSequence
  else if c = ']' then .systemCommand
  else if c = 'P' then .deviceEntry
  else if c = 'X' || c = '^' || c = '_' then .controlString
  else if isParameter c || isFinal c then .plain
  else .escape

/-- An escape character starts a command even inside another one, and a cancelling character ends
every command. -/
def Mode.next (mode : Mode) (c : Char) : Mode :=
  if c = '\x1b' then .escape
  else if c = '\x18' || c = '\x1a' then .plain
  else
    match mode with
    | .plain => .plain
    | .escape => .afterEscape c
    | .escapeIntermediate => if isParameter c || isFinal c then .plain else .escapeIntermediate
    | .controlSequence => if isFinal c then .plain else .controlSequence
    | .deviceEntry =>
        if isIntermediate c then .deviceIntermediate
        else if isParameter c then .deviceParameters
        else if isFinal c then .controlString
        else .deviceEntry
    | .deviceParameters =>
        if isIntermediate c then .deviceIntermediate
        else if isPrivateParameter c || isFinal c then .controlString
        else .deviceParameters
    | .deviceIntermediate =>
        if isParameter c || isFinal c then .controlString else .deviceIntermediate
    | .controlString => if holdsStringEnd c then .plain else .controlString
    | .systemCommand => if c = '\x07' then .plain else .systemCommand

/-- Characters of layout act at once inside a short command, and belong to a string. -/
def Mode.shows : Mode → Char → Bool
  | .plain, c => isLayout c || !isControl c
  | .escape, c => isLayout c
  | .escapeIntermediate, c => isLayout c
  | .controlSequence, c => isLayout c
  | _, _ => false

/-- The flag tells whether the character before was shown. If so, what follows is shown as in plain
text up to the next control character, and only then an open command goes on. A character beyond
ASCII ends the command. -/
def shownFrom : Bool → Mode → List Char → List Char
  | _, _, [] => []
  | showing, mode, c :: rest =>
      if Mode.shows (if showing then .plain else mode) c then
        c :: shownFrom true (if c.toNat < 0x80 then mode else .plain) rest
      else shownFrom false (mode.next c) rest

end Terminal

def withoutCommands (text : String) : String :=
  String.ofList (Terminal.shownFrom false .plain text.toList)

end LinePrune.Text
