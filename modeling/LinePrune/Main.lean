/-
This file runs the command on the files of the machine.
-/

import LinePrune.Command

namespace LinePrune

/-- The system numbers the kinds of failure. Some requests report the number with a minus sign. -/
def FileError.ofNumber? (number : UInt32) : Option FileError :=
  match (if number < 0x80000000 then number else 0 - number) with
  | 2 => some .notFound
  | 20 => some .notDirectory
  | 21 => some .isDirectory
  | 36 => some .nameTooLong
  | _ => none

def systemNumber? : IO.Error → Option UInt32
  | .noFileOrDirectory _ number _ => some number
  | .inappropriateType _ number _ => some number
  | .invalidArgument _ number _ => some number
  | .resourceExhausted _ number _ => some number
  | _ => none

def FileError.ofSystem (error : IO.Error) : FileError :=
  ((systemNumber? error).bind FileError.ofNumber?).getD (.unexpected (toString error))

def holdsNul (path : String) : Bool :=
  path.toList.contains '\x00'

/-- Only a path that is a text can be handed to the system from here. -/
def withSystemPath {α : Type} (path : RawText) (use : String → IO (Except FileError α)) :
    IO (Except FileError α) :=
  match path.text? with
  | none => return .error (.unexpected "path is not a text")
  | some text => if holdsNul text then return .error .nulInPath else use text

def readSystemText (path : String) : IO (Except FileError String) := do
  try
    match String.fromUTF8? (← IO.FS.readBinFile path) with
    | none => return .error .notText
    | some text => return .ok text
  catch error => return .error (.ofSystem error)

def writeSystemText (path contents : String) : IO (Except FileError Unit) := do
  try
    IO.FS.writeBinFile path contents.toUTF8
    return .ok ()
  catch error => return .error (.ofSystem error)

def findSystemPath (path : String) : IO (Except FileError Unit) := do
  try
    discard (IO.FS.realPath path)
    return .ok ()
  catch error => return .error (.ofSystem error)

instance : FileAccess IO where
  pathExists path := return (← withSystemPath path findSystemPath).isOk
  readText path := withSystemPath path readSystemText
  writeText path contents := withSystemPath path (writeSystemText · contents)

end LinePrune

def main (arguments : List String) : IO UInt32 := do
  let result ← LinePrune.Command.run (arguments.map LinePrune.RawText.ofString)
  IO.print result.output
  IO.eprint result.errors
  return result.exitCode.toUInt32
