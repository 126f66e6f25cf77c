/-
This file scans the bytes of a text for terminators and takes each line by its offsets.
-/

import LinePrune.Line

namespace LinePrune

/-- A part of a text reaches from the offset of its first byte to that of the byte behind it. -/
structure ByteRange where
  start : Nat
  stop : Nat
  deriving DecidableEq, Repr

namespace ByteRange

/-- A range fits a text when its ends are in order, within the text and between characters. -/
structure Fits (range : ByteRange) (contents : String) : Prop where
  ordered : range.start ≤ range.stop
  bounded : range.stop ≤ contents.utf8ByteSize
  startBetween : String.Pos.Raw.IsValid contents ⟨range.start⟩
  stopBetween : String.Pos.Raw.IsValid contents ⟨range.stop⟩

theorem fits_iff {range : ByteRange} {contents : String} :
    range.Fits contents ↔ range.start ≤ range.stop ∧ range.stop ≤ contents.utf8ByteSize ∧
      String.Pos.Raw.isValid contents ⟨range.start⟩ = true ∧
      String.Pos.Raw.isValid contents ⟨range.stop⟩ = true := by
  simp only [String.Pos.Raw.isValid_eq_true_iff]
  exact ⟨fun fits => ⟨fits.1, fits.2, fits.3, fits.4⟩, fun ⟨o, b, s, t⟩ => ⟨o, b, s, t⟩⟩

instance (range : ByteRange) (contents : String) : Decidable (range.Fits contents) :=
  decidable_of_iff _ fits_iff.symm

/-- A range that does not fit is a fault. -/
def take (range : ByteRange) (contents : String) : Except ByteRange String :=
  if fits : range.Fits contents then
    .ok (String.extract ⟨_, fits.startBetween⟩ ⟨_, fits.stopBetween⟩)
  else .error range

end ByteRange

/-- A terminator takes as many bytes as it has characters. -/
def Terminator.width : Terminator → Nat
  | .lf => 1
  | .crlf => 2
  | .cr => 1

/-- The byte at the index alone tells whether a terminator begins there, the next one which. -/
def terminatorAt? (bytes : ByteArray) (index : Nat) : Option Terminator :=
  if bytes[index]? = some '\n'.toUInt8 then some .lf
  else if bytes[index]? = some '\r'.toUInt8 then
    if bytes[index + 1]? = some '\n'.toUInt8 then some .crlf else some .cr
  else none

namespace Line

/-- A scan knows the lines behind it, where the next line starts and how far it has looked. -/
structure Scan where
  start : Nat
  index : Nat
  lines : List Line
  deriving DecidableEq, Repr

namespace Scan

def initial : Scan := ⟨0, 0, []⟩

/-- A terminator closes a line, and any other byte is passed over. -/
def step (contents : String) (scan : Scan) : Except ByteRange Scan :=
  match terminatorAt? contents.toUTF8 scan.index with
  | some terminator => do
      let text ← ByteRange.take ⟨scan.start, scan.index⟩ contents
      let next := scan.index + terminator.width
      return ⟨next, next, scan.lines ++ [⟨scan.lines.length + 1, text, some terminator⟩]⟩
  | none => return { scan with index := scan.index + 1 }

/-- What no terminator has closed is one more line. -/
def finish (contents : String) (scan : Scan) : Except ByteRange (List Line) :=
  if scan.start < contents.utf8ByteSize then do
    let text ← ByteRange.take ⟨scan.start, contents.utf8ByteSize⟩ contents
    return scan.lines ++ [⟨scan.lines.length + 1, text, none⟩]
  else return scan.lines

variable {contents : String} {scan next : Scan}

theorem step_of_terminator {terminator : Terminator} {text : String}
    (found : terminatorAt? contents.toUTF8 scan.index = some terminator)
    (taken : ByteRange.take ⟨scan.start, scan.index⟩ contents = .ok text) :
    scan.step contents = .ok ⟨scan.index + terminator.width, scan.index + terminator.width,
      scan.lines ++ [⟨scan.lines.length + 1, text, some terminator⟩]⟩ := by
  simp only [step, found, taken]
  rfl

theorem step_of_none (absent : terminatorAt? contents.toUTF8 scan.index = none) :
    scan.step contents = .ok { scan with index := scan.index + 1 } := by
  simp only [step, absent]
  rfl

/-- Every turn that does not fail goes forward. -/
theorem index_lt_of_step (stepped : scan.step contents = .ok next) : scan.index < next.index := by
  cases found : terminatorAt? contents.toUTF8 scan.index with
  | none =>
      rw [step_of_none found] at stepped
      obtain rfl := Except.ok.inj stepped
      exact Nat.lt_succ_self _
  | some terminator =>
      cases taken : ByteRange.take ⟨scan.start, scan.index⟩ contents with
      | error range =>
          simp only [step, found, taken, bind, Except.bind] at stepped
          contradiction
      | ok text =>
          rw [step_of_terminator found taken] at stepped
          obtain rfl := Except.ok.inj stepped
          cases terminator <;> simp [Terminator.width]

/-- The scan ends behind the last byte, or at the first fault. -/
def run (contents : String) (scan : Scan) : Except ByteRange (List Line) :=
  if scan.index < contents.utf8ByteSize then
    match _ : scan.step contents with
    | .ok next => next.run contents
    | .error range => .error range
  else scan.finish contents
termination_by contents.utf8ByteSize - scan.index
decreasing_by
  next stepped =>
    have forward := index_lt_of_step stepped
    omega

end Scan

/-- The lines of a text as the scan over its bytes finds them. -/
def scan (contents : String) : Except ByteRange (List Line) :=
  Scan.initial.run contents

end Line

end LinePrune
