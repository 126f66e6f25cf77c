/-
This file shows that the scan over bytes takes the lines of the characters.
-/

import LinePrune.Line.Scan
import LinePrune.Proofs.Line.Seams
import LinePrune.Proofs.Text.Bytes

namespace LinePrune

namespace ByteRange

/-- The range of a text between two others fits the whole. -/
theorem fits_append (before text after : String) :
    (⟨before.utf8ByteSize, (before ++ text).utf8ByteSize⟩ : ByteRange).Fits
      (before ++ text ++ after) where
  ordered := by simp
  bounded := by simp
  startBetween := String.Pos.Raw.isValid_iff_exists_append.mpr
    ⟨before, text ++ after, String.append_assoc, rfl⟩
  stopBetween := String.Pos.Raw.isValid_iff_exists_append.mpr ⟨before ++ text, after, rfl, rfl⟩

theorem take_append (before text after : String) :
    (⟨before.utf8ByteSize, (before ++ text).utf8ByteSize⟩ : ByteRange).take
      (before ++ text ++ after) = .ok text := by
  have bytes : (before ++ text ++ after).toByteArray.extract before.utf8ByteSize
      (before ++ text).utf8ByteSize = text.toByteArray := by
    have behind : (before.toByteArray ++ (text.toByteArray ++ after.toByteArray)).extract
        (before.utf8ByteSize + 0) (before.utf8ByteSize + text.utf8ByteSize) =
        (text.toByteArray ++ after.toByteArray).extract 0 text.utf8ByteSize :=
      ByteArray.extract_append_size_add' String.size_toByteArray.symm
    rw [String.append_assoc, String.toByteArray_append, String.toByteArray_append,
      String.utf8ByteSize_append]
    exact behind.trans (ByteArray.extract_append_eq_left String.size_toByteArray.symm)
  rw [take, dif_pos (fits_append before text after)]
  congr 1
  rw [← String.toByteArray_inj, String.toByteArray_extract]
  exact bytes

end ByteRange

theorem utf8ByteSize_chars (terminator : Terminator) :
    (String.ofList terminator.chars).utf8ByteSize = terminator.width := by
  cases terminator <;> rfl

/-- A terminator byte is found only where a character begins. -/
theorem isValid_of_terminatorAt? {contents : String} {index : Nat} {terminator : Terminator}
    (found : terminatorAt? contents.toUTF8 index = some terminator) :
    String.Pos.Raw.IsValid contents ⟨index⟩ := by
  rw [terminatorAt?] at found
  split at found
  next feed => exact Text.isValid_of_getElem? (by decide) feed
  next =>
    split at found
    next back => exact Text.isValid_of_getElem? (by decide) back
    next => contradiction

section AtSeam

variable {before behind : String} {terminator : Terminator}

/-- Behind a carriage return, the next byte tells whether a line feed follows. -/
theorem getElem?_toUTF8_return_iff {rest : List Char} (back : behind.toList = '\r' :: rest) :
    (before ++ behind).toUTF8[before.utf8ByteSize + 1]? = some '\n'.toUInt8 ↔
      rest.head? = some '\n' := by
  have parts : before ++ behind = (before ++ "\r") ++ String.ofList rest := by
    apply String.toList_injective
    simp [back]
  have size : before.utf8ByteSize + 1 = (before ++ "\r").utf8ByteSize := by
    rw [String.utf8ByteSize_append]
    rfl
  rw [parts, size, Text.getElem?_toUTF8_seam_iff (by decide), String.toList_ofList]

/-- A terminator that is found at an offset is the one that the characters make up. -/
theorem exists_of_terminatorAt?
    (found : terminatorAt? (before ++ behind).toUTF8 before.utf8ByteSize = some terminator) :
    ∃ rest, behind.toList = terminator.chars ++ rest ∧
      (terminator = .cr → rest.head? ≠ some '\n') := by
  rw [terminatorAt?] at found
  split at found
  next feed =>
    obtain rfl := Option.some.inj found
    rw [Text.getElem?_toUTF8_seam_iff (by decide)] at feed
    obtain ⟨rest, begins⟩ := List.head?_eq_some_iff.mp feed
    exact ⟨rest, begins, nofun⟩
  next =>
    split at found
    next back =>
      rw [Text.getElem?_toUTF8_seam_iff (by decide)] at back
      obtain ⟨rest, begins⟩ := List.head?_eq_some_iff.mp back
      split at found
      next pair =>
        rw [getElem?_toUTF8_return_iff begins] at pair
        obtain rfl := Option.some.inj found
        obtain ⟨others, rfl⟩ := List.head?_eq_some_iff.mp pair
        exact ⟨others, begins, nofun⟩
      next single =>
        rw [getElem?_toUTF8_return_iff begins] at single
        obtain rfl := Option.some.inj found
        exact ⟨rest, begins, fun _ => single⟩
    next => contradiction

/-- Where no terminator is found, no terminator character stands. -/
theorem head?_ne_of_terminatorAt?
    (absent : terminatorAt? (before ++ behind).toUTF8 before.utf8ByteSize = none) :
    behind.toList.head? ≠ some '\n' ∧ behind.toList.head? ≠ some '\r' := by
  simp only [terminatorAt?, Text.getElem?_toUTF8_seam_iff (show '\n'.toNat < 128 by decide),
    Text.getElem?_toUTF8_seam_iff (show '\r'.toNat < 128 by decide)] at absent
  split at absent
  next => contradiction
  next notFeed =>
    split at absent
    next => split at absent <;> contradiction
    next notReturn => exact ⟨notFeed, notReturn⟩

end AtSeam

/-- A text is plain when no terminator is found at any of its offsets. -/
theorem plain_of_terminatorAt? {before text after : String}
    (absent : ∀ offset, before.utf8ByteSize ≤ offset →
      offset < (before ++ text).utf8ByteSize →
      terminatorAt? (before ++ text ++ after).toUTF8 offset = none) :
    ∀ c ∈ text.toList, c ≠ '\n' ∧ c ≠ '\r' := by
  intro c member
  obtain ⟨front, back, parts⟩ := List.append_of_mem member
  obtain rfl : text = String.ofList front ++ String.ofList (c :: back) := by
    apply String.toList_injective
    simp [parts]
  have whole : before ++ (String.ofList front ++ String.ofList (c :: back)) ++ after =
      (before ++ String.ofList front) ++ (String.ofList (c :: back) ++ after) := by
    simp only [String.append_assoc]
  have filled : 0 < (String.ofList (c :: back)).utf8ByteSize := by
    rw [Nat.pos_iff_ne_zero, Ne, String.utf8ByteSize_eq_zero_iff]
    simp
  have nothing := absent (before ++ String.ofList front).utf8ByteSize
    (by simp) (by simp only [String.utf8ByteSize_append]; omega)
  rw [whole] at nothing
  simpa using head?_ne_of_terminatorAt? nothing

namespace Line

variable {contents : String} {scan : Scan}

/-- What is true of a scan at every turn: it has found the lines of the text in front of a seam, and
no terminator from there up to its index. -/
structure Scanned (contents : String) (scan : Scan) : Prop where
  found : ∃ before behind, contents = before ++ behind ∧ scan.start = before.utf8ByteSize ∧
    Piece.EndsAtSeam before.toList behind.toList ∧ scan.lines = split before
  ordered : scan.start ≤ scan.index
  bounded : scan.index ≤ contents.utf8ByteSize
  passed : ∀ offset, scan.start ≤ offset → offset < scan.index →
    terminatorAt? contents.toUTF8 offset = none

/-- A scan that has come to a place between two characters has passed over a plain text. -/
structure Stands (contents : String) (scan : Scan) (before text after : String) : Prop where
  whole : contents = before ++ text ++ after
  start : scan.start = before.utf8ByteSize
  index : scan.index = (before ++ text).utf8ByteSize
  seam : Piece.EndsAtSeam before.toList (text.toList ++ after.toList)
  lines : scan.lines = split before
  plain : ∀ c ∈ text.toList, c ≠ '\n' ∧ c ≠ '\r'

theorem Scanned.exists_stands (scanned : Scanned contents scan)
    (between : String.Pos.Raw.IsValid contents ⟨scan.index⟩) :
    ∃ before text after, Stands contents scan before text after := by
  obtain ⟨before, behind, whole, start, seam, lines⟩ := scanned.found
  obtain ⟨upTo, after, parts, offset⟩ := String.Pos.Raw.isValid_iff_exists_append.mp between
  have index : scan.index = upTo.utf8ByteSize := congrArg String.Pos.Raw.byteIdx offset
  have le : before.utf8ByteSize ≤ upTo.utf8ByteSize := by
    rw [← start, ← index]
    exact scanned.ordered
  obtain ⟨text, rfl, rfl⟩ := Text.exists_append_of_le (whole.symm.trans parts) le
  refine ⟨before, text, after, parts, start, index, ?_, lines, ?_⟩
  · rwa [String.toList_append] at seam
  · apply plain_of_terminatorAt?
    rw [← start, ← index, ← parts]
    exact scanned.passed

theorem Scanned.index_eq (scanned : Scanned contents scan)
    (ended : ¬ scan.index < contents.utf8ByteSize) : scan.index = contents.utf8ByteSize :=
  Nat.le_antisymm scanned.bounded (Nat.not_lt.mp ended)

/-- A scan that has come to the end of the text has nothing in front of it. -/
theorem Scanned.exists_stands_at_end (scanned : Scanned contents scan)
    (ended : ¬ scan.index < contents.utf8ByteSize) :
    ∃ before text, Stands contents scan before text "" := by
  have index := scanned.index_eq ended
  obtain ⟨before, text, after, stands⟩ := scanned.exists_stands
    (index ▸ String.Pos.Raw.isValid_rawEndPos)
  have sizes : contents.utf8ByteSize = scan.index + after.utf8ByteSize := by
    rw [stands.index, ← String.utf8ByteSize_append, ← stands.whole]
  obtain rfl : after = "" := by
    rw [← String.utf8ByteSize_eq_zero_iff]
    omega
  exact ⟨before, text, stands⟩

namespace Stands

variable {before text after : String}

theorem fits (stands : Stands contents scan before text after) :
    (⟨scan.start, scan.index⟩ : ByteRange).Fits contents := by
  rw [stands.start, stands.index, stands.whole]
  exact ByteRange.fits_append before text after

theorem take (stands : Stands contents scan before text after) :
    ByteRange.take ⟨scan.start, scan.index⟩ contents = .ok text := by
  rw [stands.start, stands.index, stands.whole]
  exact ByteRange.take_append before text after

/-- The text that was passed over is one more line, with the terminator behind it if it has one. -/
theorem lines_append (stands : Stands contents scan before text after) (piece : Piece)
    {rest : List Char} (chars : piece.chars = text.toList)
    (filled : piece.terminator = none → piece.chars ≠ [])
    (content : piece.content ++ rest = text.toList ++ after.toList) :
    scan.lines ++ [⟨scan.lines.length + 1, text, piece.terminator⟩] =
      split (before ++ String.ofList piece.content) := by
  have seam : Piece.EndsAtSeam before.toList piece.content := by
    apply Piece.EndsAtSeam.of_append
    rw [content]
    exact stands.seam
  rw [split_append_content seam (chars ▸ stands.plain) filled, stands.lines, ofPiece, chars,
    String.ofList_toList]

end Stands

namespace Scanned

theorem initial (contents : String) : Scanned contents Scan.initial where
  found := ⟨"", contents, by simp, rfl, .inl rfl, rfl⟩
  ordered := Nat.le_refl _
  bounded := Nat.zero_le _
  passed := by simp [Scan.initial]

/-- A turn before the end of the text takes what fits, and leaves as much behind it as it found. -/
theorem step (scanned : Scanned contents scan) (inside : scan.index < contents.utf8ByteSize) :
    ∃ next, scan.step contents = .ok next ∧ Scanned contents next := by
  cases found : terminatorAt? contents.toUTF8 scan.index with
  | none =>
      refine ⟨_, Scan.step_of_none found, scanned.found, Nat.le_succ_of_le scanned.ordered, inside,
        fun offset above below => ?_⟩
      rcases Nat.lt_succ_iff_lt_or_eq.mp below with passed | rfl
      · exact scanned.passed offset above passed
      · exact found
  | some terminator =>
      obtain ⟨before, text, after, stands⟩ :=
        scanned.exists_stands (isValid_of_terminatorAt? found)
      have atSeam : terminatorAt? (before ++ text ++ after).toUTF8 (before ++ text).utf8ByteSize =
          some terminator := by
        rw [← stands.whole, ← stands.index]
        exact found
      obtain ⟨rest, begins, unjoined⟩ := exists_of_terminatorAt? atSeam
      let piece : Piece := ⟨text.toList, some terminator⟩
      have content : piece.content = text.toList ++ terminator.chars := rfl
      have whole : contents = before ++ String.ofList piece.content ++ String.ofList rest := by
        apply String.toList_injective
        simp [stands.whole, begins, content]
      have next : scan.index + terminator.width =
          (before ++ String.ofList piece.content).utf8ByteSize := by
        rw [stands.index, ← utf8ByteSize_chars, ← String.utf8ByteSize_append, content,
          String.ofList_append, String.ofList_toList, String.append_assoc]
      refine ⟨_, Scan.step_of_terminator found stands.take,
        ⟨before ++ String.ofList piece.content, String.ofList rest, whole, next, ?_, ?_⟩,
        Nat.le_refl _, ?_, ?_⟩
      · rw [String.toList_append, String.toList_ofList, String.toList_ofList]
        exact .of_closed rfl _ unjoined
      · have behind : piece.content ++ rest = text.toList ++ after.toList := by
          rw [content, begins, List.append_assoc]
        exact stands.lines_append piece rfl nofun behind
      · have size := congrArg String.utf8ByteSize whole
        rw [String.utf8ByteSize_append, ← next] at size
        exact size ▸ Nat.le_add_right ..
      · intro offset above below
        exact absurd below (Nat.not_lt.mpr above)

/-- What is left at the end of the text is the last line. -/
theorem finish (scanned : Scanned contents scan) (ended : ¬ scan.index < contents.utf8ByteSize) :
    scan.finish contents = .ok (split contents) := by
  obtain ⟨before, text, stands⟩ := scanned.exists_stands_at_end ended
  have whole : contents = before ++ text := by
    rw [stands.whole, String.append_empty]
  have start : contents.utf8ByteSize = scan.start + text.utf8ByteSize := by
    rw [whole, stands.start, String.utf8ByteSize_append]
  rw [Scan.finish]
  split
  next unfinished =>
    let piece : Piece := ⟨text.toList, none⟩
    have content : piece.content = text.toList := by
      simp [piece, Piece.content]
    have filled : piece.terminator = none → piece.chars ≠ [] := by
      intro _ blank
      have size := String.utf8ByteSize_eq_zero_iff.mpr (String.toList_eq_nil_iff.mp blank)
      omega
    have behind : piece.content ++ [] = text.toList ++ "".toList := by
      rw [content]
      rfl
    have lines := stands.lines_append piece rfl filled behind
    rw [content, String.ofList_toList, ← whole] at lines
    rw [← scanned.index_eq ended, stands.take, ← lines]
    rfl
  next finished =>
    obtain rfl : text = "" := by
      rw [← String.utf8ByteSize_eq_zero_iff]
      omega
    rw [String.append_empty] at whole
    rw [stands.lines, whole]
    rfl

/-- From any turn on, the scan finds the lines of the whole text. -/
theorem run (scanned : Scanned contents scan) : scan.run contents = .ok (split contents) := by
  fun_induction Scan.run contents scan with
  | case1 scan inside next stepped ih =>
      obtain ⟨other, reached, others⟩ := scanned.step inside
      obtain rfl : other = next := Except.ok.inj (reached.symm.trans stepped)
      exact ih others
  | case2 scan inside range stepped =>
      obtain ⟨other, reached, _⟩ := scanned.step inside
      rw [reached] at stepped
      contradiction
  | case3 scan ended => exact scanned.finish ended

end Scanned

namespace Scan

/-- The states that the scan of a text goes through. -/
inductive Reached (contents : String) : Scan → Prop
  | initial : Reached contents initial
  | step {scan next : Scan} : Reached contents scan → scan.index < contents.utf8ByteSize →
      scan.step contents = .ok next → Reached contents next

/-- The ranges that the scan of a text takes, for a closed line or for what is left at the end. -/
inductive Takes (contents : String) : ByteRange → Prop
  | closed {scan : Scan} {terminator : Terminator} : Reached contents scan →
      scan.index < contents.utf8ByteSize →
      terminatorAt? contents.toUTF8 scan.index = some terminator →
      Takes contents ⟨scan.start, scan.index⟩
  | left {scan : Scan} : Reached contents scan → ¬ scan.index < contents.utf8ByteSize →
      scan.start < contents.utf8ByteSize → Takes contents ⟨scan.start, contents.utf8ByteSize⟩

theorem Reached.scanned (reached : Reached contents scan) : Scanned contents scan := by
  induction reached with
  | initial => exact .initial contents
  | step _ inside stepped ih =>
      obtain ⟨other, same, scanned⟩ := ih.step inside
      obtain rfl := Except.ok.inj (same.symm.trans stepped)
      exact scanned

theorem Takes.fits {range : ByteRange} (takes : Takes contents range) : range.Fits contents := by
  cases takes with
  | closed reached _ found =>
      obtain ⟨before, text, after, stands⟩ :=
        reached.scanned.exists_stands (isValid_of_terminatorAt? found)
      exact stands.fits
  | left reached ended _ =>
      obtain ⟨before, text, stands⟩ := reached.scanned.exists_stands_at_end ended
      exact reached.scanned.index_eq ended ▸ stands.fits

end Scan

/-- No text makes the scan over its bytes take a range that does not fit, and the scan finds the
lines that the characters of the text fall into. -/
theorem scan_eq_split (contents : String) :
    (∀ range, Scan.Takes contents range → range.Fits contents) ∧
      Line.scan contents = .ok (split contents) :=
  ⟨fun _ takes => takes.fits, (Scanned.initial contents).run⟩

end Line

end LinePrune
