import LinePrune.Proofs.Target.ReadBack
import Mathlib.Algebra.GroupWithZero.Nat

namespace LinePrune

theorem Text.utf8ByteSize_join (texts : List String) :
    (String.join texts).utf8ByteSize = (texts.map String.utf8ByteSize).sum := by
  induction texts with
  | nil => rfl
  | cons text rest ih =>
      rw [String.join_cons, String.utf8ByteSize_append, ih, List.map_cons, List.sum_cons]

namespace Line

/-- These lines lose a byte when they are rendered. -/
def endsInPair (line : Line) : Bool :=
  line.terminator = some .crlf

theorem utf8ByteSize_content (line : Line) :
    line.content.utf8ByteSize =
      line.rendered.utf8ByteSize + if line.endsInPair then 1 else 0 := by
  obtain ⟨number, text, terminator⟩ := line
  have feed : "\n".utf8ByteSize = 1 := rfl
  have lone : (String.ofList ['\r']).utf8ByteSize = 1 := rfl
  have pair : (String.ofList ['\r', '\n']).utf8ByteSize = 2 := rfl
  cases terminator with
  | none => simp [content, rendered, endsInPair]
  | some terminator =>
      cases terminator <;>
        simp [content, rendered, endsInPair, Terminator.chars, String.utf8ByteSize_append, feed,
          lone, pair]

/-- Each line of a text takes up some of it. -/
theorem utf8ByteSize_content_pos {contents : String} {line : Line}
    (member : line ∈ split contents) : 0 < line.content.utf8ByteSize := by
  have filled := (separate_split contents).filled line.piece (List.mem_map_of_mem member)
  rw [Nat.pos_iff_ne_zero, Ne, String.utf8ByteSize_eq_zero_iff]
  intro empty
  have chars : line.piece.content = [] := by
    rw [← toList_content, empty]
    rfl
  rw [Piece.content, List.append_eq_nil_iff] at chars
  cases ends : line.piece.terminator with
  | none => exact filled ends chars.1
  | some terminator =>
      rw [ends] at chars
      cases terminator <;> exact absurd chars.2 (List.cons_ne_nil _ _)

theorem sum_utf8ByteSize_content (lines : List Line) :
    (lines.map fun line => line.content.utf8ByteSize).sum =
      (render lines).utf8ByteSize + lines.countP endsInPair := by
  induction lines with
  | nil => rfl
  | cons line rest ih =>
      rw [List.map_cons, List.sum_cons, ih, utf8ByteSize_content, List.countP_cons, render, render,
        List.map_cons, String.join_cons, String.utf8ByteSize_append]
      omega

end Line

namespace Rules

/-- The removed lines and the retained ones have all the bytes of the lines between them. -/
theorem sum_utf8ByteSize_select (rules : Rules) (lines : List Line) :
    (lines.map fun line => line.content.utf8ByteSize).sum =
      ((rules.select lines).retained.map fun line => line.content.utf8ByteSize).sum +
        ((rules.select lines).removed.map fun removal => removal.content.utf8ByteSize).sum := by
  induction lines with
  | nil => rfl
  | cons line rest ih =>
      rw [List.map_cons, List.sum_cons, ih]
      cases dropped : rules.removal? line with
      | none =>
          simp only [select_cons_of_none dropped, List.map_cons, List.sum_cons]
          omega
      | some removal =>
          obtain ⟨reason, -, rfl⟩ := removal?_eq_some_iff.mp dropped
          simp only [select_cons_of_some dropped, List.map_cons, List.sum_cons]
          omega

/-- Whatever is removed of a text takes up some of it. -/
theorem sum_utf8ByteSize_removed_pos {rules : Rules} {contents : String}
    (removed : (rules.select (Line.split contents)).removed ≠ []) :
    0 < ((rules.select (Line.split contents)).removed.map
      fun removal => removal.content.utf8ByteSize).sum := by
  obtain ⟨removal, member⟩ := List.exists_mem_of_ne_nil _ removed
  obtain ⟨line, lineMember, reason, -, rfl⟩ := mem_removed_iff.mp member
  rw [List.sum_pos_iff_exists_pos_nat]
  exact ⟨_, List.mem_map_of_mem member, Line.utf8ByteSize_content_pos lineMember⟩

/-- Rendering shortens the pairs among the retained lines, and the rest of a text is kept or
removed. -/
theorem utf8ByteSize_eq (rules : Rules) (contents : String) :
    let selection := rules.select (Line.split contents)
    contents.utf8ByteSize =
      (Line.render selection.retained).utf8ByteSize +
        (selection.removed.map fun removal => removal.content.utf8ByteSize).sum +
          selection.retained.countP Line.endsInPair := by
  intro selection
  calc contents.utf8ByteSize
    _ = (String.join ((Line.split contents).map Line.content)).utf8ByteSize := by
        rw [Line.join_content_split]
    _ = ((Line.split contents).map fun line => line.content.utf8ByteSize).sum := by
        rw [Text.utf8ByteSize_join, List.map_map]
        rfl
    _ = (selection.retained.map fun line => line.content.utf8ByteSize).sum +
          (selection.removed.map fun removal => removal.content.utf8ByteSize).sum :=
        rules.sum_utf8ByteSize_select _
    _ = _ := by
        rw [Line.sum_utf8ByteSize_content]
        omega

end Rules

namespace FileTree

variable {tree after : FileTree} {path : RawText} {contents : String} {rules : Rules}
  {removed : List Removal}

/-- An update removes something and writes the rest. -/
theorem writeText_of_updated (holds : tree.HoldsText path contents)
    (updated : tree.runEdit path rules = (.ok (.updated removed), after)) :
    removed = (rules.select (Line.split contents)).removed ∧ removed ≠ [] ∧
      tree.writeText path (Line.render (rules.select (Line.split contents)).retained) =
        .ok after := by
  rw [runEdit_of_present (defects_of_updated updated) holds, run_applyToTarget,
    readText_eq_ok_iff.mpr holds] at updated
  dsimp only at updated
  split at updated
  next => simp at updated
  next something =>
    cases written : tree.writeText path
        (Line.render (rules.select (Line.split contents)).retained) with
    | error cause => simp [written] at updated
    | ok left =>
        simp only [written, Prod.mk.injEq, Except.ok.injEq, Outcome.updated.injEq] at updated
        obtain ⟨rfl, rfl⟩ := updated
        exact ⟨rfl, by simpa using something, rfl⟩

/-- Where the bytes of a file are after an update that retained and removed these of its lines. The
write of the retained lines answers how many bytes there are now. -/
structure ByteLaw (before after : FileTree) (path : RawText) (retained : List Line)
    (removed : List Removal) (old new : ByteArray) : Prop where
  stood : before.entryOf? path = some (.file old)
  stands : after.entryOf? path = some (.file new)
  counted : (Target.write path retained : StateM FileTree (Except TargetError Nat)).run before =
    (.ok new.size, after)
  balanced : old.size = new.size + (removed.map fun removal => removal.content.toUTF8.size).sum +
    retained.countP fun line => line.terminator = some .crlf
  shorter : new.size < old.size

/-- Every update accounts for the bytes of its target. -/
theorem byteLaw_of_updated (holds : tree.HoldsText path contents)
    (updated : tree.runEdit path rules = (.ok (.updated removed), after)) :
    ∃ new, ByteLaw tree after path (rules.select (Line.split contents)).retained removed
      contents.toUTF8 new := by
  obtain ⟨rfl, something, written⟩ := writeText_of_updated holds updated
  have balanced := rules.utf8ByteSize_eq contents
  have taken := Rules.sum_utf8ByteSize_removed_pos something
  refine ⟨(Line.render (rules.select (Line.split contents)).retained).toUTF8, holds,
    holdsText_of_writeText written, ?_, balanced, ?_⟩
  · rw [run_write, written]
    rfl
  · change (Line.render _).utf8ByteSize < contents.utf8ByteSize
    omega

/-- Two of the lines end in pairs, the text of one takes two bytes, and the last line is open. -/
theorem byteLaw_of_mixed_terminators :
    let tree : FileTree := ⟨[(["a.tsx"], .file "é\r\nb\rc\r\nd".toUTF8)], []⟩
    let after := tree.put ["a.tsx"] (.file "é\nc\n".toUTF8)
    let rules : Rules := ⟨.ofList [4], ["d"], .ofList [2]⟩
    let removed : List Removal := [⟨2, .unconditional, "b\r"⟩, ⟨4, .trigger, "d"⟩]
    tree.HoldsText "a.tsx" "é\r\nb\rc\r\nd" ∧
      tree.runEdit "a.tsx" rules = (.ok (.updated removed), after) ∧
      ∃ new, ByteLaw tree after "a.tsx" [⟨1, "é", some .crlf⟩, ⟨3, "c", some .crlf⟩] removed
        "é\r\nb\rc\r\nd".toUTF8 new := by
  intro tree after rules removed
  have holds : tree.HoldsText "a.tsx" "é\r\nb\rc\r\nd" := rfl
  have updated : tree.runEdit "a.tsx" rules = (.ok (.updated removed), after) := rfl
  exact ⟨holds, updated, byteLaw_of_updated holds updated⟩

end FileTree

end LinePrune
