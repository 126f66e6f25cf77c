import LinePrune.Proofs.Edit.Contents
import LinePrune.Proofs.FileTree.Creation

namespace LinePrune

namespace FileTree

variable {tree after : FileTree} {path : RawText} {contents : String} {lines : List Line}
  {count : Nat}

/-- What was written by a path is found by it. -/
theorem holdsText_of_writeText (written : tree.writeText path contents = .ok after) :
    after.HoldsText path contents := by
  obtain ⟨location, located, created | rewritten⟩ := created_or_rewritten_of_writeText written
  · exact entryOf?_eq_some_iff.mpr ⟨location, located, created.entryAt?_self⟩
  · rw [rewritten.locate_eq] at located
    exact rewritten.holdsText located

/-- A write that is not refused leaves the rendered lines and counts their bytes. -/
theorem writeText_of_run_write
    (ran : (Target.write path lines : StateM FileTree (Except TargetError Nat)).run tree =
      (.ok count, after)) :
    tree.writeText path (Line.render lines) = .ok after ∧
      count = (Line.render lines).utf8ByteSize := by
  rw [run_write] at ran
  cases written : tree.writeText path (Line.render lines) with
  | error cause =>
      rw [written, Prod.mk.injEq] at ran
      exact absurd ran.1 nofun
  | ok left =>
      rw [written, Prod.mk.injEq, Except.ok.injEq] at ran
      exact ⟨congrArg Except.ok ran.2, ran.1.symm⟩

end FileTree

/-- What a write of lines that answers a number of bytes leaves at its path. -/
structure WrittenLaw (path : RawText) (lines : List Line) (count : Nat) (after : FileTree) :
    Prop where
  counted : ∃ bytes, after.entryOf? path = some (.file bytes) ∧ count = bytes.size
  reread : (Target.read path : StateM FileTree (Except TargetError (List Line))).run after =
    (.ok (Line.renumbered lines), after) ↔ Piece.Separate (lines.map Line.piece)

namespace FileTree

theorem writtenLaw_of_run {tree after : FileTree} {path : RawText} {lines : List Line} {count : Nat}
    (ran : (Target.write path lines : StateM FileTree (Except TargetError Nat)).run tree =
      (.ok count, after)) : WrittenLaw path lines count after := by
  obtain ⟨written, rfl⟩ := writeText_of_run_write ran
  have holds := holdsText_of_writeText written
  have read : (Target.read path : StateM FileTree (Except TargetError (List Line))).run after =
      (.ok (Line.split (Line.render lines)), after) := by
    rw [run_read, readText_eq_ok_iff.mpr holds]
  refine ⟨⟨_, holds, rfl⟩, ?_⟩
  rw [read, Prod.mk.injEq, Except.ok.injEq, ← Line.split_render_eq_renumbered_iff]
  exact and_iff_left rfl

/-- Lines are read back from their rendered form exactly when they are separate, which the lines
that rules retain of a file always are, and the same goes for lines that are written to a file. -/
theorem rendered_readsBack :
    (∀ lines, Line.split (Line.render lines) = Line.renumbered lines ↔
      Piece.Separate (lines.map Line.piece)) ∧
    (∀ (rules : Rules) (contents : String),
      Piece.Separate ((rules.select (Line.split contents)).retained.map Line.piece)) ∧
    ∀ (tree after : FileTree) (path : RawText) (lines : List Line) (count : Nat),
      (Target.write path lines : StateM FileTree (Except TargetError Nat)).run tree =
        (.ok count, after) → WrittenLaw path lines count after :=
  ⟨fun _ => Line.split_render_eq_renumbered_iff, Rules.separate_retained,
    fun _ _ _ _ _ ran => writtenLaw_of_run ran⟩

/-- A carriage return, the pair of both and an open last line are written over a longer file. -/
theorem rendered_readsBack_of_mixed_terminators :
    let lines : List Line := [⟨2, "é", some .cr⟩, ⟨3, "", some .crlf⟩, ⟨7, "c", none⟩]
    let tree : FileTree := ⟨[(["router.tsx"], .file "old\nlines\n".toUTF8)], []⟩
    let after := tree.put ["router.tsx"] (.file "é\n\nc".toUTF8)
    (Target.write "router.tsx" lines : StateM FileTree (Except TargetError Nat)).run tree =
        (.ok 5, after) ∧
      WrittenLaw "router.tsx" lines 5 after ∧
      Piece.Separate (lines.map Line.piece) ∧
      Line.renumbered lines = [⟨1, "é", some .lf⟩, ⟨2, "", some .lf⟩, ⟨3, "c", none⟩] := by
  intro lines tree after
  have ran : (Target.write "router.tsx" lines : StateM FileTree (Except TargetError Nat)).run tree =
      (.ok 5, after) := rfl
  have reread : Line.split (Line.render lines) = Line.renumbered lines := by decide
  exact ⟨ran, rendered_readsBack.2.2 _ _ _ _ _ ran, (rendered_readsBack.1 lines).mp reread, rfl⟩

end FileTree

end LinePrune
