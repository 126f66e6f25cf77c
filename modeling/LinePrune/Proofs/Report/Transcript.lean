/-
This file decodes what a run prints.
-/

import LinePrune.Proofs.Command.Run
import LinePrune.Proofs.Selection.Conservation
import LinePrune.Proofs.Selection.Terminators
import LinePrune.Proofs.Text.Escapes

namespace LinePrune

section Decoding

/-- The digits of a number end at the first character behind them that is none. -/
theorem toDigits_append_inj {first second : Nat} {mark : Char} (notDigit : mark.isDigit = false)
    {rest otherRest : List Char}
    (same : Nat.toDigits 10 first ++ mark :: rest = Nat.toDigits 10 second ++ mark :: otherRest) :
    first = second ∧ rest = otherRest := by
  have digits (number : Nat) (rest : List Char) :
      (Nat.toDigits 10 number ++ mark :: rest).takeWhile Char.isDigit = Nat.toDigits 10 number := by
    rw [List.takeWhile_append_of_pos fun _ member =>
      Nat.isDigit_of_mem_toDigits (by decide) (by decide) member]
    simp [notDigit]
  have sameDigits : Nat.toDigits 10 first = Nat.toDigits 10 second := by
    rw [← digits first rest, same, digits]
  have numbers := congrArg (fun chars => Nat.ofDigitChars 10 chars 0) sameDigits
  simp only [Nat.ofDigitChars_ten_toDigits] at numbers
  rw [sameDigits, List.append_cancel_left_eq, List.cons.injEq] at same
  exact ⟨numbers, same.2⟩

/-- A reported removal tells its number and its content, and where the output goes on. -/
theorem Removal.report_append_inj {first second : Removal} {rest otherRest : List Char}
    (same : first.report.toList ++ rest = second.report.toList ++ otherRest) :
    first.numberedContent = second.numberedContent ∧ rest = otherRest := by
  have colon : ": ".toList = [':', ' '] := rfl
  delta report at same
  simp only [String.toList_append, Nat.toString_eq_repr, Nat.toList_repr, colon,
    List.append_assoc, List.append_cancel_left_eq, List.cons_append, List.nil_append] at same
  obtain ⟨numbers, following⟩ := toDigits_append_inj (by decide) same
  rw [List.cons.injEq] at following
  obtain ⟨contents, rests⟩ := Text.quoted_append_inj following.2
  exact ⟨Prod.ext numbers contents, rests⟩

theorem Removal.head?_report (removal : Removal) : removal.report.toList.head? = some 'R' := by
  delta report
  simp

namespace Outcome

/-- The last line of a report tells what kind of outcome it is. -/
def closingLine (path : RawText) : Outcome → String
  | .notFound missing => "Error: " ++ missing.display ++ " not found"
  | .unchanged => "No lines were removed. Check line numbers or content."
  | .updated removed =>
      "Successfully updated " ++ Path.shownName path ++ ", removed " ++
        toString removed.length ++ " lines"

theorem report_eq (path : RawText) (outcome : Outcome) :
    outcome.report path = outcome.removed.map Removal.report ++ [outcome.closingLine path] := by
  cases outcome with
  | notFound missing => rfl
  | unchanged => rfl
  | updated removed => rfl

/-- The kind of an outcome, as the first character of its last line. -/
def mark : Outcome → Char
  | .notFound _ => 'E'
  | .unchanged => 'N'
  | .updated _ => 'S'

theorem head?_closingLine (path : RawText) (outcome : Outcome) :
    (outcome.closingLine path).toList.head? = some outcome.mark := by
  cases outcome with
  | notFound missing =>
      show ("Error: " ++ missing.display ++ " not found").toList.head? = some 'E'
      simp
  | unchanged =>
      show "No lines were removed. Check line numbers or content.".toList.head? = some 'N'
      rfl
  | updated removed =>
      show ("Successfully updated " ++ Path.shownName path ++ ", removed " ++
        toString removed.length ++ " lines").toList.head? = some 'S'
      simp

theorem mark_ne (outcome : Outcome) : outcome.mark ≠ 'R' := by
  cases outcome <;> simp [mark]

end Outcome

namespace Command

theorem toList_linesOutput_cons (line : String) (lines : List String) :
    (linesOutput (line :: lines)).toList = line.toList ++ '\n' :: (linesOutput lines).toList := by
  simp [linesOutput]

/-- A line that does not begin like a reported removal cannot be taken for one. -/
theorem append_ne_report_append {line : String} (begins : line.toList.head? ≠ some 'R')
    (removal : Removal) (rest otherRest : List Char) :
    line.toList ++ '\n' :: rest ≠ removal.report.toList ++ otherRest := by
  intro same
  have heads := congrArg List.head? same
  rw [List.head?_append, List.head?_append, removal.head?_report] at heads
  cases first : line.toList.head? with
  | none => simp [first] at heads
  | some c =>
      rw [first] at heads begins
      exact begins heads

/-- The lines of the removals can be told from the line behind them, which tells the rest. -/
theorem eq_of_linesOutput_eq {removed others : List Removal} {last otherLast : String}
    (begins : last.toList.head? ≠ some 'R') (otherBegins : otherLast.toList.head? ≠ some 'R')
    (same : (linesOutput (removed.map Removal.report ++ [last])).toList =
      (linesOutput (others.map Removal.report ++ [otherLast])).toList) :
    removed.map Removal.numberedContent = others.map Removal.numberedContent ∧
      last = otherLast := by
  induction removed generalizing others with
  | nil =>
      rw [List.map_nil, List.nil_append, toList_linesOutput_cons] at same
      cases others with
      | nil =>
          rw [List.map_nil, List.nil_append, toList_linesOutput_cons] at same
          exact ⟨rfl, String.toList_injective (List.append_cancel_right same)⟩
      | cons other others =>
          rw [List.map_cons, List.cons_append, toList_linesOutput_cons] at same
          exact absurd same (append_ne_report_append begins other _ _)
  | cons removal removed ih =>
      rw [List.map_cons, List.cons_append, toList_linesOutput_cons] at same
      cases others with
      | nil =>
          rw [List.map_nil, List.nil_append, toList_linesOutput_cons] at same
          exact absurd same.symm (append_ne_report_append otherBegins removal _ _)
      | cons other others =>
          rw [List.map_cons, List.cons_append, toList_linesOutput_cons] at same
          obtain ⟨first, following⟩ := Removal.report_append_inj same
          rw [List.cons.injEq] at following
          obtain ⟨contents, lasts⟩ := ih following.2
          exact ⟨congrArg₂ List.cons first contents, lasts⟩

end Command

end Decoding

section Reasons

variable {rules : Rules}

/-- The reason for which a line with this number is removed, if it is. -/
def Rules.reasonAt (rules : Rules) (number : Nat) : Reason :=
  if rules.conditional.contains number then .trigger else .unconditional

theorem Rules.reason_eq_of_removed {lines : List Line} {removal : Removal}
    (removed : removal ∈ (rules.select lines).removed) :
    removal.reason = rules.reasonAt removal.number := by
  obtain ⟨line, _, reason, decided, rfl⟩ := mem_removed_iff.mp removed
  cases reason with
  | trigger => simp [reasonAt, (disposition_eq_trigger_iff.mp decided).1]
  | unconditional => simp [reasonAt, (disposition_eq_unconditional_iff.mp decided).1]

/-- The reasons need not be told, since the rules and the numbers give them. -/
theorem Rules.removed_eq_of_numberedContent_eq {lines others : List Line}
    (same : (rules.select lines).removed.map Removal.numberedContent =
      (rules.select others).removed.map Removal.numberedContent) :
    (rules.select lines).removed = (rules.select others).removed := by
  have restored (lines : List Line) : (rules.select lines).removed =
      ((rules.select lines).removed.map Removal.numberedContent).map fun told =>
        ⟨told.1, rules.reasonAt told.1, told.2⟩ := by
    rw [List.map_map]
    refine (List.map_id _).symm.trans (List.map_congr_left fun removal member => ?_)
    show removal = ⟨removal.number, rules.reasonAt removal.number, removal.content⟩
    rw [← reason_eq_of_removed member]
  rw [restored lines, same, ← restored others]

end Reasons

section Lines

/-- Two lines agree under rules when they are the same, or when the rules retain them and they
differ in the kind of the terminator only. -/
inductive Line.Agrees (rules : Rules) : Line → Line → Prop where
  | removed (line : Line) : rules.disposition line.number line.text ≠ .keep →
      Agrees rules line line
  | retained (number : Nat) (text : String) (terminator otherTerminator : Option Terminator) :
      rules.disposition number text = .keep → terminator.isSome = otherTerminator.isSome →
      Agrees rules ⟨number, text, terminator⟩ ⟨number, text, otherTerminator⟩

/-- Lines that are rendered alike fall into the same pieces again. -/
theorem Line.map_rewritten_eq_of_render_eq {first second : List Line}
    (separate : Piece.Separate (first.map piece))
    (otherSeparate : Piece.Separate (second.map piece)) (same : render first = render second) :
    first.map (fun line => line.piece.rewritten) =
      second.map (fun line => line.piece.rewritten) := by
  have pieces := congrArg (fun text => Piece.cut text.toList) same
  simpa only [toList_render, Piece.cut_flatMap_rewritten separate,
    Piece.cut_flatMap_rewritten otherSeparate, List.map_map, Function.comp_def] using pieces

/-- A retained line agrees with every line of its number that is rendered alike. -/
theorem Line.agrees_of_rewritten_eq {rules : Rules} {first second : Line}
    (kept : rules.disposition first.number first.text = .keep)
    (numbers : first.number = second.number)
    (same : first.piece.rewritten = second.piece.rewritten) : first.Agrees rules second := by
  simp only [piece, Piece.rewritten, Piece.mk.injEq] at same
  obtain ⟨texts, terminators⟩ := same
  have ends := congrArg Option.isSome terminators
  simp only [Option.isSome_map] at ends
  obtain ⟨number, text, terminator⟩ := first
  obtain ⟨otherNumber, otherText, otherTerminator⟩ := second
  obtain rfl : number = otherNumber := numbers
  obtain rfl : text = otherText := String.toList_injective texts
  exact .retained number text terminator otherTerminator kept ends

namespace Rules

variable {rules : Rules} {lines others : List Line} {number : Nat}

theorem length_eq_of_select_eq {α : Type} {told : Line → α}
    (removed : (rules.select lines).removed = (rules.select others).removed)
    (retained : (rules.select lines).retained.map told =
      (rules.select others).retained.map told) : lines.length = others.length := by
  have retainedLength := congrArg List.length retained
  rw [List.length_map, List.length_map] at retainedLength
  rw [← rules.length_select lines, ← rules.length_select others, removed, retainedLength]

/-- The first of some numbered lines is removed exactly when its number is reported. -/
theorem isSome_removal?_iff {line : Line}
    (numbered : (line :: lines).map Line.number = List.range' number (lines.length + 1)) :
    (rules.removal? line).isSome = true ↔
      number ∈ (rules.select (line :: lines)).removed.map Removal.number := by
  rw [List.map_cons, List.range'_succ, List.cons.injEq] at numbered
  obtain ⟨rfl, following⟩ := numbered
  rw [map_number_removed, List.mem_map]
  constructor
  · intro removed
    exact ⟨line, List.mem_filter.mpr ⟨List.mem_cons_self, removed⟩, rfl⟩
  · rintro ⟨other, listed, number⟩
    obtain ⟨member, removed⟩ := List.mem_filter.mp listed
    rcases List.mem_cons.mp member with rfl | behind
    · exact removed
    · have above : other.number ∈ lines.map Line.number := List.mem_map_of_mem behind
      rw [following, List.mem_range'_1] at above
      omega

/-- Numbered lines agree when the same is removed of them and what is retained is rendered alike. -/
theorem forall₂_agrees (numbered : lines.map Line.number = List.range' number lines.length)
    (otherNumbered : others.map Line.number = List.range' number others.length)
    (plain : ∀ line ∈ lines, line.IsPlain) (otherPlain : ∀ line ∈ others, line.IsPlain)
    (removed : (rules.select lines).removed = (rules.select others).removed)
    (retained : (rules.select lines).retained.map (fun line => line.piece.rewritten) =
      (rules.select others).retained.map (fun line => line.piece.rewritten)) :
    List.Forall₂ (Line.Agrees rules) lines others := by
  have lengths := length_eq_of_select_eq removed retained
  induction lines generalizing others number with
  | nil =>
      obtain rfl := List.length_eq_zero_iff.mp lengths.symm
      exact .nil
  | cons line lines ih =>
      cases others with
      | nil => simp at lengths
      | cons other others =>
          -- Both lines have the least number, so the removals tell whether they are removed.
          have together : (rules.removal? line).isSome = (rules.removal? other).isSome := by
            rw [Bool.eq_iff_iff, isSome_removal?_iff numbered, isSome_removal?_iff otherNumbered,
              removed]
          simp only [List.map_cons, List.length_cons, List.range'_succ, List.cons.injEq]
            at numbered otherNumbered lengths
          rw [List.forall_mem_cons] at plain otherPlain
          have numbers : line.number = other.number := numbered.1.trans otherNumbered.1.symm
          cases dropped : rules.removal? line with
          | none =>
              have otherDropped : rules.removal? other = none := by
                simpa [dropped] using together.symm
              rw [select_cons_of_none dropped, select_cons_of_none otherDropped] at removed retained
              simp only [List.map_cons, List.cons.injEq] at retained
              refine .cons ?_ (ih numbered.2 otherNumbered.2 plain.2 otherPlain.2 removed
                retained.2 (Nat.succ.inj lengths))
              exact Line.agrees_of_rewritten_eq (removal?_eq_none_iff.mp dropped) numbers retained.1
          | some removal =>
              obtain ⟨otherRemoval, otherDropped⟩ : ∃ found, rules.removal? other = some found := by
                rw [← Option.isSome_iff_exists, ← together, dropped, Option.isSome_some]
              rw [select_cons_of_some dropped, select_cons_of_some otherDropped] at removed retained
              rw [List.cons.injEq] at removed
              obtain ⟨reason, decided, rfl⟩ := removal?_eq_some_iff.mp dropped
              obtain ⟨otherReason, _, rfl⟩ := removal?_eq_some_iff.mp otherDropped
              obtain rfl : line = other := Line.eq_of_content_eq plain.1 otherPlain.1 numbers
                (congrArg Removal.content removed.1)
              refine .cons (.removed line ?_) (ih numbered.2 otherNumbered.2 plain.2 otherPlain.2
                removed.2 retained (Nat.succ.inj lengths))
              simp [decided]

end Rules

end Lines

namespace FileTree

/-- The standard output of the run of an edit. -/
def printed (tree : FileTree) (config : Config) : String :=
  ((Command.editTarget config : StateM FileTree RunResult).run tree).1.output

variable {tree after : FileTree} {config : Config} {outcome : Outcome}

theorem printed_of_run (run : tree.runEdit config.target config.rules = (.ok outcome, after)) :
    tree.printed config = Command.linesOutput (outcome.report config.target) := by
  rw [printed, run_editTarget, run]
  rfl

theorem mark_outcomeOn_ne (rules : Rules) (contents : String) :
    (rules.outcomeOn contents).mark ≠ 'E' := by
  rw [Rules.outcomeOn]
  split <;> simp [Outcome.mark]

/-- Outputs that are equal close with lines of one kind and report the same removals. -/
theorem told_of_printed_eq {other otherAfter : FileTree} {otherOutcome : Outcome}
    (run : tree.runEdit config.target config.rules = (.ok outcome, after))
    (otherRun : other.runEdit config.target config.rules = (.ok otherOutcome, otherAfter))
    (same : tree.printed config = other.printed config) :
    outcome.removed.map Removal.numberedContent =
        otherOutcome.removed.map Removal.numberedContent ∧ outcome.mark = otherOutcome.mark := by
  rw [printed_of_run run, printed_of_run otherRun, Outcome.report_eq, Outcome.report_eq] at same
  have begins (outcome : Outcome) :
      (outcome.closingLine config.target).toList.head? ≠ some 'R' := by
    rw [Outcome.head?_closingLine, Ne, Option.some.injEq]
    exact outcome.mark_ne
  obtain ⟨removals, closings⟩ := Command.eq_of_linesOutput_eq (begins outcome)
    (begins otherOutcome) (congrArg String.toList same)
  have marks := congrArg (fun line => line.toList.head?) closings
  simp only [Outcome.head?_closingLine, Option.some.injEq] at marks
  exact ⟨removals, marks⟩

/-- Texts that lose the same removals and become the same text have lines that agree. -/
theorem agrees_of_rewrite_eq {rules : Rules} {contents otherContents : String}
    (removed : (rules.select (Line.split contents)).removed ≠ [])
    (same : (rules.select (Line.split contents)).removed =
      (rules.select (Line.split otherContents)).removed)
    (left : rules.rewrite contents = rules.rewrite otherContents) :
    List.Forall₂ (Line.Agrees rules) (Line.split contents) (Line.split otherContents) := by
  rw [Rules.rewrite_of_removed removed, Rules.rewrite_of_removed (same ▸ removed)] at left
  refine Rules.forall₂_agrees (Line.map_number_split contents)
    (Line.map_number_split otherContents) (fun _ => Line.isPlain_of_mem_split)
    (fun _ => Line.isPlain_of_mem_split) same ?_
  exact Line.map_rewritten_eq_of_render_eq (rules.separate_retained contents)
    (rules.separate_retained otherContents) left

/-- What a run prints tells its outcome, reasons and contents included. What it prints and the file
that it leaves tell the lines that it found, but for the kinds of retained terminators. -/
theorem found_of_printed_eq {other otherAfter : FileTree} {otherOutcome : Outcome}
    (run : tree.runEdit config.target config.rules = (.ok outcome, after))
    (otherRun : other.runEdit config.target config.rules = (.ok otherOutcome, otherAfter))
    (same : tree.printed config = other.printed config) :
    outcome = otherOutcome ∧ ∀ removed, outcome = .updated removed →
      after.entryOf? config.target = otherAfter.entryOf? config.target →
      ∃ contents otherContents, tree.HoldsText config.target contents ∧
        other.HoldsText config.target otherContents ∧
        List.Forall₂ (Line.Agrees config.rules) (Line.split contents)
          (Line.split otherContents) := by
  obtain ⟨removals, marks⟩ := told_of_printed_eq run otherRun same
  rcases outcome_cases run with rfl | ⟨contents, holds, rfl, leaves⟩
  · rcases outcome_cases otherRun with rfl | ⟨otherContents, _, rfl, _⟩
    · exact ⟨rfl, by simp⟩
    · exact absurd marks.symm (mark_outcomeOn_ne config.rules otherContents)
  · rcases outcome_cases otherRun with rfl | ⟨otherContents, otherHolds, rfl, otherLeaves⟩
    · exact absurd marks (mark_outcomeOn_ne config.rules contents)
    · rw [Rules.removed_outcomeOn, Rules.removed_outcomeOn] at removals
      have sameRemoved := Rules.removed_eq_of_numberedContent_eq removals
      refine ⟨by simp only [Rules.outcomeOn, sameRemoved], fun removed updated files => ?_⟩
      obtain ⟨some, rfl⟩ := Rules.outcomeOn_eq_updated_iff.mp updated
      have left : config.rules.rewrite contents = config.rules.rewrite otherContents :=
        HoldsText.unique (files.symm.trans leaves) otherLeaves
      exact ⟨contents, otherContents, holds, otherHolds,
        agrees_of_rewrite_eq some sameRemoved left⟩

/-- A carriage return in front of the removed line cannot be told from the pair of both. -/
theorem found_of_printed_eq_of_carriage_returns :
    let tree : FileTree := ⟨[(["router.tsx"], .file "a\r\n\t\"b\"\r\nc".toUTF8)], []⟩
    let other : FileTree := ⟨[(["router.tsx"], .file "a\r\t\"b\"\r\nc".toUTF8)], []⟩
    let rules : Rules := ⟨.empty, [], .ofList [2]⟩
    let config : Config := ⟨"router.tsx", rules⟩
    let outcome : Outcome := .updated [⟨2, .unconditional, "\t\"b\"\r\n"⟩]
    let after := tree.put ["router.tsx"] (.file "a\nc".toUTF8)
    let otherAfter := other.put ["router.tsx"] (.file "a\nc".toUTF8)
    tree.runEdit config.target config.rules = (.ok outcome, after) ∧
      other.runEdit config.target config.rules = (.ok outcome, otherAfter) ∧
      tree.printed config = other.printed config ∧
      after.entryOf? config.target = otherAfter.entryOf? config.target ∧
      ∃ contents otherContents, tree.HoldsText config.target contents ∧
        other.HoldsText config.target otherContents ∧
        List.Forall₂ (Line.Agrees config.rules) (Line.split contents)
          (Line.split otherContents) := by
  intro tree other rules config outcome after otherAfter
  have run : tree.runEdit config.target config.rules = (.ok outcome, after) :=
    show tree.runEdit "router.tsx" rules = (.ok outcome, after) from rfl
  have otherRun : other.runEdit config.target config.rules = (.ok outcome, otherAfter) :=
    show other.runEdit "router.tsx" rules = (.ok outcome, otherAfter) from rfl
  have same : tree.printed config = other.printed config :=
    (printed_of_run run).trans (printed_of_run otherRun).symm
  have files : after.entryOf? config.target = otherAfter.entryOf? config.target := rfl
  exact ⟨run, otherRun, same, files, (found_of_printed_eq run otherRun same).2 _ rfl files⟩

end FileTree

end LinePrune
