import LinePrune.Proofs.Line.Rendering
import LinePrune.Rules

namespace LinePrune

namespace Text

variable {part before after : List Char} {c : Char}

theorem eq_nil_of_prefix_cons (absent : c ∉ part) (begins : part <+: c :: after) : part = [] := by
  cases part with
  | nil => rfl
  | cons first rest =>
      rw [List.cons_prefix_cons] at begins
      exact absurd begins.1 (List.ne_of_not_mem_cons absent).symm

/-- A part does not reach across a character that it does not hold. -/
theorem infix_append_cons_iff (absent : c ∉ part) :
    part <:+: before ++ c :: after ↔ part <:+: before ∨ part <:+: after := by
  constructor
  · intro found
    rcases List.infix_append_iff.mp found with left | right | ⟨front, back, rfl, ends, begins⟩
    · exact .inl left
    · rcases List.infix_cons_iff.mp right with begins | behind
      · obtain rfl := eq_nil_of_prefix_cons absent begins
        exact .inl List.nil_infix
      · exact .inr behind
    · have backAbsent : c ∉ back := fun member => absent (List.mem_append_right front member)
      obtain rfl := eq_nil_of_prefix_cons backAbsent begins
      rw [List.append_nil]
      exact .inl ends.isInfix
  · rintro (left | right)
    · exact left.trans (List.prefix_append ..).isInfix
    · exact right.trans ⟨before ++ [c], [], by simp⟩

end Text

/-- A sound trigger holds something, but no terminator character. -/
structure Rules.SoundTrigger (trigger : List Char) : Prop where
  filled : trigger ≠ []
  plain : ∀ c ∈ trigger, c ≠ '\n' ∧ c ≠ '\r'

namespace Rules

/-- Triggers without a defect are the sound ones. -/
theorem triggerDefect?_eq_none_iff {trigger : String} :
    triggerDefect? trigger = none ↔ SoundTrigger trigger.toList := by
  have filled : trigger.isEmpty = false ↔ trigger.toList ≠ [] := by simp
  constructor
  · intro accepted
    simp only [triggerDefect?] at accepted
    split at accepted
    · contradiction
    next notEmpty =>
      split at accepted
      · contradiction
      next noTerminator =>
        exact ⟨filled.mp (Bool.not_eq_true _ ▸ notEmpty),
          hasTerminator_eq_false_iff.mp (Bool.not_eq_true _ ▸ noTerminator)⟩
  · intro sound
    rw [triggerDefect?, filled.mpr sound.filled, hasTerminator_eq_false_iff.mpr sound.plain]
    rfl

variable {trigger : List Char}

namespace SoundTrigger

/-- A sound trigger stands on one side of a terminator. -/
theorem infix_terminator_iff (sound : SoundTrigger trigger) (terminator : Terminator)
    {before after : List Char} :
    trigger <:+: before ++ (terminator.chars ++ after) ↔
      trigger <:+: before ∨ trigger <:+: after := by
  have noFeed : '\n' ∉ trigger := fun member => (sound.plain '\n' member).1 rfl
  have noReturn : '\r' ∉ trigger := fun member => (sound.plain '\r' member).2 rfl
  cases terminator with
  | lf => exact Text.infix_append_cons_iff noFeed
  | cr => exact Text.infix_append_cons_iff noReturn
  | crlf =>
      have between : ¬ trigger <:+: [] := fun found => sound.filled (List.infix_nil.mp found)
      calc trigger <:+: before ++ '\r' :: ([] ++ '\n' :: after)
          ↔ trigger <:+: before ∨ trigger <:+: [] ++ '\n' :: after :=
            Text.infix_append_cons_iff noReturn
        _ ↔ trigger <:+: before ∨ trigger <:+: after := by
            rw [Text.infix_append_cons_iff noFeed, or_iff_right between]

/-- The terminator of a piece adds no occurrence. -/
theorem infix_content_iff (sound : SoundTrigger trigger) (piece : Piece) :
    trigger <:+: piece.content ↔ trigger <:+: piece.chars := by
  cases ending : piece.terminator with
  | none => simp [Piece.content, ending]
  | some terminator =>
      have atEnd : trigger <:+: piece.chars ++ (terminator.chars ++ []) ↔
          trigger <:+: piece.chars ∨ trigger <:+: [] := sound.infix_terminator_iff terminator
      rw [List.append_nil, List.infix_nil, or_iff_left sound.filled] at atEnd
      rwa [Piece.content, ending, Option.map_some, Option.getD_some]

/-- A sound trigger stands in a text exactly when it stands in one of its pieces. -/
theorem infix_flatMap_content_iff (sound : SoundTrigger trigger) {pieces : List Piece}
    (separate : Piece.Separate pieces) :
    trigger <:+: pieces.flatMap Piece.content ↔ ∃ piece ∈ pieces, trigger <:+: piece.chars := by
  induction pieces with
  | nil => simpa using sound.filled
  | cons piece rest ih =>
      have others := ih (separate.sublist (List.sublist_cons_self ..))
      rw [List.flatMap_cons, List.exists_mem_cons_iff, ← others]
      cases ending : piece.terminator with
      | none =>
          -- Nothing follows an open piece, so an occurrence has nothing to reach into.
          obtain rfl := separate.eq_nil_of_open ending
          simp [sound.infix_content_iff, sound.filled]
      | some terminator =>
          rw [Piece.content, ending, Option.map_some, Option.getD_some, List.append_assoc]
          exact sound.infix_terminator_iff terminator

end SoundTrigger

/-- A trigger without a defect stands in a file exactly when the search finds it in the text of a
line, and in the content of a line exactly when the search finds it in the text. -/
theorem holds_iff_contains_line {trigger : String} (accepted : triggerDefect? trigger = none)
    (contents : String) :
    (Text.Holds contents trigger ↔
      ∃ line ∈ Line.split contents, Text.contains line.text trigger = true) ∧
    ∀ line ∈ Line.split contents,
      Text.contains line.text trigger = true ↔ Text.Holds line.content trigger := by
  have sound := triggerDefect?_eq_none_iff.mp accepted
  simp only [← Text.contains_iff_holds, Text.contains_iff]
  constructor
  · calc trigger.toList <:+: contents.toList
        ↔ trigger.toList <:+: (Piece.cut contents.toList).flatMap Piece.content := by
          rw [Piece.flatMap_content_cut]
      _ ↔ ∃ piece ∈ (Line.split contents).map Line.piece, trigger.toList <:+: piece.chars := by
          rw [Line.map_piece_split, sound.infix_flatMap_content_iff (Piece.separate_cut _)]
      _ ↔ ∃ line ∈ Line.split contents, trigger.toList <:+: line.text.toList := by
          simp only [List.mem_map, exists_exists_and_eq_and, Line.piece]
  · intro line _
    rw [Line.toList_content, sound.infix_content_iff line.piece, Line.piece]

/-- A carriage return stands between the two halves of the trigger, and so does the pair of both. -/
theorem holds_iff_contains_line_of_parted_trigger :
    let contents := "a]\r,b\r\n]\r\n,\n]],"
    triggerDefect? "]," = none ∧
      (Text.Holds contents "]," ↔
        ∃ line ∈ Line.split contents, Text.contains line.text "]," = true) ∧
      (∀ line ∈ Line.split contents,
        Text.contains line.text "]," = true ↔ Text.Holds line.content "],") ∧
      (Line.split contents).map (fun line => Text.contains line.text "],") =
        [false, false, false, false, true] := by
  intro contents
  have accepted : triggerDefect? "]," = none := by decide
  obtain ⟨whole, each⟩ := holds_iff_contains_line accepted contents
  exact ⟨accepted, whole, each, by decide⟩

end Rules

end LinePrune
