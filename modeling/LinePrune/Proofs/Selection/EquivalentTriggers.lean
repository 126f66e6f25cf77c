import LinePrune.Selection

namespace LinePrune

namespace Rules

/-- Two lists of triggers are interchangeable when each trigger of either list has one of the other
list inside it. Their order and their lengths may differ. -/
structure Interchangeable (first second : List String) : Prop where
  forth : ∀ trigger ∈ first, ∃ part ∈ second, Text.Holds trigger part
  back : ∀ trigger ∈ second, ∃ part ∈ first, Text.Holds trigger part

namespace Interchangeable

variable {first second : List String}

/-- Triggers may be reordered and repeated, and those added that have an old one inside them. -/
theorem of_subset (listed : first ⊆ second)
    (covered : ∀ trigger ∈ second, ∃ part ∈ first, Text.Holds trigger part) :
    Interchangeable first second where
  forth trigger member := ⟨trigger, listed member, Text.holds_refl trigger⟩
  back := covered

/-- A text that holds a trigger of one list holds one of the other, since it holds the inner one. -/
theorem exists_holds_iff (interchangeable : Interchangeable first second) (text : String) :
    (∃ trigger ∈ first, Text.Holds text trigger) ↔ ∃ trigger ∈ second, Text.Holds text trigger := by
  constructor
  · intro found
    obtain ⟨trigger, member, held⟩ := found
    obtain ⟨part, partMember, inside⟩ := interchangeable.forth trigger member
    exact ⟨part, partMember, held.trans inside⟩
  · intro found
    obtain ⟨trigger, member, held⟩ := found
    obtain ⟨part, partMember, inside⟩ := interchangeable.back trigger member
    exact ⟨part, partMember, held.trans inside⟩

end Interchangeable

variable {rules other : Rules}

/-- Selections are known by the decisions on single lines. -/
theorem select_congr
    (same : ∀ number text, rules.disposition number text = other.disposition number text)
    (lines : List Line) : rules.select lines = other.select lines := by
  have removals : rules.removal? = other.removal? := by
    funext line
    rw [removal?, same, removal?]
  rw [select, removals, select]

/-- The search of each list comes to the same answer on every text. -/
theorem disposition_eq_of_interchangeable (conditional : rules.conditional = other.conditional)
    (unconditional : rules.unconditional = other.unconditional)
    (interchangeable : Interchangeable rules.triggers other.triggers) (number : Nat)
    (text : String) : rules.disposition number text = other.disposition number text := by
  have found : (rules.matchingTrigger text).isSome = (other.matchingTrigger text).isSome := by
    rw [Bool.eq_iff_iff, matchingTrigger_isSome_iff, matchingTrigger_isSome_iff,
      interchangeable.exists_holds_iff]
  simp only [disposition, conditional, unconditional, found]

/-- With a conditional position at hand, rules that select alike find a trigger in the same
texts. -/
theorem exists_holds_of_select_eq {position : Position}
    (member : position ∈ rules.conditional.members)
    (same : ∀ lines, rules.select lines = other.select lines) {text : String}
    (found : ∃ trigger ∈ rules.triggers, Text.Holds text trigger) :
    ∃ trigger ∈ other.triggers, Text.Holds text trigger := by
  have contained : rules.conditional.contains position.toNat = true :=
    Positions.contains_iff.mpr ⟨position, member, rfl⟩
  have decided : rules.disposition position.toNat text = .remove .trigger :=
    disposition_eq_trigger_iff.mpr ⟨contained, found⟩
  let line : Line := ⟨position.toNat, text, none⟩
  have removed : ⟨position.toNat, .trigger, line.content⟩ ∈ (rules.select [line]).removed :=
    mem_removed_iff.mpr ⟨line, List.mem_singleton_self line, .trigger, decided, rfl⟩
  rw [same] at removed
  obtain ⟨_, single, reason, otherDecided, record⟩ := mem_removed_iff.mp removed
  obtain rfl := List.mem_singleton.mp single
  obtain rfl : Reason.trigger = reason := (Removal.mk.inj record).2.1
  exact (disposition_eq_trigger_iff.mp otherDecided).2

/-- No weaker condition on the triggers will do, once a position is conditional. -/
theorem interchangeable_of_select_eq (conditional : rules.conditional = other.conditional)
    {position : Position} (member : position ∈ rules.conditional.members)
    (same : ∀ lines, rules.select lines = other.select lines) :
    Interchangeable rules.triggers other.triggers where
  forth trigger listed :=
    exists_holds_of_select_eq member same ⟨trigger, listed, Text.holds_refl trigger⟩
  back trigger listed :=
    exists_holds_of_select_eq (conditional ▸ member) (fun lines => (same lines).symm)
      ⟨trigger, listed, Text.holds_refl trigger⟩

/-- The first trigger of the list is named wherever it is held. -/
theorem matchingTrigger_eq_head {first : String} {rest : List String} {text : String}
    (starts : rules.triggers = first :: rest) (held : Text.Holds text first) :
    rules.matchingTrigger text = some first := by
  rw [matchingTrigger, starts, List.find?_cons_of_pos (Text.contains_iff_holds.mpr held)]

/-- Lists that begin with different triggers name them both on the text that joins the two. -/
theorem exists_matchingTrigger_ne {first second : String} {rest others : List String}
    (starts : rules.triggers = first :: rest) (otherStarts : other.triggers = second :: others)
    (different : first ≠ second) :
    ∃ text first second, rules.matchingTrigger text = some first ∧
      other.matchingTrigger text = some second ∧ first ≠ second :=
  ⟨first ++ second, first, second,
    matchingTrigger_eq_head starts (Text.holds_append_left first second),
    matchingTrigger_eq_head otherStarts (Text.holds_append_right first second), different⟩

/-- Interchangeable triggers make no difference to a selection. Which trigger is named is another
matter as soon as the lists begin with different ones. -/
theorem select_eq_of_interchangeable {rules other : Rules}
    (conditional : rules.conditional = other.conditional)
    (unconditional : rules.unconditional = other.unconditional)
    (interchangeable : Interchangeable rules.triggers other.triggers) :
    (∀ lines, rules.select lines = other.select lines) ∧
      (rules.triggers.head? ≠ other.triggers.head? →
        ∃ text first second, rules.matchingTrigger text = some first ∧
          other.matchingTrigger text = some second ∧ first ≠ second) := by
  refine ⟨select_congr
    (disposition_eq_of_interchangeable conditional unconditional interchangeable), ?_⟩
  intro different
  cases starts : rules.triggers with
  | nil =>
      -- The other list must be empty, too, because its triggers have nothing to hold.
      cases otherStarts : other.triggers with
      | nil => simp [starts, otherStarts] at different
      | cons second others =>
          obtain ⟨part, member, _⟩ := interchangeable.back second (by simp [otherStarts])
          simp [starts] at member
  | cons first rest =>
      cases otherStarts : other.triggers with
      | nil =>
          obtain ⟨part, member, _⟩ := interchangeable.forth first (by simp [starts])
          simp [otherStarts] at member
      | cons second others =>
          rw [starts, otherStarts, List.head?_cons, List.head?_cons] at different
          exact exists_matchingTrigger_ne starts otherStarts fun same => different (by rw [same])

/-- The other list is reordered, repeats a trigger, and has two that hold an old one. -/
theorem select_eq_of_interchangeable_overlapping :
    let rules : Rules := ⟨.ofList [1, 2], ["aab", "],"], .ofList [3]⟩
    let other : Rules := ⟨.ofList [2, 1], ["],", "aaab", "],", "x],", "aab"], .ofList [3, 3]⟩
    rules.conditional = other.conditional ∧ rules.unconditional = other.unconditional ∧
      Interchangeable rules.triggers other.triggers ∧
      (∀ lines, rules.select lines = other.select lines) ∧
      (rules.select (Line.split "aaaab],\n],\nc")).removed.map Removal.number = [1, 2, 3] ∧
      ∃ text first second, rules.matchingTrigger text = some first ∧
        other.matchingTrigger text = some second ∧ first ≠ second := by
  intro rules other
  have conditional : rules.conditional = other.conditional := by decide
  have unconditional : rules.unconditional = other.unconditional := by decide
  have interchangeable : Interchangeable rules.triggers other.triggers :=
    .of_subset (by decide) (by decide)
  obtain ⟨alike, named⟩ :=
    select_eq_of_interchangeable conditional unconditional interchangeable
  exact ⟨conditional, unconditional, interchangeable, alike, by decide, named (by decide)⟩

end Rules

end LinePrune
