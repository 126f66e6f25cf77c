/-
This file applies rules to lines, each of which goes to one of two lists in its order.
-/

import LinePrune.Rules

namespace LinePrune

/-- A removal records what a dropped line held, its terminator included. -/
structure Removal where
  number : Nat
  reason : Reason
  content : String
  deriving DecidableEq, Repr

structure Selection where
  retained : List Line
  removed : List Removal
  deriving DecidableEq, Repr

namespace Rules

/-- The removal of a line exists exactly when the rules drop it. -/
def removal? (rules : Rules) (line : Line) : Option Removal :=
  match rules.disposition line.number line.text with
  | .keep => none
  | .remove reason => some ⟨line.number, reason, line.content⟩

/-- Retained lines keep the numbers that they came with. -/
def select (rules : Rules) (lines : List Line) : Selection where
  retained := lines.filter fun line => (rules.removal? line).isNone
  removed := lines.filterMap rules.removal?

theorem removal?_eq_none_iff {rules : Rules} {line : Line} :
    rules.removal? line = none ↔ rules.disposition line.number line.text = .keep := by
  simp only [removal?]
  split <;> simp [*]

theorem removal?_eq_some_iff {rules : Rules} {line : Line} {removal : Removal} :
    rules.removal? line = some removal ↔
      ∃ reason, rules.disposition line.number line.text = .remove reason ∧
        removal = ⟨line.number, reason, line.content⟩ := by
  simp only [removal?]
  split <;> simp [*, eq_comm]

/-- A removal carries the number of its line. -/
theorem number_of_removal? {rules : Rules} {line : Line} {removal : Removal}
    (dropped : rules.removal? line = some removal) : removal.number = line.number := by
  obtain ⟨reason, _, rfl⟩ := removal?_eq_some_iff.mp dropped
  rfl

@[simp] theorem select_nil (rules : Rules) : rules.select [] = ⟨[], []⟩ := rfl

theorem select_cons_of_none {rules : Rules} {line : Line} (kept : rules.removal? line = none)
    (rest : List Line) :
    rules.select (line :: rest) =
      ⟨line :: (rules.select rest).retained, (rules.select rest).removed⟩ := by
  simp [select, kept]

theorem select_cons_of_some {rules : Rules} {line : Line} {removal : Removal}
    (dropped : rules.removal? line = some removal) (rest : List Line) :
    rules.select (line :: rest) =
      ⟨(rules.select rest).retained, removal :: (rules.select rest).removed⟩ := by
  simp [select, dropped]

theorem mem_retained_iff {rules : Rules} {lines : List Line} {line : Line} :
    line ∈ (rules.select lines).retained ↔
      line ∈ lines ∧ rules.disposition line.number line.text = .keep := by
  simp [select, removal?_eq_none_iff]

theorem mem_removed_iff {rules : Rules} {lines : List Line} {removal : Removal} :
    removal ∈ (rules.select lines).removed ↔
      ∃ line ∈ lines, ∃ reason, rules.disposition line.number line.text = .remove reason ∧
        removal = ⟨line.number, reason, line.content⟩ := by
  simp [select, removal?_eq_some_iff]

/-- Nothing is removed exactly when every line is kept. -/
theorem removed_eq_nil_iff {rules : Rules} {lines : List Line} :
    (rules.select lines).removed = [] ↔
      ∀ line ∈ lines, rules.disposition line.number line.text = .keep := by
  simp [select, removal?_eq_none_iff]

theorem retained_eq_filter (rules : Rules) (lines : List Line) :
    (rules.select lines).retained =
      lines.filter fun line => rules.disposition line.number line.text = .keep := by
  apply List.filter_congr
  intro line _
  rw [Bool.eq_iff_iff, Option.isNone_iff_eq_none, removal?_eq_none_iff, decide_eq_true_iff]

theorem map_number_removed (rules : Rules) (lines : List Line) :
    (rules.select lines).removed.map Removal.number =
      (lines.filter fun line => (rules.removal? line).isSome).map Line.number := by
  induction lines with
  | nil => rfl
  | cons line rest ih =>
      cases dropped : rules.removal? line with
      | none => simpa [select_cons_of_none dropped, dropped] using ih
      | some removal =>
          simpa [select_cons_of_some dropped, dropped, number_of_removal? dropped] using ih

theorem ascending_retained (rules : Rules) {lines : List Line}
    (ascending : (lines.map Line.number).Pairwise (· < ·)) :
    ((rules.select lines).retained.map Line.number).Pairwise (· < ·) :=
  ascending.sublist (List.filter_sublist.map Line.number)

theorem ascending_removed (rules : Rules) {lines : List Line}
    (ascending : (lines.map Line.number).Pairwise (· < ·)) :
    ((rules.select lines).removed.map Removal.number).Pairwise (· < ·) := by
  rw [map_number_removed]
  exact ascending.sublist (List.filter_sublist.map Line.number)

theorem length_select (rules : Rules) (lines : List Line) :
    (rules.select lines).retained.length + (rules.select lines).removed.length =
      lines.length := by
  induction lines with
  | nil => rfl
  | cons line rest ih =>
      simp only [select] at ih ⊢
      cases dropped : rules.removal? line <;> simp [dropped] <;> omega

end Rules

end LinePrune
