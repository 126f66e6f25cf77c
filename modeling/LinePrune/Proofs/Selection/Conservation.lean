import LinePrune.Selection
import Mathlib.Data.List.Nodup

namespace LinePrune

/-- A numbered content is all that is needed to put a line back where it was. -/
abbrev NumberedContent := Nat × String

def Line.numberedContent (line : Line) : NumberedContent :=
  (line.number, line.content)

def Removal.numberedContent (removal : Removal) : NumberedContent :=
  (removal.number, removal.content)

namespace Selection

/-- Retained and removed contents are merged in ascending order of their numbers. -/
def merged (selection : Selection) : List NumberedContent :=
  List.merge (selection.retained.map Line.numberedContent)
    (selection.removed.map Removal.numberedContent) fun first second => first.1 ≤ second.1

/-- The restored text is everything that the selection holds, in the order of the numbers. -/
def restored (selection : Selection) : String :=
  String.join (selection.merged.map Prod.snd)

end Selection

/-- A content with the least number of all goes first when it comes from the left. -/
theorem NumberedContent.merge_cons_left (first : NumberedContent)
    (left right : List NumberedContent) (least : ∀ other ∈ right, first.1 < other.1) :
    List.merge (first :: left) right (fun a b => a.1 ≤ b.1) =
      first :: List.merge left right (fun a b => a.1 ≤ b.1) := by
  cases right with
  | nil => simp
  | cons other rest =>
      have below := Nat.le_of_lt (least other (List.mem_cons_self ..))
      simp [below]

/-- A content with the least number of all goes first when it comes from the right. -/
theorem NumberedContent.merge_cons_right (first : NumberedContent)
    (left right : List NumberedContent) (least : ∀ other ∈ left, first.1 < other.1) :
    List.merge left (first :: right) (fun a b => a.1 ≤ b.1) =
      first :: List.merge left right (fun a b => a.1 ≤ b.1) := by
  cases left with
  | nil => simp
  | cons other rest =>
      have above := Nat.not_le.mpr (least other (List.mem_cons_self ..))
      simp [above]

namespace Rules

/-- Merging undoes the selection: what was parted by the rules comes back line by line. -/
theorem merged_select (rules : Rules) {lines : List Line}
    (ascending : (lines.map Line.number).Pairwise (· < ·)) :
    (rules.select lines).merged = lines.map Line.numberedContent := by
  induction lines with
  | nil => simp [Selection.merged]
  | cons line rest ih =>
      rw [List.map_cons, List.pairwise_cons] at ascending
      obtain ⟨least, ascendingRest⟩ := ascending
      have leastLine : ∀ other ∈ rest, line.number < other.number := by
        intro other member
        exact least _ (List.mem_map_of_mem member)
      specialize ih ascendingRest
      simp only [Selection.merged] at ih ⊢
      cases dropped : rules.removal? line with
      | none =>
          rw [select_cons_of_none dropped, List.map_cons, List.map_cons,
            NumberedContent.merge_cons_left, ih]
          simp only [List.mem_map, forall_exists_index, and_imp, forall_apply_eq_imp_iff₂]
          intro removal removed
          obtain ⟨other, member, reason, _, rfl⟩ := mem_removed_iff.mp removed
          exact leastLine other member
      | some removal =>
          have sameContent : removal.numberedContent = line.numberedContent := by
            obtain ⟨reason, _, rfl⟩ := removal?_eq_some_iff.mp dropped
            rfl
          rw [select_cons_of_some dropped, List.map_cons, List.map_cons, sameContent,
            NumberedContent.merge_cons_right, ih]
          simp only [List.mem_map, forall_exists_index, and_imp, forall_apply_eq_imp_iff₂]
          intro other retained
          exact leastLine other (mem_retained_iff.mp retained).1

/-- A line number that is in one of the two lists is not in the other one. -/
theorem number_not_mem_removed (rules : Rules) {lines : List Line}
    (ascending : (lines.map Line.number).Pairwise (· < ·)) {number : Nat}
    (retained : number ∈ (rules.select lines).retained.map Line.number) :
    number ∉ (rules.select lines).removed.map Removal.number := by
  intro removed
  obtain ⟨line, lineRetained, sameLine⟩ := List.mem_map.mp retained
  obtain ⟨removal, removalRemoved, sameRemoval⟩ := List.mem_map.mp removed
  obtain ⟨member, keep⟩ := mem_retained_iff.mp lineRetained
  obtain ⟨other, otherMember, reason, remove, rfl⟩ := mem_removed_iff.mp removalRemoved
  have distinct : (lines.map Line.number).Nodup := ascending.imp Nat.ne_of_lt
  have same : line = other :=
    List.inj_on_of_nodup_map distinct member otherMember (sameLine.trans sameRemoval.symm)
  rw [same, remove] at keep
  contradiction

/-- Every line puts its number into one of the two lists. -/
theorem number_mem_select_iff (rules : Rules) (lines : List Line) (number : Nat) :
    number ∈ (rules.select lines).retained.map Line.number ∨
      number ∈ (rules.select lines).removed.map Removal.number ↔
    number ∈ lines.map Line.number := by
  simp only [List.mem_map, mem_retained_iff, mem_removed_iff]
  constructor
  · intro parted
    rcases parted with ⟨line, ⟨member, _⟩, rfl⟩ | ⟨removal, ⟨line, member, reason, _, rfl⟩, rfl⟩
    · exact ⟨line, member, rfl⟩
    · exact ⟨line, member, rfl⟩
  · intro numbered
    rcases numbered with ⟨line, member, rfl⟩
    cases decided : rules.disposition line.number line.text with
    | keep => exact .inl ⟨line, ⟨member, decided⟩, rfl⟩
    | remove reason => exact .inr ⟨_, ⟨line, member, reason, decided, rfl⟩, rfl⟩

/-- No line of a file is lost, doubled or moved, whatever the rules are. -/
theorem select_split_conserves (rules : Rules) (contents : String) :
    let lines := Line.split contents
    let selection := rules.select lines
    let retained := selection.retained.map Line.number
    let removed := selection.removed.map Removal.number
    retained.Pairwise (· < ·) ∧ removed.Pairwise (· < ·) ∧
      (∀ number ∈ retained, number ∉ removed) ∧
      (∀ number, number ∈ retained ∨ number ∈ removed ↔ 1 ≤ number ∧ number ≤ lines.length) ∧
      selection.restored = contents := by
  have ascending := Line.ascending_split contents
  refine ⟨rules.ascending_retained ascending, rules.ascending_removed ascending,
    fun number => rules.number_not_mem_removed ascending, fun number => ?_, ?_⟩
  · rw [number_mem_select_iff, Line.map_number_split, List.mem_range'_1]
    omega
  · rw [Selection.restored, merged_select rules ascending, List.map_map]
    exact Line.join_content_split contents

end Rules

end LinePrune
