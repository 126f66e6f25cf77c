import LinePrune.Rules
import Mathlib.Data.List.Count
import Mathlib.Data.List.Sort

namespace LinePrune

/-- The common positions of two sets, in ascending order. -/
theorem Positions.eq_overlap_iff {first second : Positions} {positions : List Position} :
    positions = first.overlap second ↔ positions.Pairwise (· < ·) ∧
      ∀ position, position ∈ positions ↔
        position ∈ first.members ∧ position ∈ second.members := by
  have ascending : (first.overlap second).Pairwise (· < ·) :=
    first.ascending.sublist List.filter_sublist
  have mem_iff (position : Position) : position ∈ first.overlap second ↔
      position ∈ first.members ∧ position ∈ second.members := by
    simp [overlap]
  constructor
  · rintro rfl
    exact ⟨ascending, mem_iff⟩
  · rintro ⟨otherAscending, same⟩
    have : Std.Irrefl fun lower upper : Position => lower < upper := ⟨UInt64.lt_irrefl⟩
    have : Std.Antisymm fun lower upper : Position => lower < upper :=
      ⟨fun _ _ less greater => absurd greater (UInt64.lt_asymm less)⟩
    refine otherAscending.eq_of_mem_iff ascending fun position => ?_
    rw [same, mem_iff]

namespace Rules

/-- A faulty trigger is empty or holds a terminator character. -/
def IsFaulty (trigger : String) : Prop :=
  trigger = "" ∨ '\n' ∈ trigger.toList ∨ '\r' ∈ trigger.toList

instance (trigger : String) : Decidable (IsFaulty trigger) :=
  inferInstanceAs (Decidable (_ ∨ _))

namespace Defect

/-- Defects of a lower rank are listed ahead of those of a higher one. -/
def rank : Defect → Nat
  | .zeroConditional => 0
  | .zeroUnconditional => 1
  | .overlap _ => 2
  | .emptyTrigger => 3
  | .terminatorInTrigger _ => 3
  | .missingTrigger => 4

def position? : Defect → Option Position
  | .overlap position => some position
  | _ => none

/-- The defect that a faulty trigger is reported as. -/
def ofTrigger (trigger : String) : Defect :=
  if trigger = "" then .emptyTrigger else .terminatorInTrigger trigger

theorem rank_ofTrigger (trigger : String) : (ofTrigger trigger).rank = 3 := by
  rw [ofTrigger]
  split <;> rfl

end Defect

/-- A list enumerates the defects of rules when it has one entry for each of them: for a zero in
either set, for each common position, for each faulty trigger as often as it is listed, and for
conditional positions without any trigger. -/
structure Enumerates (rules : Rules) (listed : List Defect) : Prop where
  ranked : (listed.map Defect.rank).Pairwise (· ≤ ·)
  zeroConditional :
    listed.count .zeroConditional = if rules.conditional.contains 0 then 1 else 0
  zeroUnconditional :
    listed.count .zeroUnconditional = if rules.unconditional.contains 0 then 1 else 0
  ascending : (listed.filterMap Defect.position?).Pairwise (· < ·)
  overlap_iff : ∀ position, position ∈ listed.filterMap Defect.position? ↔
    position ∈ rules.conditional.members ∧ position ∈ rules.unconditional.members
  triggers : listed.filter (fun defect => defect.rank = 3) =
    (rules.triggers.filter fun trigger => IsFaulty trigger).map Defect.ofTrigger
  missingTrigger : listed.count .missingTrigger =
    if rules.conditional.members ≠ [] ∧ rules.triggers = [] then 1 else 0

section Ranks

/-- The defects of one rank. -/
def defectsOfRank (rules : Rules) : Nat → List Defect
  | 0 => if rules.conditional.contains 0 then [.zeroConditional] else []
  | 1 => if rules.unconditional.contains 0 then [.zeroUnconditional] else []
  | 2 => (rules.conditional.overlap rules.unconditional).map .overlap
  | 3 => (rules.triggers.filter fun trigger => IsFaulty trigger).map Defect.ofTrigger
  | 4 => if rules.conditional.members ≠ [] ∧ rules.triggers = [] then [.missingTrigger] else []
  | _ => []

theorem triggerDefect?_eq (trigger : String) :
    triggerDefect? trigger =
      if IsFaulty trigger then some (Defect.ofTrigger trigger) else none := by
  by_cases empty : trigger = ""
  · simp [triggerDefect?, IsFaulty, Defect.ofTrigger, empty]
  · simp [triggerDefect?, IsFaulty, Defect.ofTrigger, empty, hasTerminator, and_or_left, exists_or]

theorem filterMap_triggerDefect? (triggers : List String) :
    triggers.filterMap triggerDefect? =
      (triggers.filter fun trigger => IsFaulty trigger).map Defect.ofTrigger := by
  rw [funext triggerDefect?_eq, ← List.filterMap_eq_map, List.filterMap_filter]
  simp

theorem defects_eq_flatMap (rules : Rules) :
    rules.defects = [0, 1, 2, 3, 4].flatMap rules.defectsOfRank := by
  simp [defects, defectsOfRank, filterMap_triggerDefect?]

variable {rules : Rules} {rank : Nat} {defect : Defect}

theorem rank_of_mem_defectsOfRank (member : defect ∈ rules.defectsOfRank rank) :
    defect.rank = rank := by
  match rank with
  | 0 =>
      simp only [defectsOfRank, List.mem_ite_nil_right, List.mem_singleton] at member
      rw [member.2, Defect.rank]
  | 1 =>
      simp only [defectsOfRank, List.mem_ite_nil_right, List.mem_singleton] at member
      rw [member.2, Defect.rank]
  | 2 =>
      obtain ⟨position, _, rfl⟩ := List.mem_map.mp member
      rfl
  | 3 =>
      obtain ⟨trigger, _, rfl⟩ := List.mem_map.mp member
      exact Defect.rank_ofTrigger trigger
  | 4 =>
      simp only [defectsOfRank, List.mem_ite_nil_right, List.mem_singleton] at member
      rw [member.2, Defect.rank]
  | rank + 5 => simp [defectsOfRank] at member

theorem filter_rank_defectsOfRank (rules : Rules) (rank other : Nat) :
    (rules.defectsOfRank other).filter (fun defect => defect.rank = rank) =
      if other = rank then rules.defectsOfRank rank else [] := by
  split
  next same =>
    subst same
    refine List.filter_eq_self.mpr fun defect member => ?_
    rw [rank_of_mem_defectsOfRank member, decide_eq_true rfl]
  next different =>
    refine List.filter_eq_nil_iff.mpr fun defect member => ?_
    rwa [rank_of_mem_defectsOfRank member, decide_eq_true_eq]

/-- The defects of one rank are found again among all of them. -/
theorem filter_rank_defects (rules : Rules) (rank : Nat) :
    rules.defects.filter (fun defect => defect.rank = rank) = rules.defectsOfRank rank := by
  rw [defects_eq_flatMap, List.filter_flatMap]
  simp only [filter_rank_defectsOfRank]
  rcases rank with _ | _ | _ | _ | _ | rank
  case succ.succ.succ.succ.succ => rfl
  all_goals simp

theorem ranked_defects (rules : Rules) : (rules.defects.map Defect.rank).Pairwise (· ≤ ·) := by
  rw [defects_eq_flatMap, List.pairwise_map, List.pairwise_flatMap]
  constructor
  · intro rank _
    refine List.pairwise_of_forall_mem_list fun first member second otherMember => ?_
    rw [rank_of_mem_defectsOfRank member, rank_of_mem_defectsOfRank otherMember]
  · have ascending : [0, 1, 2, 3, 4].Pairwise (· ≤ ·) := by decide
    refine ascending.imp fun {lower upper} below first member second otherMember => ?_
    rwa [rank_of_mem_defectsOfRank member, rank_of_mem_defectsOfRank otherMember]

end Ranks

section Uniqueness

variable {first second : List Defect}

theorem rank_head_le {head defect : Defect} {rest : List Defect}
    (ranked : ((head :: rest).map Defect.rank).Pairwise (· ≤ ·))
    (member : defect ∈ head :: rest) : head.rank ≤ defect.rank := by
  rw [List.map_cons, List.pairwise_cons] at ranked
  rcases List.mem_cons.mp member with rfl | behind
  · exact Nat.le_refl _
  · exact ranked.1 _ (List.mem_map_of_mem behind)

theorem mem_of_filter_rank_eq
    (same : ∀ rank, first.filter (fun defect => defect.rank = rank) =
      second.filter fun defect => defect.rank = rank)
    {defect : Defect} (member : defect ∈ first) : defect ∈ second := by
  have found : defect ∈ first.filter fun other => other.rank = defect.rank := by simp [member]
  rw [same] at found
  exact List.mem_of_mem_filter found

/-- Ranked lists with the same entries of every rank are equal. Each of the two heads has the least
rank of its list, so they are the first entries of one rank. -/
theorem eq_of_filter_rank (firstRanked : (first.map Defect.rank).Pairwise (· ≤ ·))
    (secondRanked : (second.map Defect.rank).Pairwise (· ≤ ·))
    (same : ∀ rank, first.filter (fun defect => defect.rank = rank) =
      second.filter fun defect => defect.rank = rank) : first = second := by
  induction first generalizing second with
  | nil =>
      cases second with
      | nil => rfl
      | cons other others => simpa using same other.rank
  | cons defect rest ih =>
      cases second with
      | nil => simpa using same defect.rank
      | cons other others =>
          have below : defect.rank ≤ other.rank := rank_head_le firstRanked
            (mem_of_filter_rank_eq (fun rank => (same rank).symm) List.mem_cons_self)
          have above : other.rank ≤ defect.rank := rank_head_le secondRanked
            (mem_of_filter_rank_eq same List.mem_cons_self)
          have level := Nat.le_antisymm below above
          have heads := same other.rank
          simp only [level, decide_true, List.filter_cons_of_pos, List.cons.injEq] at heads
          obtain ⟨rfl, _⟩ := heads
          rw [List.map_cons, List.pairwise_cons] at firstRanked secondRanked
          rw [ih firstRanked.2 secondRanked.2 fun rank => ?_]
          have tails := same rank
          by_cases here : defect.rank = rank <;> simpa [here] using tails

end Uniqueness

section Entries

variable {listed : List Defect}

/-- A defect that has its rank for itself is listed as often as it is counted. -/
theorem filter_rank_eq_ite_iff (single : Defect)
    (only : ∀ defect : Defect, defect.rank = single.rank ↔ defect = single) {condition : Prop}
    [Decidable condition] :
    listed.filter (fun defect => defect.rank = single.rank) =
        (if condition then [single] else []) ↔
      listed.count single = if condition then 1 else 0 := by
  have counted : listed.filter (fun defect => defect.rank = single.rank) =
      List.replicate (listed.count single) single := by
    rw [← List.filter_eq]
    exact List.filter_congr fun defect _ => decide_eq_decide.mpr (only defect)
  have once : [single] = List.replicate 1 single := rfl
  rw [counted]
  split
  · simp only [once, List.replicate_inj, or_true, and_true]
  · exact List.replicate_eq_nil_iff single

theorem filter_rank_overlap (listed : List Defect) :
    listed.filter (fun defect => defect.rank = 2) =
      (listed.filterMap Defect.position?).map .overlap := by
  rw [List.map_filterMap, ← List.filterMap_eq_filter]
  refine List.filterMap_congr fun defect _ => ?_
  cases defect <;> rfl

theorem filter_rank_overlap_iff {rules : Rules} :
    listed.filter (fun defect => defect.rank = 2) = rules.defectsOfRank 2 ↔
      (listed.filterMap Defect.position?).Pairwise (· < ·) ∧
        ∀ position, position ∈ listed.filterMap Defect.position? ↔
          position ∈ rules.conditional.members ∧ position ∈ rules.unconditional.members := by
  rw [filter_rank_overlap, defectsOfRank, List.map_inj_right fun _ _ => Defect.overlap.inj]
  exact Positions.eq_overlap_iff

/-- A ranked list enumerates the defects when its entries of each rank are those of that rank. -/
theorem enumerates_iff {rules : Rules} :
    rules.Enumerates listed ↔ (listed.map Defect.rank).Pairwise (· ≤ ·) ∧
      ∀ rank, listed.filter (fun defect => defect.rank = rank) = rules.defectsOfRank rank := by
  have zeroConditional :
      listed.filter (fun defect => defect.rank = 0) = rules.defectsOfRank 0 ↔ _ :=
    filter_rank_eq_ite_iff .zeroConditional fun defect => by
      cases defect <;> simp [Defect.rank]
  have zeroUnconditional :
      listed.filter (fun defect => defect.rank = 1) = rules.defectsOfRank 1 ↔ _ :=
    filter_rank_eq_ite_iff .zeroUnconditional fun defect => by
      cases defect <;> simp [Defect.rank]
  have missingTrigger :
      listed.filter (fun defect => defect.rank = 4) = rules.defectsOfRank 4 ↔ _ :=
    filter_rank_eq_ite_iff .missingTrigger fun defect => by
      cases defect <;> simp [Defect.rank]
  constructor
  · intro enumerates
    refine ⟨enumerates.ranked, fun rank => ?_⟩
    match rank with
    | 0 => exact zeroConditional.mpr enumerates.zeroConditional
    | 1 => exact zeroUnconditional.mpr enumerates.zeroUnconditional
    | 2 => exact filter_rank_overlap_iff.mpr ⟨enumerates.ascending, enumerates.overlap_iff⟩
    | 3 => exact enumerates.triggers
    | 4 => exact missingTrigger.mpr enumerates.missingTrigger
    | rank + 5 =>
        refine List.filter_eq_nil_iff.mpr fun defect _ => ?_
        cases defect <;> simp [Defect.rank]
  · rintro ⟨ranked, same⟩
    obtain ⟨ascending, overlap_iff⟩ := filter_rank_overlap_iff.mp (same 2)
    exact {
      ranked := ranked
      zeroConditional := zeroConditional.mp (same 0)
      zeroUnconditional := zeroUnconditional.mp (same 1)
      ascending := ascending
      overlap_iff := overlap_iff
      triggers := same 3
      missingTrigger := missingTrigger.mp (same 4) }

/-- The defects of rules are the only enumeration of them. -/
theorem enumerates_iff_eq_defects {rules : Rules} :
    rules.Enumerates listed ↔ listed = rules.defects := by
  rw [enumerates_iff]
  constructor
  · rintro ⟨ranked, same⟩
    refine eq_of_filter_rank ranked rules.ranked_defects fun rank => ?_
    rw [same, filter_rank_defects]
  · rintro rfl
    exact ⟨rules.ranked_defects, rules.filter_rank_defects⟩

end Entries

end Rules

end LinePrune
