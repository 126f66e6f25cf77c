/-
This file keeps a set of positions as an ascending list, so equal sets are equal lists.
-/

namespace LinePrune

/-- A position is a 64-bit word, so no larger number is ever taken for one. -/
abbrev Position := UInt64

/-- A position set lists each of its members once, in ascending order. -/
structure Positions where
  members : List Position
  ascending : members.Pairwise (· < ·)
  deriving DecidableEq, Repr

namespace Positions

def insertMember (position : Position) : List Position → List Position
  | [] => [position]
  | first :: rest =>
      if position < first then position :: first :: rest
      else if position = first then first :: rest
      else first :: insertMember position rest

theorem mem_insertMember {position other : Position} {members : List Position} :
    other ∈ insertMember position members ↔ other = position ∨ other ∈ members := by
  induction members with
  | nil => simp [insertMember]
  | cons first rest ih =>
      simp only [insertMember]
      split
      · simp
      · split
        · simp_all
        · simp [ih, or_left_comm]

theorem pairwise_insertMember {position : Position} {members : List Position}
    (ascending : members.Pairwise (· < ·)) :
    (insertMember position members).Pairwise (· < ·) := by
  induction members with
  | nil => simp [insertMember]
  | cons first rest ih =>
      simp only [List.pairwise_cons] at ascending
      simp only [insertMember]
      split
      next below =>
        simp only [List.pairwise_cons, List.mem_cons, forall_eq_or_imp]
        exact ⟨⟨below, fun other member => UInt64.lt_trans below (ascending.1 other member)⟩,
          ascending⟩
      next notBelow =>
        split
        · simpa using ascending
        next different =>
          simp only [List.pairwise_cons, mem_insertMember]
          refine ⟨?_, ih ascending.2⟩
          rintro other (rfl | member)
          · exact UInt64.lt_of_le_of_ne (UInt64.not_lt.mp notBelow) (Ne.symm different)
          · exact ascending.1 other member

def empty : Positions := ⟨[], .nil⟩

def insert (positions : Positions) (position : Position) : Positions :=
  ⟨insertMember position positions.members, pairwise_insertMember positions.ascending⟩

/-- The order and the repetitions of the list leave no trace. -/
def ofList (members : List Position) : Positions :=
  members.foldl insert empty

/-- A line number that no word can hold is in no set. -/
def contains (positions : Positions) (number : Nat) : Bool :=
  positions.members.any fun position => position.toNat == number

/-- The common members of two sets come in ascending order. -/
def overlap (first second : Positions) : List Position :=
  first.members.filter fun position => second.members.contains position

theorem mem_insert {positions : Positions} {position other : Position} :
    other ∈ (positions.insert position).members ↔
      other = position ∨ other ∈ positions.members :=
  mem_insertMember

theorem mem_foldl_insert {members : List Position} {positions : Positions} {other : Position} :
    other ∈ (members.foldl insert positions).members ↔
      other ∈ members ∨ other ∈ positions.members := by
  induction members generalizing positions with
  | nil => simp
  | cons first rest ih => simp [ih, mem_insert, or_assoc, or_left_comm]

@[simp] theorem mem_ofList {members : List Position} {other : Position} :
    other ∈ (ofList members).members ↔ other ∈ members := by
  simp [ofList, mem_foldl_insert, empty]

theorem contains_iff {positions : Positions} {number : Nat} :
    positions.contains number = true ↔ ∃ position ∈ positions.members, position.toNat = number := by
  simp [contains]

/-- A set is known by its members. -/
theorem eq_of_mem_iff {first second : Positions}
    (same : ∀ position, position ∈ first.members ↔ position ∈ second.members) :
    first = second := by
  have distinct (positions : Positions) : positions.members.Nodup :=
    positions.ascending.imp UInt64.ne_of_lt
  have permuted : first.members.Perm second.members :=
    (List.perm_ext_iff_of_nodup (distinct first) (distinct second)).mpr same
  have members : first.members = second.members :=
    permuted.eq_of_pairwise (fun _ _ _ _ less greater => absurd greater (UInt64.lt_asymm less))
      first.ascending second.ascending
  cases first
  cases second
  simpa using members

/-- Two sets without common members have no line number in common. -/
theorem overlap_eq_nil_iff {first second : Positions} :
    first.overlap second = [] ↔
      ∀ number, first.contains number = true → second.contains number = false := by
  simp only [overlap, List.filter_eq_nil_iff, List.contains_iff_mem, contains_iff,
    Bool.eq_false_iff, Ne]
  constructor
  · rintro apart number ⟨position, member, rfl⟩ ⟨other, otherMember, same⟩
    exact apart position member (UInt64.toNat_inj.mp same ▸ otherMember)
  · intro apart position member otherMember
    exact apart position.toNat ⟨position, member, rfl⟩ ⟨position, otherMember, rfl⟩

end Positions

end LinePrune
