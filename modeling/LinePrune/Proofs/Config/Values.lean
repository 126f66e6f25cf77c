import LinePrune.Config.Decode

namespace LinePrune.Config

open Toml

theorem decodeTrigger_eq_ok_iff {value : Value} {trigger : String} :
    decodeTrigger value = .ok trigger ↔ value = .text trigger := by
  cases value <;> simp [decodeTrigger]

/-- An integer that fits a word is the same number there. -/
theorem toNat_ofNat_toNat {integer : Int} (inside : 0 ≤ integer ∧ integer < UInt64.size) :
    ((UInt64.ofNat integer.toNat).toNat : Int) = integer := by
  have below : integer.toNat < UInt64.size := by omega
  rw [UInt64.toNat_ofNat_of_lt' below]
  exact Int.toNat_of_nonneg inside.1

/-- Each position is taken from one integer only, which is the position itself. -/
theorem decodePosition_eq_ok_iff {value : Value} {position : Position} :
    decodePosition value = .ok position ↔ value = .integer position.toNat := by
  have width : integersOfWidth 64 = UInt64.size := by rfl
  have bound : position.toNat < UInt64.size := position.toNat_lt
  cases value with
  | integer number =>
      rw [decodePosition, width, Value.integer.injEq]
      split
      next inside =>
        simp only [Bool.and_eq_true, decide_eq_true_eq] at inside
        have back := toNat_ofNat_toNat inside
        rw [Except.ok.injEq, ← UInt64.toNat_inj]
        omega
      next outside =>
        simp only [Bool.and_eq_true, decide_eq_true_eq] at outside
        have other : number ≠ position.toNat := by omega
        split <;> simp [other]
  | _ => simp [decodePosition]

/-- Items that are decoded from their encodings only make a list that is so, too. -/
theorem mapM_eq_ok_iff {α : Type} {decode : Value → Except Mismatch α} {encode : α → Value}
    (exact : ∀ {value item}, decode value = .ok item ↔ value = encode item)
    {values : List Value} {items : List α} :
    values.mapM decode = .ok items ↔ values = items.map encode := by
  induction values generalizing items with
  | nil => cases items <;> simp [pure, Except.pure]
  | cons value rest ih =>
      rw [List.mapM_cons]
      cases items with
      | nil =>
          cases decode value <;> cases rest.mapM decode <;>
            simp [bind, Except.bind, pure, Except.pure]
      | cons item items =>
          rw [List.map_cons, List.cons.injEq, ← exact, ← ih]
          cases decode value <;> cases rest.mapM decode <;>
            simp [bind, Except.bind, pure, Except.pure]

theorem decodeItems_eq_ok_iff {α : Type} {decode : Value → Except Mismatch α} {encode : α → Value}
    (exact : ∀ {value item}, decode value = .ok item ↔ value = encode item)
    {value : Value} {items : List α} :
    decodeItems decode value = .ok items ↔ ∃ kind, value = .array kind (items.map encode) := by
  cases value with
  | array kind values =>
      rw [decodeItems, mapM_eq_ok_iff exact]
      simp
  | _ => simp [decodeItems]

theorem map_eq_ok_iff {α β : Type} {change : α → β} {result : Except Mismatch α} {value : β} :
    result.map change = .ok value ↔ ∃ found, result = .ok found ∧ change found = value := by
  cases result <;> simp [Except.map]

end LinePrune.Config
