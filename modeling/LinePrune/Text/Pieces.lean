namespace LinePrune

/-- This puts one more part in front of the first piece. -/
def consFirst {α : Type} (part : α) : List (List α) → List (List α)
  | [] => [[part]]
  | piece :: rest => (part :: piece) :: rest

variable {α : Type}

@[simp] theorem flatten_consFirst (part : α) (pieces : List (List α)) :
    (consFirst part pieces).flatten = part :: pieces.flatten := by
  cases pieces <;> rfl

theorem length_consFirst (part : α) (pieces : List (List α)) :
    (consFirst part pieces).length = max 1 pieces.length := by
  cases pieces <;> simp [consFirst]

theorem consFirst_append (part : α) {first : List (List α)} (others : List (List α))
    (more : first ≠ []) : consFirst part (first ++ others) = consFirst part first ++ others := by
  cases first with
  | nil => contradiction
  | cons piece rest => rfl

end LinePrune
