import LinePrune.Proofs.Toml.SpelledInteger

namespace LinePrune.Toml

/-- One more digit stands behind the others and weighs least. -/
theorem Grouped.concat {base digit : Nat} {c : Char} {chars : List Char} {digits : List Nat}
    (grouped : Grouped base chars digits) (isDigit : IsDigit base c digit) :
    Grouped base (chars ++ [c]) (digits ++ [digit]) := by
  induction grouped with
  | last isFirst => exact .next isFirst (.last isDigit)
  | next isFirst others ih => exact .next isFirst ih
  | parted isFirst others ih => exact .parted isFirst ih

/-- The induction takes away the last digit. What is left is positive, so it has no leading zero. -/
theorem spellsMagnitude_toDigits (number : Nat) :
    SpellsMagnitude (Nat.toDigits 10 number) number := by
  induction number using Nat.base_induction 10 (by decide) with
  | single number small =>
      rw [Nat.toDigits_of_lt_base small]
      exact ⟨[number], .last ⟨small, .inl rfl⟩, by simp [Classical.em], by simp⟩
  | digit leading last small positive ih =>
      obtain ⟨digits, grouped, unled, value⟩ := ih
      rw [← Nat.toDigits_append_toDigits (by decide) positive small, Nat.toDigits_of_lt_base small]
      refine ⟨digits ++ [last], grouped.concat ⟨small, .inl rfl⟩, .inr ?_, ?_⟩
      · rcases unled with rfl | unled
        · simp at value
          omega
        · obtain ⟨-, first, -, others, -, rfl, -⟩ := grouped.exists_cons
          exact unled
      · rw [List.reverse_append, List.reverse_singleton, List.singleton_append, Nat.ofDigits_cons,
          ← value]
        omega

/-- The writer has one of the spellings. -/
theorem spellsInteger_toString (number : Nat) :
    SpellsInteger (toString number).toList number := by
  rw [Nat.toString_eq_ofList_toDigits, String.toList_ofList]
  exact .unsigned (spellsMagnitude_toDigits number)

theorem spells_toString (number : Nat) : Spells (toString number).toList (.integer number) :=
  (spellsInteger_toString number).spells

end LinePrune.Toml
