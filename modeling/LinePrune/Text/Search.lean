namespace LinePrune.Text

/-- The search tries every position, so overlapping candidates are not missed. -/
def occursIn (part : List Char) : List Char → Bool
  | [] => part.isEmpty
  | c :: rest => part.isPrefixOf (c :: rest) || occursIn part rest

theorem occursIn_iff (part text : List Char) : occursIn part text = true ↔ part <:+: text := by
  induction text with
  | nil => simp [occursIn]
  | cons c rest ih => simp [occursIn, List.infix_cons_iff, ih]

/-- A string contains a part when its characters hold those of the part side by side. -/
def contains (text part : String) : Bool :=
  occursIn part.toList text.toList

theorem contains_iff (text part : String) :
    contains text part = true ↔ part.toList <:+: text.toList :=
  occursIn_iff _ _

/-- A text holds a part when the part stands between two texts that make up the rest. -/
def Holds (text part : String) : Prop :=
  ∃ before after, text = before ++ part ++ after

/-- The search misses no occurrence and reports none that is not there. -/
theorem contains_iff_holds {text part : String} : contains text part = true ↔ Holds text part := by
  rw [contains_iff]
  constructor
  · rintro ⟨before, after, whole⟩
    refine ⟨String.ofList before, String.ofList after, String.toList_injective ?_⟩
    simp [← whole]
  · rintro ⟨before, after, rfl⟩
    exact ⟨before.toList, after.toList, by simp⟩

theorem holds_iff_isInfix {text part : String} :
    Holds text part ↔ part.toList <:+: text.toList := by
  rw [← contains_iff_holds, contains_iff]

/-- A part of a part is a part. -/
theorem Holds.trans {text part inner : String} (outside : Holds text part)
    (inside : Holds part inner) : Holds text inner := by
  rw [holds_iff_isInfix] at outside inside ⊢
  exact inside.trans outside

theorem holds_refl (text : String) : Holds text text :=
  holds_iff_isInfix.mpr List.infix_rfl

theorem holds_append_left (front back : String) : Holds (front ++ back) front :=
  ⟨"", back, by simp⟩

theorem holds_append_right (front back : String) : Holds (front ++ back) back :=
  ⟨front, "", by simp⟩

instance (text part : String) : Decidable (Holds text part) :=
  decidable_of_iff _ contains_iff_holds

end LinePrune.Text
