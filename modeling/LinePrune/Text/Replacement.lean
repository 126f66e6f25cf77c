namespace LinePrune.Text

/-- The search goes from left to right, and on behind each part that it has found. An empty part is
left alone. -/
def replaceIn (part other : List Char) : List Char → List Char
  | [] => []
  | c :: rest =>
      if _ : part ≠ [] ∧ part.isPrefixOf (c :: rest) then
        other ++ replaceIn part other ((c :: rest).drop part.length)
      else c :: replaceIn part other rest
termination_by text => text.length
decreasing_by
  · next found =>
      have filled : 0 < part.length := List.length_pos_iff.mpr found.1
      simp only [List.length_drop, List.length_cons]
      omega
  · simp

/-- This replaces every occurrence of a part that does not overlap with one further left. -/
def replace (text part other : String) : String :=
  String.ofList (replaceIn part.toList other.toList text.toList)

@[simp] theorem toList_replace (text part other : String) :
    (replace text part other).toList = replaceIn part.toList other.toList text.toList :=
  String.toList_ofList

variable {part other : List Char}

@[simp] theorem replaceIn_nil : replaceIn part other [] = [] := by
  rw [replaceIn]

theorem replaceIn_append_of_filled (filled : part ≠ []) (rest : List Char) :
    replaceIn part other (part ++ rest) = other ++ replaceIn part other rest := by
  cases part with
  | nil => contradiction
  | cons c others =>
      rw [List.cons_append, replaceIn, dif_pos, ← List.cons_append, List.drop_left]
      exact ⟨filled, List.isPrefixOf_iff_prefix.mpr (List.prefix_append (c :: others) rest)⟩

theorem replaceIn_cons_of_absent {c : Char} {rest : List Char} (other : List Char)
    (absent : ¬ part <+: c :: rest) :
    replaceIn part other (c :: rest) = c :: replaceIn part other rest := by
  rw [replaceIn, dif_neg]
  exact fun found => absent (List.isPrefixOf_iff_prefix.mp found.2)

/-- Where there is no such part, nothing is replaced. -/
theorem replaceIn_of_not_infix {text : List Char} (other : List Char) (absent : ¬ part <:+: text) :
    replaceIn part other text = text := by
  induction text with
  | nil => rw [replaceIn_nil]
  | cons c rest ih =>
      rw [List.infix_cons_iff, not_or] at absent
      rw [replaceIn_cons_of_absent other absent.1, ih absent.2]

theorem replace_of_not_infix {text part : String} (other : String)
    (absent : ¬ part.toList <:+: text.toList) : replace text part other = text := by
  rw [replace, replaceIn_of_not_infix _ absent, String.ofList_toList]

/-- A part of one character overlaps with nothing. -/
theorem replaceIn_singleton (mark : Char) (other text : List Char) :
    replaceIn [mark] other text = text.flatMap fun c => if c = mark then other else [c] := by
  induction text with
  | nil => rw [replaceIn_nil, List.flatMap_nil]
  | cons c rest ih =>
      rw [List.flatMap_cons, ← ih]
      by_cases marked : c = mark
      · rw [if_pos marked, marked]
        exact replaceIn_append_of_filled (List.cons_ne_nil _ _) rest
      · rw [if_neg marked, replaceIn_cons_of_absent, List.singleton_append]
        simpa [List.cons_prefix_cons] using Ne.symm marked

/-- A replaced character is gone unless its replacement brings it back. -/
theorem not_mem_replaceIn_singleton {mark : Char} (gone : mark ∉ other) (text : List Char) :
    mark ∉ replaceIn [mark] other text := by
  rw [replaceIn_singleton, List.mem_flatMap]
  rintro ⟨c, _, member⟩
  split at member
  · exact gone member
  next different => exact different (List.mem_singleton.mp member).symm

end LinePrune.Text
