import LinePrune.Proofs.Toml.Spelling
import LinePrune.Toml.Printer

namespace LinePrune.Toml

theorem items?_close {fuel : Nat} {chars rest : List Char}
    (closes : skipFiller false chars = ']' :: rest) :
    items? (fuel + 1) chars = some ([], rest) := by
  rw [items?, closes]
  rfl

section Items

variable {fuel : Nat} {chars text rest : List Char} {value : Value}

/-- The reader takes one item up to the comma behind it. -/
theorem items?_comma (spells : Spells text value) (enough : text.length < fuel)
    (reaches : skipFiller false chars = text ++ ',' :: rest) :
    items? (fuel + 1) chars =
      (items? fuel rest).map fun result => (value :: result.1, result.2) := by
  rw [items?, reaches]
  split
  next closes => exact absurd closes (spells.append_ne_bracket _ _)
  next =>
    rw [spells.reads fuel _ enough delimited_comma]
    change (items? fuel rest).bind (fun result => some (value :: result.1, result.2)) = _
    cases items? fuel rest <;> rfl

/-- The reader takes the last item up to the closing bracket. -/
theorem items?_last (spells : Spells text value) (enough : text.length < fuel)
    (reaches : skipFiller false chars = text ++ ']' :: rest) :
    items? (fuel + 1) chars = some ([value], rest) := by
  rw [items?, reaches]
  split
  next closes => exact absurd closes (spells.append_ne_bracket _ _)
  next =>
    rw [spells.reads fuel _ enough delimited_bracket]
    rfl

end Items

/-- Every layout ends with the closing bracket. -/
theorem writeArray_closed (items : List String) : ∃ body, writeArray items = body ++ "]" := by
  match items with
  | [] => exact ⟨"[", rfl⟩
  | [item] => exact ⟨"[" ++ item, rfl⟩
  | first :: second :: items => exact ⟨_, rfl⟩

/-- Blanks and line feeds fill a gap. -/
def IsGap (gap : List Char) : Prop :=
  (gap.all fun c => isBlank c || c = '\n') = true

instance (gap : List Char) : Decidable (IsGap gap) :=
  inferInstanceAs (Decidable (_ = true))

/-- The text behind an opening bracket lays out items when they stand in it in their order, each
with a comma right behind it. A gap may precede each item and the closing bracket, and the last item
may do without its comma. -/
inductive LaysOutItems {α : Type} (spell : α → String) : List α → List Char → Prop where
  | close {gap : List Char} (isGap : IsGap gap) : LaysOutItems spell [] (gap ++ [']'])
  | last {gap : List Char} {item : α} (isGap : IsGap gap) :
      LaysOutItems spell [item] (gap ++ ((spell item).toList ++ [']']))
  | comma {gap rest : List Char} {item : α} {items : List α} (isGap : IsGap gap)
      (others : LaysOutItems spell items rest) :
      LaysOutItems spell (item :: items) (gap ++ ((spell item).toList ++ ',' :: rest))

/-- An item on a line of its own is indented, and a comma follows it. -/
def itemLine (text : List Char) : List Char :=
  [' ', ' ', ' ', ' '] ++ text ++ [',', '\n']

/-- A gap is filler. -/
theorem skipFiller_gap {gap : List Char} (isGap : IsGap gap) (behind : List Char) :
    skipFiller false (gap ++ behind) = skipFiller false behind := by
  induction gap with
  | nil => rfl
  | cons c gap ih =>
      rw [IsGap, List.all_cons, Bool.and_eq_true] at isGap
      obtain ⟨first, others⟩ := isGap
      have noComment : c ≠ '#' := by
        rintro rfl
        contradiction
      rw [List.cons_append, skipFiller, if_neg noComment, if_pos first, ih others]

section Arrays

variable {α : Type} {spell : α → String} {value : α → Value} {items : List α}

/-- The induction is on the layout. Each comma leaves the gap that precedes the next item. -/
theorem items?_laysOutItems {chars : List Char} (laysOut : LaysOutItems spell items chars)
    (spelled : ∀ item ∈ items, Spells (spell item).toList (value item)) {fuel : Nat}
    (enough : chars.length < fuel) (rest : List Char) :
    items? fuel (chars ++ rest) = some (items.map value, rest) := by
  induction laysOut generalizing fuel with
  | close isGap =>
      cases fuel with
      | zero => omega
      | succ fuel =>
          refine items?_close ?_
          rw [List.append_assoc, skipFiller_gap isGap]
          rfl
  | @last gap item isGap =>
      cases fuel with
      | zero => omega
      | succ fuel =>
          have spells := spelled item List.mem_cons_self
          simp only [List.length_append, List.length_singleton] at enough
          refine items?_last spells (by omega) ?_
          rw [List.append_assoc, skipFiller_gap isGap, List.append_assoc, spells.skipFiller_append]
          rfl
  | @comma gap behind item items isGap others ih =>
      cases fuel with
      | zero => omega
      | succ fuel =>
          have spells := spelled item List.mem_cons_self
          simp only [List.length_append, List.length_cons] at enough
          have reaches : skipFiller false (gap ++ ((spell item).toList ++ ',' :: behind) ++ rest) =
              (spell item).toList ++ ',' :: (behind ++ rest) := by
            rw [List.append_assoc, skipFiller_gap isGap, List.append_assoc,
              spells.skipFiller_append]
            rfl
          rw [items?_comma spells (by omega) reaches,
            ih (fun other member => spelled other (List.mem_cons_of_mem item member)) (by omega)]
          rfl

/-- Laid out items are read between brackets. -/
theorem spells_laysOutItems {chars : List Char} (laysOut : LaysOutItems spell items chars)
    (spelled : ∀ item ∈ items, Spells (spell item).toList (value item)) :
    Spells ('[' :: chars) (.array .listed (items.map value)) where
  opens := ⟨'[', chars, rfl, by decide⟩
  reads fuel rest enough _ := by
    cases fuel with
    | zero => omega
    | succ fuel =>
        simp only [List.length_cons] at enough
        rw [List.cons_append, value?, items?_laysOutItems laysOut spelled (by omega) rest]
        rfl

/-- The line feed of each line precedes the item of the next one. -/
theorem laysOutItems_lines (items : List α) :
    LaysOutItems spell items
      ('\n' :: ((items.flatMap fun item => itemLine (spell item).toList) ++ [']'])) := by
  have feed : IsGap ['\n'] := by decide
  have indented : IsGap ['\n', ' ', ' ', ' ', ' '] := by decide
  induction items with
  | nil => exact .close feed
  | cons item items ih =>
      have line : LaysOutItems spell (item :: items) _ := .comma indented ih
      simpa [itemLine] using line

/-- The writer's layout depends on the number of items. -/
theorem exists_laysOutItems_writeArray (spell : α → String) (items : List α) :
    ∃ chars, (writeArray (items.map spell)).toList = '[' :: chars ∧
      LaysOutItems spell items chars := by
  have noGap : IsGap [] := by decide
  match items with
  | [] =>
      refine ⟨[] ++ [']'], ?_, .close noGap⟩
      simp [writeArray]
  | [item] =>
      refine ⟨[] ++ ((spell item).toList ++ [']']), ?_, .last noGap⟩
      simp [writeArray]
  | first :: second :: items =>
      refine ⟨_, ?_, laysOutItems_lines (first :: second :: items)⟩
      simp [writeArray, itemLine, String.toList_join, List.flatMap_map]

theorem spells_writeArray (spelled : ∀ item ∈ items, Spells (spell item).toList (value item)) :
    Spells (writeArray (items.map spell)).toList (.array .listed (items.map value)) := by
  obtain ⟨chars, written, laysOut⟩ := exists_laysOutItems_writeArray spell items
  rw [written]
  exact spells_laysOutItems laysOut spelled

end Arrays

end LinePrune.Toml
