import LinePrune.Proofs.Toml.OrderedKeys

namespace LinePrune.Toml

theorem Members.put_put (members : Members) (key : String) (first second : Value) :
    (members.put key first).put key second = members.put key second := by
  induction members with
  | nil => simp [put]
  | cons member members ih =>
      simp only [put]
      split
      next => simp [put]
      next notBefore =>
        split
        next => simp [put]
        next other => simp [put, notBefore, other, ih]

/-- The fields are put into the table one after another. -/
def Members.putAll (members : Members) (fields : List (String × Value)) : Members :=
  fields.foldl (fun members field => members.put field.1 field.2) members

theorem Members.get?_putAll_of_not_mem {members : Members} {fields : List (String × Value)}
    {key : String} (absent : key ∉ fields.map Prod.fst) :
    (members.putAll fields).get? key = members.get? key := by
  induction fields generalizing members with
  | nil => rfl
  | cons field fields ih =>
      rw [List.map_cons, List.mem_cons, not_or] at absent
      rw [putAll, List.foldl_cons, ← putAll, ih absent.2, get?_put, if_neg absent.1]

/-- No later field has the key of an earlier one. -/
theorem Members.get?_putAll_of_mem {members : Members} {fields : List (String × Value)}
    (distinct : (fields.map Prod.fst).Nodup) {field : String × Value} (member : field ∈ fields) :
    (members.putAll fields).get? field.1 = some field.2 := by
  induction fields generalizing members with
  | nil => contradiction
  | cons first fields ih =>
      rw [List.map_cons, List.nodup_cons] at distinct
      rw [putAll, List.foldl_cons, ← putAll]
      rcases List.mem_cons.mp member with rfl | later
      · rw [get?_putAll_of_not_mem distinct.1, get?_put, if_pos rfl]
      · exact ih distinct.2 later

/-- Every member comes from a field or was there before. -/
theorem Members.mem_putAll {members : Members} {fields : List (String × Value)}
    {member : String × Value} (listed : member ∈ members.putAll fields) :
    member ∈ fields ∨ member ∈ members := by
  induction fields generalizing members with
  | nil => exact .inr listed
  | cons field fields ih =>
      rw [putAll, List.foldl_cons, ← putAll] at listed
      rcases ih listed with later | before
      · exact .inl (List.mem_cons_of_mem field later)
      · rcases mem_put before with rfl | old
        · exact .inl List.mem_cons_self
        · exact .inr old

/-- Each field becomes an assignment to a bare key. -/
def assignments (fields : List (String × Value)) : List Statement :=
  fields.map fun field => .assign [] field.1 field.2

/-- Fields are new when no two of them, and none of the members there are, have the same key. -/
structure AreNew (members : Members) (fields : List (String × Value)) : Prop where
  apart : ∀ field ∈ fields, members.get? field.1 = none
  distinct : (fields.map Prod.fst).Nodup

/-- After the first field the others are still new. -/
theorem AreNew.put {members : Members} {field : String × Value} {fields : List (String × Value)}
    (areNew : AreNew members (field :: fields)) :
    AreNew (members.put field.1 field.2) fields where
  apart other member := by
    have distinct := areNew.distinct
    rw [List.map_cons, List.nodup_cons] at distinct
    have different : other.1 ≠ field.1 := by
      intro same
      exact distinct.1 (List.mem_map.mpr ⟨other, member, same⟩)
    rw [Members.get?_put, if_neg different]
    exact areNew.apart other (List.mem_cons_of_mem field member)
  distinct := by
    have distinct := areNew.distinct
    rw [List.map_cons, List.nodup_cons] at distinct
    exact distinct.2

/-- Ahead of every header the fields go to the root table. -/
theorem foldlM_assignments_root {root : Members} {fields : List (String × Value)}
    (areNew : AreNew root fields) :
    (assignments fields).foldlM Draft.apply ⟨root, []⟩ = some ⟨root.putAll fields, []⟩ := by
  induction fields generalizing root with
  | nil => rfl
  | cons field fields ih =>
      have new := areNew.apart field List.mem_cons_self
      have applied : Draft.apply ⟨root, []⟩ (.assign [] field.1 field.2) =
          some ⟨root.put field.1 field.2, []⟩ := by
        simp [Draft.apply, Members.changeAt, Members.assign, Members.add, new]
      rw [assignments, List.map_cons, List.foldlM_cons, applied, Option.bind_eq_bind,
        Option.bind_some]
      exact ih areNew.put

/-- Below a header the fields go to the table that the header opened. -/
theorem foldlM_assignments_opened {root inner : Members} {opened : String}
    {fields : List (String × Value)} (areNew : AreNew inner fields) :
    (assignments fields).foldlM Draft.apply ⟨root.put opened (.table .header inner), [opened]⟩ =
      some ⟨root.put opened (.table .header (inner.putAll fields)), [opened]⟩ := by
  induction fields generalizing inner with
  | nil => rfl
  | cons field fields ih =>
      have new := areNew.apart field List.mem_cons_self
      have applied :
          Draft.apply ⟨root.put opened (.table .header inner), [opened]⟩
            (.assign [] field.1 field.2) =
          some ⟨root.put opened (.table .header (inner.put field.1 field.2)), [opened]⟩ := by
        simp [Draft.apply, Members.changeAt, Passage.byHeader, Members.assign, Members.add,
          Members.get?_put, Members.put_put, new]
      rw [assignments, List.map_cons, List.foldlM_cons, applied, Option.bind_eq_bind,
        Option.bind_some]
      exact ih areNew.put

/-- A header opens a new table unless a field ahead of it has its key. -/
theorem ofStatements_section {title : String} {ahead fields : List (String × Value)}
    (aheadNew : AreNew [] ahead) (fieldsNew : AreNew [] fields)
    (apart : (Members.putAll [] ahead).get? title = none) :
    Members.ofStatements (assignments ahead ++ .openTable [] title :: assignments fields) =
      some ((Members.putAll [] ahead).put title (.table .header (Members.putAll [] fields))) := by
  have opened : Draft.apply ⟨Members.putAll [] ahead, []⟩ (.openTable [] title) =
      some ⟨(Members.putAll [] ahead).put title (.table .header []), [title]⟩ := by
    simp [Draft.apply, Members.changeAt, Members.openTable, apart]
  rw [Members.ofStatements, Draft.empty, List.foldlM_append, foldlM_assignments_root aheadNew,
    Option.bind_eq_bind, Option.bind_some, List.foldlM_cons, opened, Option.bind_eq_bind,
    Option.bind_some, foldlM_assignments_opened fieldsNew, Option.map_some]

end LinePrune.Toml
