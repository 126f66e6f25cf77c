import LinePrune.Toml.Document

namespace LinePrune.Toml

/-- A scalar holds no other values. -/
def Value.isScalar : Value → Bool
  | .array _ _ => false
  | .table _ _ => false
  | _ => true

/-- The keys of all tables ascend, those of tables inside of others included. -/
inductive Value.IsOrdered : Value → Prop where
  | scalar {value : Value} : value.isScalar = true → IsOrdered value
  | array {kind : ArrayKind} {items : List Value} :
      (∀ item ∈ items, IsOrdered item) → IsOrdered (.array kind items)
  | table {origin : Origin} {members : Members} : (members.map Prod.fst).Pairwise (· < ·) →
      (∀ member ∈ members, IsOrdered member.2) → IsOrdered (.table origin members)

/-- Members are ordered when a table of them is. -/
structure Members.IsOrdered (members : Members) : Prop where
  ascending : (members.map Prod.fst).Pairwise (· < ·)
  values : ∀ member ∈ members, member.2.IsOrdered

namespace Members

theorem IsOrdered.nodup {members : Members} (ordered : members.IsOrdered) :
    (members.map Prod.fst).Nodup := by
  refine ordered.ascending.imp ?_
  rintro key _ less rfl
  exact String.lt_irrefl key less

theorem IsOrdered.nil : IsOrdered [] :=
  ⟨.nil, by simp⟩

theorem IsOrdered.table {members : Members} (ordered : members.IsOrdered) (origin : Origin) :
    (Value.table origin members).IsOrdered :=
  .table ordered.ascending ordered.values

theorem mem_of_get? {key : String} {value : Value} {members : Members}
    (found : members.get? key = some value) : (key, value) ∈ members := by
  induction members with
  | nil => contradiction
  | cons first rest ih =>
      simp only [get?] at found
      split at found
      next same =>
        obtain rfl := Option.some.inj found
        rw [same]
        exact List.mem_cons_self
      next => exact List.mem_cons_of_mem _ (ih found)

theorem mem_put {key : String} {value : Value} {members : Members} {member : String × Value}
    (listed : member ∈ members.put key value) : member = (key, value) ∨ member ∈ members := by
  induction members with
  | nil => simpa [put] using listed
  | cons first rest ih =>
      simp only [put] at listed
      split at listed
      next => simpa using listed
      next =>
        split at listed <;> grind

/-- The new key stands behind the smaller ones and in front of the others. -/
theorem ascending_put {key : String} {value : Value} {members : Members}
    (ascending : (members.map Prod.fst).Pairwise (· < ·)) :
    ((members.put key value).map Prod.fst).Pairwise (· < ·) := by
  induction members with
  | nil => simp [put]
  | cons first rest ih =>
      rw [List.map_cons, List.pairwise_cons] at ascending
      simp only [put]
      split
      next before =>
        simp only [List.map_cons, List.pairwise_cons, List.mem_cons, forall_eq_or_imp]
        exact ⟨⟨before, fun other member => String.lt_trans before (ascending.1 other member)⟩,
          ascending⟩
      next notBefore =>
        split
        next same =>
          rw [List.map_cons, List.pairwise_cons]
          exact ⟨same ▸ ascending.1, ascending.2⟩
        next different =>
          rw [List.map_cons, List.pairwise_cons]
          refine ⟨?_, ih ascending.2⟩
          have behind : first.1 < key := by
            rcases Std.lt_trichotomy first.1 key with less | equal | greater
            · exact less
            · exact absurd equal.symm different
            · exact absurd greater notBefore
          intro other listed
          obtain ⟨member, member_put, rfl⟩ := List.mem_map.mp listed
          rcases mem_put member_put with rfl | old
          · exact behind
          · exact ascending.1 _ (List.mem_map_of_mem old)

theorem IsOrdered.put {key : String} {value : Value} {members : Members}
    (ordered : members.IsOrdered) (valueOrdered : value.IsOrdered) :
    (members.put key value).IsOrdered where
  ascending := ascending_put ordered.ascending
  values member listed := by
    rcases mem_put listed with rfl | old
    · exact valueOrdered
    · exact ordered.values member old

theorem IsOrdered.get? {key : String} {value : Value} {members : Members}
    (ordered : members.IsOrdered) (found : members.get? key = some value) : value.IsOrdered :=
  ordered.values _ (mem_of_get? found)

end Members

theorem Value.IsOrdered.members {origin : Origin} {members : Members}
    (ordered : (Value.table origin members).IsOrdered) : members.IsOrdered := by
  cases ordered with
  | scalar scalar => contradiction
  | table ascending values => exact ⟨ascending, values⟩

theorem Value.IsOrdered.items {kind : ArrayKind} {items : List Value}
    (ordered : (Value.array kind items).IsOrdered) : ∀ item ∈ items, item.IsOrdered := by
  cases ordered with
  | scalar scalar => contradiction
  | array items => exact items

section Changes

/-- This says of a change of members that it leaves them ordered. -/
def KeepsOrder (change : Members → Option Members) : Prop :=
  ∀ {members changed : Members}, members.IsOrdered → change members = some changed →
    changed.IsOrdered

theorem keepsOrder_add {key : String} {value : Value} (valueOrdered : value.IsOrdered) :
    KeepsOrder (Members.add key value) := by
  intro members changed ordered added
  rw [Members.add] at added
  split at added
  next => contradiction
  next =>
    obtain rfl := Option.some.inj added
    exact ordered.put valueOrdered

theorem keepsOrder_openTable (key : String) : KeepsOrder (Members.openTable key) := by
  intro members changed ordered opened
  rw [Members.openTable] at opened
  split at opened
  next =>
    obtain rfl := Option.some.inj opened
    exact ordered.put (Members.IsOrdered.nil.table .header)
  next inner found =>
    obtain rfl := Option.some.inj opened
    exact ordered.put ((ordered.get? found).members.table .header)
  next => contradiction

theorem keepsOrder_openElement (key : String) : KeepsOrder (Members.openElement key) := by
  have fresh : (Value.table .header []).IsOrdered := Members.IsOrdered.nil.table .header
  intro members changed ordered opened
  rw [Members.openElement] at opened
  split at opened
  next =>
    obtain rfl := Option.some.inj opened
    exact ordered.put (.array (by simpa using fresh))
  next items found =>
    obtain rfl := Option.some.inj opened
    refine ordered.put (.array fun item member => ?_)
    rcases List.mem_append.mp member with old | new
    · exact (ordered.get? found).items item old
    · rw [List.mem_singleton] at new
      exact new ▸ fresh
  next => contradiction

/-- A change at the end of a path puts nothing but tables back on the way. -/
theorem keepsOrder_changeAt {passage : Passage} {change : Origin → Members → Option Members}
    (keeps : ∀ origin, KeepsOrder (change origin)) (origin : Origin) (path : List String) :
    KeepsOrder fun members => Members.changeAt passage change origin members path := by
  induction path generalizing origin with
  | nil => exact keeps origin
  | cons key path ih =>
      intro members changed ordered reached
      simp only [Members.changeAt] at reached
      split at reached
      next =>
        obtain ⟨inner, innerReached, rfl⟩ := Option.map_eq_some_iff.mp reached
        exact ordered.put ((ih _ Members.IsOrdered.nil innerReached).table _)
      next innerOrigin inner found =>
        split at reached
        next =>
          obtain ⟨next, innerReached, rfl⟩ := Option.map_eq_some_iff.mp reached
          exact ordered.put ((ih _ (ordered.get? found).members innerReached).table _)
        next => contradiction
      next items found =>
        -- Only the last table of an array can change.
        have itemsOrdered := (ordered.get? found).items
        split at reached
        next innerOrigin inner last =>
          obtain ⟨next, innerReached, rfl⟩ := Option.map_eq_some_iff.mp reached
          have lastOrdered := itemsOrdered _ (List.mem_of_getLast? last)
          refine ordered.put (.array fun item member => ?_)
          rcases List.mem_append.mp member with old | new
          · exact itemsOrdered item (List.dropLast_subset items old)
          · rw [List.mem_singleton] at new
            exact new ▸ (ih _ lastOrdered.members innerReached).table _
        next => contradiction
      next => contradiction

theorem keepsOrder_assign {origin : Origin} {path : List String} {key : String} {value : Value}
    (valueOrdered : value.IsOrdered) :
    KeepsOrder fun members => Members.assign origin members path key value := by
  refine keepsOrder_changeAt (fun reached => ?_) origin path
  intro members changed ordered added
  split at added
  next => exact keepsOrder_add valueOrdered ordered added
  next => contradiction

end Changes

section Statements

/-- Only an assignment brings a value with it. -/
def Statement.IsOrdered : Statement → Prop
  | .openTable _ _ => True
  | .openElement _ _ => True
  | .assign _ _ value => value.IsOrdered

theorem Draft.isOrdered_apply {draft next : Draft} {statement : Statement}
    (ordered : draft.root.IsOrdered) (statementOrdered : statement.IsOrdered)
    (applied : draft.apply statement = some next) : next.root.IsOrdered := by
  cases statement with
  | openTable path key =>
      obtain ⟨root, changed, rfl⟩ := Option.map_eq_some_iff.mp applied
      exact keepsOrder_changeAt (fun _ => keepsOrder_openTable key) _ path ordered changed
  | openElement path key =>
      obtain ⟨root, changed, rfl⟩ := Option.map_eq_some_iff.mp applied
      exact keepsOrder_changeAt (fun _ => keepsOrder_openElement key) _ path ordered changed
  | assign path key value =>
      obtain ⟨root, changed, rfl⟩ := Option.map_eq_some_iff.mp applied
      exact keepsOrder_changeAt (fun _ => keepsOrder_assign statementOrdered) _ draft.opened
        ordered changed

theorem Draft.isOrdered_foldlM {draft next : Draft} {statements : List Statement}
    (ordered : draft.root.IsOrdered)
    (statementsOrdered : ∀ statement ∈ statements, statement.IsOrdered)
    (applied : statements.foldlM Draft.apply draft = some next) : next.root.IsOrdered := by
  induction statements generalizing draft with
  | nil =>
      obtain rfl := Option.some.inj applied
      exact ordered
  | cons statement rest ih =>
      rw [List.forall_mem_cons] at statementsOrdered
      rw [List.foldlM_cons] at applied
      obtain ⟨step, stepped, applied⟩ := Option.bind_eq_some_iff.mp applied
      exact ih (isOrdered_apply ordered statementsOrdered.1 stepped) statementsOrdered.2 applied

theorem isOrdered_ofStatements {statements : List Statement} {members : Members}
    (statementsOrdered : ∀ statement ∈ statements, statement.IsOrdered)
    (built : Members.ofStatements statements = some members) : members.IsOrdered := by
  obtain ⟨draft, applied, rfl⟩ := Option.map_eq_some_iff.mp built
  exact Draft.isOrdered_foldlM Members.IsOrdered.nil statementsOrdered applied

end Statements

section Readers

theorem isScalar_of_integer? {token : List Char} {value : Value}
    (read : integer? token = some value) : value.isScalar = true := by
  have radix {base : Nat} {digits : List Char} (read : radixInteger? base digits = some value) :
      value.isScalar = true := by
    rw [radixInteger?] at read
    split at read
    next =>
      obtain rfl := Option.some.inj read
      rfl
    next =>
      obtain ⟨_, _, rfl⟩ := Option.map_eq_some_iff.mp read
      rfl
  unfold integer? at read
  split at read
  next => exact radix read
  next => exact radix read
  next => exact radix read
  next =>
    generalize splitSign token = parts at read
    obtain ⟨negative, magnitude⟩ := parts
    rcases Option.or_eq_some_iff.mp read with decimal | ⟨_, parted⟩
    · obtain ⟨_, _, rfl⟩ := Option.map_eq_some_iff.mp decimal
      rfl
    · split at parted
      next =>
        obtain rfl := Option.some.inj parted
        rfl
      next => contradiction

theorem isScalar_of_real? {token : List Char} {value : Value}
    (read : real? token = some value) : value.isScalar = true := by
  simp only [real?] at read
  split at read
  next =>
    obtain rfl := Option.some.inj read
    rfl
  next =>
    split at read
    next =>
      obtain rfl := Option.some.inj read
      rfl
    next =>
      simp only [decimal?] at read
      split at read
      next => contradiction
      next =>
        obtain ⟨_, _, read⟩ := Option.bind_eq_some_iff.mp read
        obtain ⟨_, _, read⟩ := Option.bind_eq_some_iff.mp read
        obtain ⟨_, _, read⟩ := Option.bind_eq_some_iff.mp read
        obtain rfl := Option.some.inj read
        rfl

theorem isScalar_of_scalarOf? {token : List Char} {value : Value}
    (read : scalarOf? token = some value) : value.isScalar = true := by
  rw [scalarOf?] at read
  split at read
  next =>
    obtain rfl := Option.some.inj read
    rfl
  next =>
    split at read
    next =>
      obtain rfl := Option.some.inj read
      rfl
    next =>
      rcases Option.or_eq_some_iff.mp read with number | ⟨_, moment⟩
      · rcases Option.or_eq_some_iff.mp number with integer | ⟨_, real⟩
        · exact isScalar_of_integer? integer
        · exact isScalar_of_real? real
      · split at moment
        next =>
          obtain rfl := Option.some.inj moment
          rfl
        next => contradiction

/-- All that is read with so much fuel is ordered, inline tables when they start from ordered
members. -/
structure ReadsOrdered (fuel : Nat) : Prop where
  value : ∀ {chars rest : List Char} {value : Value},
    value? fuel chars = some (value, rest) → value.IsOrdered
  items : ∀ {chars rest : List Char} {items : List Value},
    items? fuel chars = some (items, rest) → ∀ item ∈ items, item.IsOrdered
  members : ∀ {chars rest : List Char} {members found : Members}, members.IsOrdered →
    inlineMembers? fuel members chars = some (found, rest) → found.IsOrdered

theorem isOrdered_of_value? {fuel : Nat} (below : ReadsOrdered fuel) {chars rest : List Char}
    {value : Value} (read : value? (fuel + 1) chars = some (value, rest)) : value.IsOrdered := by
  unfold value? at read
  split at read
  next =>
    obtain ⟨_, _, same⟩ := Option.map_eq_some_iff.mp read
    obtain ⟨rfl, _⟩ := Prod.mk.inj same
    exact .scalar rfl
  next =>
    obtain ⟨_, _, same⟩ := Option.map_eq_some_iff.mp read
    obtain ⟨rfl, _⟩ := Prod.mk.inj same
    exact .scalar rfl
  next =>
    obtain ⟨_, items, same⟩ := Option.map_eq_some_iff.mp read
    obtain ⟨rfl, _⟩ := Prod.mk.inj same
    exact .array (below.items items)
  next =>
    obtain ⟨_, members, same⟩ := Option.map_eq_some_iff.mp read
    obtain ⟨rfl, _⟩ := Prod.mk.inj same
    exact (below.members Members.IsOrdered.nil members).table .inline
  next =>
    obtain ⟨_, scalar, same⟩ := Option.map_eq_some_iff.mp read
    obtain ⟨rfl, _⟩ := Prod.mk.inj same
    exact .scalar (isScalar_of_scalarOf? scalar)

theorem isOrdered_of_items? {fuel : Nat} (below : ReadsOrdered fuel) {chars rest : List Char}
    {items : List Value} (read : items? (fuel + 1) chars = some (items, rest)) :
    ∀ item ∈ items, item.IsOrdered := by
  unfold items? at read
  split at read
  next =>
    obtain ⟨rfl, _⟩ := Prod.mk.inj (Option.some.inj read)
    simp
  next =>
    obtain ⟨⟨first, _⟩, firstRead, read⟩ := Option.bind_eq_some_iff.mp read
    have firstOrdered := below.value firstRead
    dsimp only at read
    split at read
    next =>
      obtain ⟨⟨others, _⟩, othersRead, read⟩ := Option.bind_eq_some_iff.mp read
      obtain ⟨rfl, _⟩ := Prod.mk.inj (Option.some.inj read)
      exact List.forall_mem_cons.mpr ⟨firstOrdered, below.items othersRead⟩
    next =>
      obtain ⟨rfl, _⟩ := Prod.mk.inj (Option.some.inj read)
      exact List.forall_mem_singleton.mpr firstOrdered
    next => contradiction

theorem isOrdered_of_inlineMembers? {fuel : Nat} (below : ReadsOrdered fuel)
    {chars rest : List Char} {members found : Members} (ordered : members.IsOrdered)
    (read : inlineMembers? (fuel + 1) members chars = some (found, rest)) :
    found.IsOrdered := by
  unfold inlineMembers? at read
  split at read
  next =>
    obtain ⟨rfl, _⟩ := Prod.mk.inj (Option.some.inj read)
    exact ordered
  next =>
    obtain ⟨key, _, read⟩ := Option.bind_eq_some_iff.mp read
    obtain ⟨_, _, read⟩ := Option.bind_eq_some_iff.mp read
    obtain ⟨value, valueRead, read⟩ := Option.bind_eq_some_iff.mp read
    obtain ⟨more, assigned, read⟩ := Option.bind_eq_some_iff.mp read
    have moreOrdered : more.IsOrdered :=
      keepsOrder_assign (below.value valueRead) ordered assigned
    split at read
    next => exact below.members moreOrdered read
    next =>
      obtain ⟨rfl, _⟩ := Prod.mk.inj (Option.some.inj read)
      exact moreOrdered
    next => contradiction

/-- The three readers call each other with less fuel, so one induction serves them all. -/
theorem readsOrdered (fuel : Nat) : ReadsOrdered fuel := by
  induction fuel with
  | zero =>
      refine ⟨?_, ?_, ?_⟩
      · intro chars rest value read
        simp [value?] at read
      · intro chars rest items read
        simp [items?] at read
      · intro chars rest members found _ read
        simp [inlineMembers?] at read
  | succ fuel ih =>
      exact ⟨isOrdered_of_value? ih, isOrdered_of_items? ih, isOrdered_of_inlineMembers? ih⟩

theorem isOrdered_of_statement? {fuel : Nat} {chars rest : List Char} {statement : Statement}
    (read : statement? fuel chars = some (statement, rest)) : statement.IsOrdered := by
  unfold statement? at read
  split at read
  next =>
    unfold header? at read
    split at read
    next =>
      obtain ⟨_, _, read⟩ := Option.bind_eq_some_iff.mp read
      obtain ⟨_, _, read⟩ := Option.bind_eq_some_iff.mp read
      obtain ⟨_, _, read⟩ := Option.bind_eq_some_iff.mp read
      obtain ⟨rfl, _⟩ := Prod.mk.inj (Option.some.inj read)
      trivial
    next =>
      obtain ⟨_, _, read⟩ := Option.bind_eq_some_iff.mp read
      obtain ⟨_, _, read⟩ := Option.bind_eq_some_iff.mp read
      obtain ⟨rfl, _⟩ := Prod.mk.inj (Option.some.inj read)
      trivial
  next =>
    obtain ⟨_, _, read⟩ := Option.bind_eq_some_iff.mp read
    obtain ⟨_, _, read⟩ := Option.bind_eq_some_iff.mp read
    obtain ⟨value, valueRead, read⟩ := Option.bind_eq_some_iff.mp read
    obtain ⟨rfl, _⟩ := Prod.mk.inj (Option.some.inj read)
    exact (readsOrdered fuel).value valueRead

theorem isOrdered_of_statements? {fuel lines : Nat} {chars : List Char}
    {statements : List Statement} (read : statements? fuel lines chars = some statements) :
    ∀ statement ∈ statements, statement.IsOrdered := by
  induction lines generalizing chars statements with
  | zero => contradiction
  | succ lines ih =>
      rw [statements?] at read
      split at read
      next =>
        obtain rfl := Option.some.inj read
        simp
      next =>
        split at read
        next => exact ih read
        next =>
          obtain ⟨first, firstRead, read⟩ := Option.bind_eq_some_iff.mp read
          obtain ⟨_, _, read⟩ := Option.bind_eq_some_iff.mp read
          obtain ⟨others, othersRead, read⟩ := Option.bind_eq_some_iff.mp read
          obtain rfl := Option.some.inj read
          exact List.forall_mem_cons.mpr ⟨isOrdered_of_statement? firstRead, ih othersRead⟩

/-- Every document that is read has ordered members. -/
theorem isOrdered_of_parse? {text : String} {members : Members}
    (parsed : parse? text = some members) : members.IsOrdered := by
  obtain ⟨statements, read, built⟩ := Option.bind_eq_some_iff.mp parsed
  exact isOrdered_ofStatements (isOrdered_of_statements? read) built

end Readers

end LinePrune.Toml
