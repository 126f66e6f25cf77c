namespace LinePrune.Toml

/-- The origin of a table decides what later statements may add to it. -/
inductive Origin where
  | header
  | implied
  | dotted
  | inline
  deriving DecidableEq, Repr

/-- Headers in double brackets make arrays that later headers extend. -/
inductive ArrayKind where
  | listed
  | tables
  deriving DecidableEq, Repr

/-- A real number stands for its digits times a power of ten, as it was written. -/
inductive RealLiteral where
  | nan
  | infinity (negative : Bool)
  | decimal (negative : Bool) (digits : Nat) (exponent : Int)
  deriving DecidableEq, Repr

/-- A moment is any date or time. Its parts are checked and not kept. An integer without a value is
one that was let through although its digits stand for no number. -/
inductive Value where
  | text (value : String)
  | integer (value : Int)
  | integerWithoutValue
  | real (value : RealLiteral)
  | boolean (value : Bool)
  | moment
  | array (kind : ArrayKind) (items : List Value)
  | table (origin : Origin) (members : List (String × Value))
  deriving Repr

abbrev Members := List (String × Value)

namespace Members

def get? (key : String) : Members → Option Value
  | [] => none
  | first :: rest => if key = first.1 then some first.2 else get? key rest

/-- The value takes the place of an older one with the same key. -/
def put (key : String) (value : Value) : Members → Members
  | [] => [(key, value)]
  | first :: rest =>
      if key < first.1 then (key, value) :: first :: rest
      else if key = first.1 then (key, value) :: rest
      else first :: put key value rest

theorem get?_put (key other : String) (value : Value) (members : Members) :
    get? other (put key value members) =
      if other = key then some value else get? other members := by
  induction members with
  | nil => simp [put, get?]
  | cons first rest ih => simp only [put]; grind [get?]

end Members

end LinePrune.Toml
