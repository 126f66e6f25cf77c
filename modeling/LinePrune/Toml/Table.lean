/-
This file lets a statement reach its table by a path of keys.
-/

import LinePrune.Toml.Value

namespace LinePrune.Toml

/-- A passage tells which tables a path may go through and what it makes where none stands. -/
structure Passage where
  permits : Origin → Bool
  makes : Origin

/-- A header may pass through every table that can still grow. -/
def Passage.byHeader : Passage where
  permits origin := origin ≠ .inline
  makes := .implied

/-- A dotted key may not reach into a table that has a header of its own. -/
def Passage.byDottedKey : Passage where
  permits origin := origin = .implied || origin = .dotted
  makes := .dotted

namespace Members

/-- The change is made at the end of the path. An array of tables leads into its last table. -/
def changeAt (passage : Passage) (change : Origin → Members → Option Members) :
    Origin → Members → List String → Option Members
  | origin, members, [] => change origin members
  | _, members, key :: path =>
      match members.get? key with
      | none =>
          (changeAt passage change passage.makes [] path).map fun inner =>
            members.put key (.table passage.makes inner)
      | some (.table origin inner) =>
          if passage.permits origin then
            (changeAt passage change origin inner path).map fun changed =>
              members.put key (.table origin changed)
          else none
      | some (.array .tables items) =>
          match items.getLast? with
          | some (.table origin inner) =>
              (changeAt passage change origin inner path).map fun changed =>
                members.put key (.array .tables (items.dropLast ++ [.table origin changed]))
          | _ => none
      | some _ => none

/-- A key is given a value once. -/
def add (key : String) (value : Value) (members : Members) : Option Members :=
  if (members.get? key).isSome then none else some (members.put key value)

/-- Tables made by dotted keys are extended by dotted keys, and other tables are not. -/
def assign (origin : Origin) (members : Members) (path : List String) (key : String)
    (value : Value) : Option Members :=
  changeAt .byDottedKey
    (fun reached inner => if reached = .dotted ↔ path ≠ [] then inner.add key value else none)
    origin members path

/-- A table may have one header, even if a longer header named it before. -/
def openTable (key : String) (members : Members) : Option Members :=
  match members.get? key with
  | none => some (members.put key (.table .header []))
  | some (.table .implied inner) => some (members.put key (.table .header inner))
  | some _ => none

/-- Each header in double brackets adds one table to the array. -/
def openElement (key : String) (members : Members) : Option Members :=
  match members.get? key with
  | none => some (members.put key (.array .tables [.table .header []]))
  | some (.array .tables items) =>
      some (members.put key (.array .tables (items ++ [.table .header []])))
  | some _ => none

end Members

/-- A statement is a header, a header in double brackets, or a key with its value. -/
inductive Statement where
  | openTable (path : List String) (key : String)
  | openElement (path : List String) (key : String)
  | assign (path : List String) (key : String) (value : Value)
  deriving Repr

/-- A document under construction remembers the table that the last header opened. -/
structure Draft where
  root : Members
  opened : List String

namespace Draft

def empty : Draft := ⟨[], []⟩

def apply (draft : Draft) : Statement → Option Draft
  | .openTable path key =>
      (Members.changeAt .byHeader (fun _ => Members.openTable key) .header draft.root path).map
        fun root => ⟨root, path ++ [key]⟩
  | .openElement path key =>
      (Members.changeAt .byHeader (fun _ => Members.openElement key) .header draft.root path).map
        fun root => ⟨root, path ++ [key]⟩
  | .assign path key value =>
      (Members.changeAt .byHeader (fun origin members => members.assign origin path key value)
        .header draft.root draft.opened).map fun root => ⟨root, draft.opened⟩

end Draft

/-- The members of a document, unless two of its statements contradict each other. -/
def Members.ofStatements (statements : List Statement) : Option Members :=
  (statements.foldlM Draft.apply Draft.empty).map Draft.root

end LinePrune.Toml
