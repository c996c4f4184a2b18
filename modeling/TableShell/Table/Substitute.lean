import TableShell.Table

/-!
# Substituting cells

An update puts new values in place of old ones. What is written depends on the cells as
they were before, so a value that the update has written is not found by it again.

## Main definitions

- `Substitution`: old values and what is put in their place
- `Table.substituteRow`: one row
- `Table.substitute`: all rows, with the number of those that were written to
-/

namespace TableShell

/-- Old values and the values put in their place: a single one for all, or one for each. -/
structure Substitution where
  /-- The values that are looked for. -/
  old : List String
  /-- The values that are written. -/
  new : List String
deriving DecidableEq, Repr

namespace Substitution

/-- Each old value has a new value of its own. -/
def isPairwise (s : Substitution) : Bool :=
  s.new.length == s.old.length && s.new.length != 1

/-- There is a single new value, or one for each old value. -/
def isBalanced (s : Substitution) : Bool :=
  s.new.length == 1 || s.isPairwise

/-- The value that takes the place of the old value at position `i`. -/
def valueAt? (s : Substitution) (i : Nat) : Option String :=
  if s.isPairwise then s.new[i]? else s.new[0]?

end Substitution

namespace Table

/-- The row after an update that reads the cell at `source` and writes the one at `target`;
`none` if the cell that is read is not among the old values. A value that occurs more than
once among the old values counts where it occurs first. -/
def substituteRow (s : Substitution) (source target : Nat) (row : Row) :
    Except AccessFault (Option Row) :=
  match row[source]? with
  | none => .error .missingCell
  | some cell =>
    match s.old.idxOf? cell with
    | none => .ok none
    | some i =>
      match s.valueAt? i with
      | none => .error .missingValue
      | some value => (writeCell row target value).map some

/-- The table after an update, and how many of its rows were written to. -/
def substitute (s : Substitution) (source target : Nat) (t : Table) :
    Except AccessFault (Table × Nat) := do
  let written ← t.rows.mapM (substituteRow s source target)
  return ({ t with rows := List.zipWith Option.getD written t.rows }, written.countP Option.isSome)

end Table

end TableShell
