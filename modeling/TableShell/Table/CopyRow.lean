import TableShell.Table

/-!
# Copying rows

A row is copied from one key to another. The copy takes the place of the first row with
the target key, or else comes after all rows.

## Main definitions

- `Table.firstWith?`: the first row with a given cell
- `Table.copyRow`: the table with a row copied
-/

namespace TableShell.Table

/-- The position of the first row whose cell at `key` is the given value. -/
def firstWith? (key : Nat) (value : String) : List Row → Except AccessFault (Option Nat)
  | [] => .ok none
  | row :: rows =>
    match row[key]? with
    | none => .error .missingCell
    | some cell =>
      if cell = value then .ok (some 0)
      else (firstWith? key value rows).map (·.map (· + 1))

/-- The rows with one put in the place of the first row with the target key, or at the end. -/
def place (key : Nat) (target : String) (row : Row) (rows : List Row) :
    Except AccessFault (List Row) := do
  match ← firstWith? key target rows with
  | some i => writeRow rows i row
  | none => return rows ++ [row]

/-- The table with the first row of the source key copied to the target key; `none` if no row
has the source key. -/
def copyRow (key : Nat) (source target : String) (t : Table) :
    Except AccessFault (Option Table) := do
  let some i ← firstWith? key source t.rows | return none
  let some row := t.rows[i]? | throw .missingRow
  let row ← writeCell row key target
  let rows ← place key target row t.rows
  return some { t with rows }

end TableShell.Table
