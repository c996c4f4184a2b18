/-!
# Tables

A table has named columns and rows of cells. Nothing but `Table.Rectangular` ties the
rows to the columns, and it is checked when a table enters a workbook
(`shapeFault?_eq_none_iff`).

## Main definitions

- `Table`: columns and rows
- `Table.Rectangular`, `Table.shapeFault?`: the shape that is asked for, and its first fault
- `Table.columnIndex?`, `Table.matchingRows`: the place of a column and the rows it selects
-/

namespace TableShell

/-- The cells of a row, one for each column. -/
abbrev Row := List String

/-- Columns and rows. Columns may have the same name; the first one counts. -/
structure Table where
  columns : List String
  rows : List Row
deriving DecidableEq, Repr, Inhabited

/-- What is wrong with the shape of a table. -/
inductive ShapeFault where
  | noColumns
  /-- The row with this number, counted from one, has `actual` cells in place of `expected`. -/
  | rowLength (number actual expected : Nat)
deriving DecidableEq, Repr

/-- The wording of a fault in the table of the given name. -/
def ShapeFault.message (name : String) : ShapeFault → String
  | noColumns => name ++ ": 列が定義されていません"
  | rowLength number actual expected =>
    name ++ ": " ++ number.repr ++ "行目の列数が一致しません（" ++ actual.repr
      ++ " 列 / 期待値 " ++ expected.repr ++ " 列）"

namespace Table

/-- There is a column, and each row has a cell for each column. -/
def Rectangular (t : Table) : Prop :=
  t.columns ≠ [] ∧ ∀ row ∈ t.rows, row.length = t.columns.length

instance (t : Table) : Decidable t.Rectangular :=
  inferInstanceAs (Decidable (_ ∧ _))

/-- The first fault in the shape of a table: the lack of columns, or else the first row that
is too long or too short. -/
def shapeFault? (t : Table) : Option ShapeFault :=
  if t.columns = [] then some .noColumns
  else
    ((t.rows.zipIdx 1).find? fun row => row.1.length != t.columns.length).map fun row =>
      .rowLength row.2 row.1.length t.columns.length

theorem shapeFault?_eq_none_iff {t : Table} : t.shapeFault? = none ↔ t.Rectangular := by
  unfold shapeFault? Rectangular
  split
  · simp_all
  · rename_i h
    simp only [Option.map_eq_none_iff, List.find?_eq_none, bne_iff_ne, ne_eq, Decidable.not_not,
      h, not_false_eq_true, true_and]
    constructor
    · intro all row hrow
      obtain ⟨i, hi, rfl⟩ := List.mem_iff_getElem.1 hrow
      have here : (t.rows[i], 1 + i) ∈ t.rows.zipIdx 1 :=
        List.mk_add_mem_zipIdx_iff_getElem?.2 (List.getElem?_eq_getElem hi)
      exact all (t.rows[i], 1 + i) here
    · intro all row hrow
      exact all row.1 (List.fst_mem_of_mem_zipIdx hrow)

/-- The place of the first column of the given name. -/
def columnIndex? (t : Table) (column : String) : Option Nat :=
  t.columns.idxOf? column

theorem lt_of_columnIndex? {t : Table} {column : String} {i : Nat}
    (found : t.columnIndex? column = some i) : i < t.columns.length :=
  (List.idxOf?_eq_some_iff.1 found).1

theorem columnIndex?_of_columns {t u : Table} (same : u.columns = t.columns) :
    u.columnIndex? = t.columnIndex? := by
  funext column
  rw [columnIndex?, columnIndex?, same]

/-- The rows whose cell in the given place is one of the values. -/
def matchingRows (t : Table) (index : Nat) (values : List String) : List Row :=
  t.rows.filter fun row => row[index]?.any values.contains

end Table

/-- Something that is looked up and not there. None of them occurs in a rectangular table. -/
inductive AccessFault where
  /-- A row has no cell in the given place. -/
  | missingCell
  /-- A table has no row in the given place. -/
  | missingRow
  /-- There is no new value for an old one. -/
  | missingValue
deriving DecidableEq, Repr

namespace Table

/-- The row with a cell written in the given place. -/
def writeCell (row : Row) (index : Nat) (cell : String) : Except AccessFault Row :=
  if index < row.length then .ok (row.set index cell) else .error .missingCell

/-- The rows with one of them written in the given place. -/
def writeRow (rows : List Row) (index : Nat) (row : Row) : Except AccessFault (List Row) :=
  if index < rows.length then .ok (rows.set index row) else .error .missingRow

end Table

end TableShell
