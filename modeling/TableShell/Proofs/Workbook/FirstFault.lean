import TableShell.Proofs.Text.ByteOrder
import TableShell.Proofs.Text.Numeral
import TableShell.Proofs.Workbook.Modify
import TableShell.Store

/-!
# The first fault of a workbook

A workbook becomes a store if all its tables are rectangular. Otherwise it is refused for the first
of the others, in the order of the bytes of the names, and this table for its first fault: that it
has no columns, or else its first row that is too long or too short. What is then said about the
workbook can be said of this fault only (`workbooks_are_refused_for_the_first_fault`), since the
wording tells the faults and the names apart (`ShapeFault.message_inj`).

## Main definitions

- `Table.FirstFault`: what is wrong with a table first
- `Workbook.FirstFault`: what is wrong with a workbook first
-/

namespace TableShell

/-! ### The wording of faults -/

namespace ShapeFault

private theorem message_noColumns_ne (name other : String) (number actual expected : Nat) :
    noColumns.message name ≠ (rowLength number actual expected).message other := by
  intro eq
  have last := congrArg (fun text => text.toList.getLast?) eq
  simp only [message, String.toList_append, List.getLast?_append] at last
  change some 'ん' = some '）' at last
  cases last

/-- The wording tells which fault is meant in which table, whatever the table is called. -/
theorem message_inj {name other : String} {fault fault' : ShapeFault} :
    fault.message name = fault'.message other ↔ name = other ∧ fault = fault' := by
  cases fault with
  | noColumns =>
    cases fault' with
    | noColumns => simp [message]
    | rowLength => simp [message_noColumns_ne]
  | rowLength =>
    cases fault' with
    | noColumns => simp [(message_noColumns_ne _ _ _ _ _).symm]
    | rowLength =>
      -- From the end: each number is behind a gap that does not end in a digit.
      rw [message, message, String.append_left_inj, Decimal.append_repr_inj (by decide),
        Decimal.append_repr_inj (by decide), Decimal.append_repr_inj (by decide),
        rowLength.injEq, and_assoc, and_assoc]

end ShapeFault

/-! ### Tables -/

namespace Table

variable {t : Table} {fault : ShapeFault}

/-- What is wrong with a table first. The lack of columns comes before all faults of rows, and a row
is at fault if its cells are not as many as the columns. -/
inductive FirstFault (t : Table) : ShapeFault → Prop
  | noColumns (none : t.columns = []) : t.FirstFault .noColumns
  | rowLength {before after : List Row} {row : Row} (some : t.columns ≠ [])
      (rows : t.rows = before ++ row :: after)
      (fit : ∀ r ∈ before, r.length = t.columns.length)
      (misfit : row.length ≠ t.columns.length) :
      t.FirstFault (.rowLength (before.length + 1) row.length t.columns.length)

/-- The number of the first row of another length counts the rows before it and the row itself. -/
theorem find?_length_ne_eq_some_iff {rows : List Row} {row : Row} {number width : Nat} :
    ((rows.zipIdx 1).find? fun row => row.1.length != width) = some (row, number) ↔
      ∃ before after, rows = before ++ row :: after ∧ number = before.length + 1 ∧
        row.length ≠ width ∧ ∀ r ∈ before, r.length = width := by
  simp only [List.find?_eq_some_iff_append, bne_iff_ne, Bool.not_eq_true', bne_eq_false_iff_eq]
  constructor
  · rintro ⟨misfit, _, _, split, fit⟩
    obtain ⟨before, others, rfl, rfl, rest⟩ := List.zipIdx_eq_append_iff.1 split
    obtain ⟨_, after, rfl, same, -⟩ := List.zipIdx_eq_cons_iff.1 rest.symm
    obtain ⟨rfl, rfl⟩ := Prod.mk.inj same
    refine ⟨before, after, rfl, Nat.add_comm _ _, misfit, ?_⟩
    intro r member
    obtain ⟨i, found⟩ := List.mem_iff_getElem?.1 member
    exact fit (r, 1 + i) (List.mk_add_mem_zipIdx_iff_getElem?.2 found)
  · rintro ⟨before, after, rfl, rfl, misfit, fit⟩
    refine ⟨misfit, before.zipIdx 1, after.zipIdx (before.length + 2), ?_, ?_⟩
    · rw [List.zipIdx_append, List.zipIdx_cons, Nat.add_comm 1]
    · intro entry member
      exact fit entry.1 (List.fst_mem_of_mem_zipIdx member)

/-- The check of a table finds its first fault. -/
theorem shapeFault?_eq_some_iff : t.shapeFault? = some fault ↔ t.FirstFault fault := by
  rw [shapeFault?]
  constructor
  · intro found
    split at found
    next none =>
      obtain rfl := Option.some.inj found
      exact .noColumns none
    next some =>
      obtain ⟨⟨row, number⟩, first, rfl⟩ := Option.map_eq_some_iff.1 found
      obtain ⟨before, after, rows, rfl, misfit, fit⟩ := find?_length_ne_eq_some_iff.1 first
      exact .rowLength some rows fit misfit
  · intro first
    cases first with
    | noColumns none => rw [if_pos none]
    | rowLength some rows fit misfit =>
      rw [if_neg some, Option.map_eq_some_iff]
      exact ⟨_, find?_length_ne_eq_some_iff.2 ⟨_, _, rows, rfl, misfit, fit⟩, rfl⟩

end Table

/-! ### Workbooks -/

/-- What is wrong with a workbook first: what is wrong first with the table of the smallest name, in
the order of bytes, among the tables that are not rectangular. -/
def Workbook.FirstFault (book : Workbook) (name : String) (fault : ShapeFault) : Prop :=
  ∃ t, book.get? name = some t ∧ t.FirstFault fault ∧
    ∀ other u, book.get? other = some u → ¬u.Rectangular →
      name.toUTF8.data.toList ≤ other.toUTF8.data.toList

/-- The check of a workbook finds its first fault. -/
theorem Workbook.shapeFault?_eq_some_iff_firstFault {book : Workbook} {name : String}
    {fault : ShapeFault} :
    book.shapeFault? = some (name, fault) ↔ book.FirstFault name fault := by
  simp only [shapeFault?_eq_some_iff, FirstFault, Table.shapeFault?_eq_some_iff, ← List.not_lt,
    Utf8.bytes_lt_iff, not_imp_not]

namespace Store

variable {book : Workbook} {store : Store} {name : String} {fault : ShapeFault}

private theorem ofWorkbook_eq_ok_iff :
    ofWorkbook book = .ok store ↔ store = { book } ∧ book.Rectangular := by
  rw [ofWorkbook, ← Workbook.shapeFault?_eq_none_iff]
  cases book.shapeFault? with
  | none => simp [eq_comm]
  | some fault => simp

private theorem ofWorkbook_eq_error_iff :
    ofWorkbook book = .error (name, fault) ↔ book.FirstFault name fault := by
  rw [ofWorkbook, ← Workbook.shapeFault?_eq_some_iff_firstFault]
  cases book.shapeFault? with
  | none => simp
  | some fault => simp

/-- A workbook becomes a store if and only if each of its tables has a column and in each row as
many cells as columns, and then the store has these tables and no others. What is said about any
other workbook is the wording of a fault if and only if this is the first fault of the workbook. -/
theorem workbooks_are_refused_for_the_first_fault (book : Workbook) :
    (∀ store, ofWorkbook book = .ok store ↔
      store = { book } ∧ ∀ name t, book.get? name = some t →
        t.columns ≠ [] ∧ ∀ row ∈ t.rows, row.length = t.columns.length) ∧
      ∀ name fault,
        ((ofWorkbook book).mapError fun (name, fault) => fault.message name) =
            .error (fault.message name) ↔
          book.FirstFault name fault := by
  refine ⟨fun store => ofWorkbook_eq_ok_iff, ?_⟩
  intro name fault
  rw [← ofWorkbook_eq_error_iff]
  cases checked : ofWorkbook book with
  | ok store => simp [Except.mapError]
  | error refused => simp [Except.mapError, ShapeFault.message_inj, Prod.ext_iff]

/-- The name of the first table at fault is the smaller one in bytes, though not in code units of 16
bits, and two of its rows are too short. The other one has no columns. -/
theorem workbooks_are_refused_for_the_first_fault_of_three :
    let ragged : Table := { columns := ["id", "name"], rows := [["1", "x"], ["2"], []] }
    let book := Workbook.ofList [("😀", { columns := [], rows := [["1"]] }), ("｡", ragged),
      ("a", { columns := ["id", "id"], rows := [["1", "1"]] })]
    book.FirstFault "｡" (.rowLength 2 1 2) ∧
      ((ofWorkbook book).mapError fun (name, fault) => fault.message name) =
        .error "｡: 2行目の列数が一致しません（1 列 / 期待値 2 列）" ∧
      ¬∃ store, ofWorkbook book = .ok store := by
  intro ragged book
  obtain ⟨accepts, refuses⟩ := workbooks_are_refused_for_the_first_fault book
  have known : book.get? "｡" = some ragged := by decide +kernel
  have least : ∀ entry ∈ book.entries, ¬entry.2.Rectangular →
      "｡".toUTF8.data.toList ≤ entry.1.toUTF8.data.toList := by
    decide +kernel
  have misfit : ragged.FirstFault (.rowLength 2 1 2) :=
    @Table.FirstFault.rowLength ragged [["1", "x"]] [[]] ["2"] (by decide) rfl (by decide)
      (by decide)
  have first : book.FirstFault "｡" (.rowLength 2 1 2) :=
    ⟨ragged, known, misfit, fun _ _ there => least _ (Workbook.get?_eq_some_iff.1 there)⟩
  refine ⟨first, (refuses _ _).2 first, ?_⟩
  rintro ⟨store, accepted⟩
  exact absurd (((accepts store).1 accepted).2 "｡" ragged known) (by decide)

end Store

end TableShell
