import TableShell.Proofs.Store.Files
import TableShell.Proofs.Table.Substitute
import TableShell.Store.Update

/-!
# Updates as functions on tables

An update applies one function to the table of each file (`update_eq_modifyAll`): `Table.updated`
rewrites the rows of a table in which both columns exist and keeps any other table.
-/

namespace TableShell

namespace Table

variable {keyColumn? : Option String} {old new : Chunk} {t : Table}

/-- The places of the column that an update reads and of the one that it writes. The old column
is the one that is named, or else the key column, or else the first column; the new one is the one
that is named, or else the old one. -/
def updatePlaces? (keyColumn? : Option String) (old new : Chunk) (t : Table) :
    Option (Nat × Nat) := do
  let column ← old.column?.or (keyColumn?.or t.columns.head?)
  let source ← t.columnIndex? column
  let target ← t.columnIndex? (new.column?.getD column)
  return (source, target)

theorem updatePlaces?_eq_some_iff {source target : Nat} :
    t.updatePlaces? keyColumn? old new = some (source, target) ↔
      ∃ column, old.column?.or (keyColumn?.or t.columns.head?) = some column ∧
        t.columnIndex? column = some source ∧
        t.columnIndex? (new.column?.getD column) = some target := by
  simp only [updatePlaces?, Option.bind_eq_bind, Option.bind_eq_some_iff, Option.pure_def,
    Option.some.injEq, Prod.mk.injEq]
  constructor
  · rintro ⟨column, resolved, i, atSource, j, atTarget, rfl, rfl⟩
    exact ⟨column, resolved, atSource, atTarget⟩
  · rintro ⟨column, resolved, atSource, atTarget⟩
    exact ⟨column, resolved, source, atSource, target, atTarget, rfl, rfl⟩

theorem lt_of_updatePlaces? {source target : Nat}
    (found : t.updatePlaces? keyColumn? old new = some (source, target)) :
    source < t.columns.length ∧ target < t.columns.length := by
  obtain ⟨column, -, atSource, atTarget⟩ := updatePlaces?_eq_some_iff.1 found
  exact ⟨lt_of_columnIndex? atSource, lt_of_columnIndex? atTarget⟩

/-- The table after an update. -/
def updated (keyColumn? : Option String) (old new : Chunk) (t : Table) : Table :=
  match t.updatePlaces? keyColumn? old new with
  | some (source, target) =>
    { t with rows := t.rows.map (rewriteRow ⟨old.values, new.values⟩ source target) }
  | none => t

@[simp] theorem columns_updated : (t.updated keyColumn? old new).columns = t.columns := by
  rw [updated]
  split
  · rfl
  · rfl

@[simp] theorem length_rows_updated :
    (t.updated keyColumn? old new).rows.length = t.rows.length := by
  rw [updated]
  split
  · exact List.length_map _
  · rfl

theorem Rectangular.updated (shape : t.Rectangular) :
    (t.updated keyColumn? old new).Rectangular := by
  rw [Rectangular, columns_updated]
  refine ⟨shape.1, ?_⟩
  intro row member
  rw [Table.updated] at member
  split at member
  · obtain ⟨original, there, rfl⟩ := List.mem_map.1 member
    rw [length_rewriteRow]
    exact shape.2 original there
  · exact shape.2 row member

end Table

namespace Store

open Workbook (modify modifyAll)

variable {old new : Chunk}

/-- What an update says about a file. -/
def updateNote (keyColumn? : Option String) (old new : Chunk) (book : Workbook) (file : String) :
    Note :=
  match book.get? file with
  | none => .skipped (.unknownFile file)
  | some t =>
    match old.column?.or (keyColumn?.or t.columns.head?) with
    | none => .skipped .noKeyColumn
    | some oldColumn =>
      let newColumn := new.column?.getD oldColumn
      match t.columnIndex? oldColumn, t.columnIndex? newColumn with
      | some source, some _ => .updated file (t.hits ⟨old.values, new.values⟩ source)
      | _, _ => .skipped (.unknownColumns file oldColumn newColumn)

theorem column?_eq_or (store : Store) (t : Table) (named? : Option String) :
    store.column? t named? = named?.or (store.keyColumn?.or t.columns.head?) := by
  simp [column?]

theorem exists_column?_eq_some {t : Table} (shape : t.Rectangular) (store : Store)
    (named? : Option String) : ∃ column, store.column? t named? = some column := by
  obtain ⟨first, rest, columns⟩ := List.exists_cons_of_ne_nil shape.1
  rw [column?, columns]
  cases named? with
  | some column => exact ⟨column, rfl⟩
  | none =>
    cases store.keyColumn? with
    | some column => exact ⟨column, rfl⟩
    | none => exact ⟨first, rfl⟩

theorem updateFile_eq_ok (balanced : Substitution.isBalanced ⟨old.values, new.values⟩)
    {store : Store} (shape : store.book.Rectangular) (file : String) :
    updateFile old new store file =
      .ok ({ store with book := modify (Table.updated store.keyColumn? old new) store.book file },
        updateNote store.keyColumn? old new store.book file) := by
  cases found : store.book.get? file with
  | none =>
    rw [updateFile, updateNote, found, Workbook.modify_of_none found]
  | some t =>
    obtain ⟨oldColumn, column⟩ := exists_column?_eq_some (shape found) store old.column?
    have resolved : old.column?.or (store.keyColumn?.or t.columns.head?) = some oldColumn := by
      rw [← column?_eq_or, column]
    simp only [updateFile, updateNote, found, column, resolved]
    -- Without one of the two columns the file is skipped, and `updated` keeps its table.
    cases atSource : t.columnIndex? oldColumn with
    | none =>
      have kept : t.updated store.keyColumn? old new = t := by
        simp [Table.updated, Table.updatePlaces?, resolved, atSource]
      rw [Workbook.modify_of_fixed found kept]
    | some source =>
      cases atTarget : t.columnIndex? (new.column?.getD oldColumn) with
      | none =>
        have kept : t.updated store.keyColumn? old new = t := by
          simp [Table.updated, Table.updatePlaces?, resolved, atSource, atTarget]
        rw [Workbook.modify_of_fixed found kept]
      | some target =>
        have written : t.updated store.keyColumn? old new =
            { t with
              rows := t.rows.map (Table.rewriteRow ⟨old.values, new.values⟩ source target) } := by
          simp [Table.updated, Table.updatePlaces?, resolved, atSource, atTarget]
        rw [Workbook.modify_of_some found, written]
        simp only [Table.substitute_eq_ok balanced (shape found)
          (Table.lt_of_columnIndex? atSource) (Table.lt_of_columnIndex? atTarget), setTable]

/-- With balanced values an update of rectangular tables succeeds and applies `Table.updated` to
the table of each file. -/
theorem update_eq_modifyAll (balanced : Substitution.isBalanced ⟨old.values, new.values⟩)
    {store : Store} (shape : store.book.Rectangular) (files : List String) :
    store.update old new files =
      { store := { store with
          book := modifyAll (Table.updated store.keyColumn? old new) store.book files }
        notes := notesOver (Table.updated store.keyColumn? old new)
          (updateNote store.keyColumn? old new) store.book files } := by
  rw [update, if_pos balanced]
  apply overFiles_eq_modifyAll
  · intro t sound
    exact sound.updated
  · intro book sound file
    have sound' : { store with book }.book.Rectangular := sound
    exact updateFile_eq_ok balanced sound' file
  · exact shape

theorem update_of_not_balanced (unbalanced : ¬Substitution.isBalanced ⟨old.values, new.values⟩)
    (store : Store) (files : List String) :
    store.update old new files =
      { store, failure? := some (.valueCount old.values.length new.values.length) } := by
  rw [update, if_neg unbalanced]

/-- Whether an update fails depends on its values alone. -/
theorem failure?_update {store : Store} (shape : store.book.Rectangular) (files : List String) :
    (store.update old new files).failure? =
      if Substitution.isBalanced ⟨old.values, new.values⟩ then none
      else some (.valueCount old.values.length new.values.length) := by
  split
  next balanced => rw [update_eq_modifyAll balanced shape]
  next unbalanced => rw [update_of_not_balanced unbalanced]

end Store

end TableShell
