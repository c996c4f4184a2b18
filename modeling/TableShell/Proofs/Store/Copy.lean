import TableShell.Proofs.Store.Files
import TableShell.Proofs.Table.CopyRow
import TableShell.Store.Copy

/-!
# Copies as functions on tables

A copy applies one function to the table of each file, `Table.copied`, and it fails exactly if
there are files and none of them offers a row with the source key (`copy_eq_modifyAll`).
-/

namespace TableShell

namespace Table

variable {keyColumn source target value : String} {t : Table}

/-- The table after the copy of a row. -/
def copied (keyColumn source target : String) (t : Table) : Table :=
  match t.columnIndex? keyColumn with
  | some key => { t with rows := copyRows key source target t.rows }
  | none => t

theorem copied_of_some {key : Nat} (found : t.columnIndex? keyColumn = some key) :
    t.copied keyColumn source target = { t with rows := copyRows key source target t.rows } := by
  rw [copied, found]

theorem copied_of_none (unknown : t.columnIndex? keyColumn = none) :
    t.copied keyColumn source target = t := by
  rw [copied, unknown]

@[simp] theorem columns_copied : (t.copied keyColumn source target).columns = t.columns := by
  rw [copied]
  split
  · rfl
  · rfl

theorem columnIndex?_copied (column : String) :
    (t.copied keyColumn source target).columnIndex? column = t.columnIndex? column := by
  rw [columnIndex?_of_columns columns_copied]

/-- A copy that is made again changes nothing. -/
theorem copied_copied :
    (t.copied keyColumn source target).copied keyColumn source target =
      t.copied keyColumn source target := by
  cases found : t.columnIndex? keyColumn with
  | none => rw [copied_of_none found, copied_of_none found]
  | some key =>
    have found' : (t.copied keyColumn source target).columnIndex? keyColumn = some key := by
      rw [columnIndex?_copied, found]
    rw [copied_of_some found', columns_copied, copied_of_some found, copyRows_copyRows]

theorem Rectangular.copied (shape : t.Rectangular) :
    (t.copied keyColumn source target).Rectangular := by
  rw [Rectangular, columns_copied]
  refine ⟨shape.1, ?_⟩
  intro row member
  rw [Table.copied] at member
  split at member
  · exact length_of_mem_copyRows shape.2 member
  · exact shape.2 row member

/-- Whether there is a row to copy: the table has the key column and a row with the key. -/
def offers (keyColumn source : String) (t : Table) : Bool :=
  match t.columnIndex? keyColumn with
  | some key => (t.rows.find? (hasKey key source)).isSome
  | none => false

theorem offers_iff : t.offers keyColumn source ↔
    ∃ key, t.columnIndex? keyColumn = some key ∧ ∃ row ∈ t.rows, row[key]? = some source := by
  rw [offers]
  cases t.columnIndex? keyColumn with
  | none => simp
  | some key => simp [hasKey_iff]

/-- Without a row to copy a table stays as it is. -/
theorem copied_of_not_offers (nothing : ¬t.offers keyColumn source) :
    t.copied keyColumn source target = t := by
  rw [offers] at nothing
  cases found : t.columnIndex? keyColumn with
  | none => exact copied_of_none found
  | some key =>
    rw [found, Option.not_isSome_iff_eq_none] at nothing
    rw [copied_of_some found, copyRows_of_none nothing]

/-- A copy neither takes away nor adds a row with a key other than its target. -/
theorem offers_copied_of_ne (ne : value ≠ target) :
    (t.copied keyColumn source target).offers keyColumn value = t.offers keyColumn value := by
  rw [offers, offers, columnIndex?_copied]
  cases found : t.columnIndex? keyColumn with
  | none => rfl
  | some key =>
    rw [copied_of_some found]
    simp only [find?_copyRows ne]

/-- After a copy there is a row to copy if there was one before. -/
theorem offers_copied_source :
    (t.copied keyColumn source target).offers keyColumn source = t.offers keyColumn source := by
  by_cases eq : source = target
  · subst eq
    rw [offers, offers, columnIndex?_copied]
    cases found : t.columnIndex? keyColumn with
    | none => rfl
    | some key =>
      rw [copied_of_some found]
      simp only
      cases made : copyOf? key source source t.rows with
      | none => rw [copyRows_of_none (copyOf?_eq_none_iff.1 made)]
      | some row =>
        have there : (t.rows.find? (hasKey key source)).isSome := by
          rw [← Option.isSome_map (f := (·.set key source))]
          exact Option.isSome_of_eq_some made
        -- The row may have given its place to the copy, which has the same key then.
        rw [copyRows_of_some made, there, List.find?_isSome]
        exact ⟨row, mem_placeRow, hasKey_of_copyOf? made⟩
  · exact offers_copied_of_ne eq

end Table

namespace Store

open Workbook (modify modifyAll)

variable {keyColumn source target : String} {store : Store}

/-- What a copy says about a file. -/
def copyNote (keyColumn source target : String) (book : Workbook) (file : String) : Note :=
  match book.get? file with
  | none => .skipped (.unknownFile file)
  | some t =>
    match t.columnIndex? keyColumn with
    | none => .skipped (.unknownColumn file keyColumn)
    | some key =>
      if (t.rows.find? (Table.hasKey key source)).isSome then .copied file source target
      else .skipped (.noSourceRow file source)

private theorem isCopied_copyNote (book : Workbook) (file : String) :
    (copyNote keyColumn source target book file).isCopied =
      (book.get? file).any (Table.offers keyColumn source) := by
  rw [copyNote]
  cases book.get? file with
  | none => rfl
  | some t =>
    simp only [Option.any_some, Table.offers]
    cases t.columnIndex? keyColumn with
    | none => rfl
    | some key =>
      simp only
      split
      next there => rw [there]; rfl
      next not_there => rw [Bool.not_eq_true] at not_there; rw [not_there]; rfl

theorem copyInFile_eq_ok (shape : store.book.Rectangular) (file : String) :
    copyInFile keyColumn source target store file =
      .ok ({ store with book := modify (Table.copied keyColumn source target) store.book file },
        copyNote keyColumn source target store.book file) := by
  cases found : store.book.get? file with
  | none =>
    rw [copyInFile, copyNote, found, Workbook.modify_of_none found]
  | some t =>
    simp only [copyInFile, copyNote, found]
    cases atKey : t.columnIndex? keyColumn with
    | none =>
      rw [Workbook.modify_of_fixed found (Table.copied_of_none atKey)]
    | some key =>
      simp only [Table.copyRow_eq_ok (shape found) (Table.lt_of_columnIndex? atKey)]
      cases original : t.rows.find? (Table.hasKey key source) with
      | none =>
        have kept : t.copied keyColumn source target = t := by
          rw [Table.copied_of_some atKey, Table.copyRows_of_none original]
        rw [Workbook.modify_of_fixed found kept, Table.copyOf?_eq_none_iff.2 original]
        rfl
      | some row =>
        have made : Table.copyOf? key source target t.rows = some (row.set key target) := by
          rw [Table.copyOf?, original, Option.map_some]
        rw [Workbook.modify_of_some found, Table.copied_of_some atKey,
          Table.copyRows_of_some made, made]
        rfl

/-- Whether some of the files have a row to copy. -/
def offersIn (store : Store) (files : List String) (keyColumn source : String) : Bool :=
  files.any fun file => (store.book.get? file).any (Table.offers keyColumn source)

private theorem any_isCopied_notesOver (keyColumn source target : String) (store : Store)
    (files : List String) :
    (notesOver (Table.copied keyColumn source target) (copyNote keyColumn source target) store.book
      files).any Note.isCopied = store.offersIn files keyColumn source := by
  rw [any_notesOver]
  · simp only [isCopied_copyNote, offersIn]
  · intro book file other
    rw [isCopied_copyNote, isCopied_copyNote, Workbook.get?_modify]
    split
    · rw [Option.any_map]
      simp only [Table.offers_copied_source]
    · rfl

/-- A copy in rectangular tables applies `Table.copied` to the table of each file. It fails if
there are files and none of them has a row to copy before the first of them is touched. -/
theorem copy_eq_modifyAll (shape : store.book.Rectangular) (files : List String) :
    store.copy keyColumn source target files =
      { store := { store with
          book := modifyAll (Table.copied keyColumn source target) store.book files }
        notes := notesOver (Table.copied keyColumn source target)
          (copyNote keyColumn source target) store.book files
        failure? :=
          if files ≠ [] ∧ ¬store.offersIn files keyColumn source then some (.noSourceRows source)
          else none } := by
  have overAll : store.overFiles (copyInFile keyColumn source target) files =
      { store := { store with
          book := modifyAll (Table.copied keyColumn source target) store.book files }
        notes := notesOver (Table.copied keyColumn source target)
          (copyNote keyColumn source target) store.book files } := by
    apply overFiles_eq_modifyAll
    · intro t sound
      exact sound.copied
    · intro book sound file
      have sound' : { store with book }.book.Rectangular := sound
      exact copyInFile_eq_ok sound' file
    · exact shape
  rw [copy, overAll]
  simp only [any_isCopied_notesOver, true_and, Bool.not_eq_eq_eq_not, Bool.not_true,
    Bool.not_eq_true]
  split
  · rfl
  · rfl

/-- A copy fails if there are files and none of them has a row to copy. -/
theorem failure?_copy (shape : store.book.Rectangular) (files : List String) :
    (store.copy keyColumn source target files).failure? =
      if files ≠ [] ∧ ¬store.offersIn files keyColumn source then some (.noSourceRows source)
      else none := by
  rw [copy_eq_modifyAll shape]

/-- A question whether there are rows to copy that a copy of one table does not change is not
changed by a copy in several files either. -/
theorem offersIn_copy_of_stable {value : String} (shape : store.book.Rectangular)
    (stable : ∀ t : Table, (t.copied keyColumn source target).offers keyColumn value =
      t.offers keyColumn value) (copied files : List String) :
    (store.copy keyColumn source target copied).store.offersIn files keyColumn value =
      store.offersIn files keyColumn value := by
  rw [copy_eq_modifyAll shape, offersIn, offersIn]
  congr 1
  funext file
  rw [Workbook.get?_modifyAll, Option.any_map]
  congr 1
  funext t
  -- A file that is listed several times gets as many copies, none of which changes the answer.
  exact Function.Iterate.rec
    (fun u => Table.offers keyColumn value u = Table.offers keyColumn value t) rfl
    (fun u same => (stable u).trans same) _

/-- A copy neither takes away nor adds a row to copy for a key other than its target. -/
theorem offersIn_copy {value : String} (shape : store.book.Rectangular) (ne : value ≠ target)
    (copied files : List String) :
    (store.copy keyColumn source target copied).store.offersIn files keyColumn value =
      store.offersIn files keyColumn value :=
  offersIn_copy_of_stable shape (fun _ => Table.offers_copied_of_ne ne) copied files

/-- After a copy there is a row to copy from its source if there was one before. -/
theorem offersIn_copy_source (shape : store.book.Rectangular) (copied files : List String) :
    (store.copy keyColumn source target copied).store.offersIn files keyColumn source =
      store.offersIn files keyColumn source :=
  offersIn_copy_of_stable shape (fun _ => Table.offers_copied_source) copied files

end Store

end TableShell
