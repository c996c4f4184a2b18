import TableShell.Proofs.Store.Copy
import TableShell.Proofs.Store.Update
import TableShell.Store.Engine

/-!
# Requests as functions on tables

Whatever a request is, it applies one function to the table of each of its files
(`store_perform`), and none of these functions touches the columns of a table or takes a row away
(`extends_edit`).

## Main definitions

- `Request.edit`: what a request does to a table
- `Table.Extends`: the same columns and no fewer rows
- `Fault.isDefect`, `Outcome.faults`: the faults of a request, and those that no request has
-/

namespace TableShell

namespace Table

/-- A table with the same columns and at least as many rows. -/
def Extends (t u : Table) : Prop :=
  u.columns = t.columns ∧ t.rows.length ≤ u.rows.length

theorem Extends.refl (t : Table) : t.Extends t :=
  ⟨rfl, Nat.le_refl _⟩

theorem Extends.trans {t u v : Table} (first : t.Extends u) (second : u.Extends v) :
    t.Extends v :=
  ⟨second.1.trans first.1, Nat.le_trans first.2 second.2⟩

theorem extends_updated {keyColumn? : Option String} {old new : Chunk} (t : Table) :
    t.Extends (t.updated keyColumn? old new) :=
  ⟨columns_updated, Nat.le_of_eq length_rows_updated.symm⟩

theorem extends_copied {keyColumn source target : String} (t : Table) :
    t.Extends (t.copied keyColumn source target) := by
  refine ⟨columns_copied, ?_⟩
  cases found : t.columnIndex? keyColumn with
  | none =>
    have same : t.copied keyColumn source target = t := copied_of_none found
    exact Nat.le_of_eq (congrArg (·.rows.length) same.symm)
  | some key =>
    have kept : t.rows.map (·[key]?) <+: (copyRows key source target t.rows).map (·[key]?) :=
      keyCells_prefix_copyRows
    rw [copied_of_some found]
    simpa using kept.length_le

end Table

/-- What a request does to the table of each of its files. -/
def Request.edit (keyColumn? : Option String) : Request → Table → Table
  | .search _ => id
  | .update old new =>
    if Substitution.isBalanced ⟨old.values, new.values⟩ then Table.updated keyColumn? old new
    else id
  | .copy keyColumn source target => Table.copied keyColumn source target

theorem Request.extends_edit (keyColumn? : Option String) (request : Request) (t : Table) :
    t.Extends (request.edit keyColumn? t) := by
  cases request with
  | search target => exact .refl t
  | update old new =>
    rw [edit]
    split
    · exact t.extends_updated
    · exact .refl t
  | copy keyColumn source target => exact t.extends_copied

theorem Request.rectangular_edit {keyColumn? : Option String} {request : Request} {t : Table}
    (shape : t.Rectangular) : (request.edit keyColumn? t).Rectangular := by
  cases request with
  | search target => exact shape
  | update old new =>
    rw [edit]
    split
    · exact shape.updated
    · exact shape
  | copy keyColumn source target => exact shape.copied

namespace Store

open Workbook (modifyAll)

variable {store : Store}

theorem modifyAll_id (book : Workbook) (files : List String) : modifyAll id book files = book := by
  apply Workbook.ext_get?
  intro name
  rw [Workbook.get?_modifyAll, Function.iterate_id, Option.map_id]
  rfl

/-- A request on rectangular tables applies one function to the table of each of its files. -/
theorem store_perform (shape : store.book.Rectangular) (request : Request) (files : List String) :
    (store.perform request files).store =
      { store with book := modifyAll (request.edit store.keyColumn?) store.book files } := by
  cases request with
  | search target =>
    rw [Request.edit, modifyAll_id]
    rfl
  | update old new =>
    rw [perform, Request.edit]
    split
    next balanced => rw [update_eq_modifyAll balanced shape]
    -- An unbalanced update is refused before any file is looked at.
    next unbalanced => rw [update_of_not_balanced unbalanced, modifyAll_id]
  | copy keyColumn source target =>
    rw [perform, copy_eq_modifyAll shape]
    rfl

theorem rectangular_perform (shape : store.book.Rectangular) (request : Request)
    (files : List String) : (store.perform request files).store.book.Rectangular := by
  rw [store_perform shape]
  exact shape.modifyAll (fun t sound => Request.rectangular_edit sound) files

/-- No request adds, removes or renames a file. -/
theorem select_perform (shape : store.book.Rectangular) (request : Request) (files : List String)
    (scope : String) : (store.perform request files).store.select scope = store.select scope := by
  rw [store_perform shape]
  exact Workbook.select_congr (Workbook.names_modifyAll _ _ _) scope

/-! ### Faults -/

/-- Whether a fault is one that the program should never meet: something is looked up that is not
there, or no column identifies the rows. -/
def Fault.isDefect : Fault → Bool
  | noKeyColumn => true
  | access _ => true
  | _ => false

/-- The fault for which a file was skipped. -/
def Note.fault? : Note → Option Fault
  | skipped fault => some fault
  | _ => none

/-- All faults of a request: those for which files were skipped and the one with which the request
failed. -/
def Outcome.faults (outcome : Outcome) : List Fault :=
  outcome.notes.filterMap Note.fault? ++ outcome.failure?.toList

/-- Whether a note is free of defects. -/
def Note.isSound (note : Note) : Bool :=
  note.fault?.all (! ·.isDefect)

private theorem isSound_updateNote {keyColumn? : Option String} {old new : Chunk} {book : Workbook}
    (shape : book.Rectangular) (file : String) :
    (updateNote keyColumn? old new book file).isSound := by
  rw [updateNote]
  split
  next => rfl
  next t found =>
    split
    next unresolved =>
      have empty : t.columns.head? = none := by simp_all [Option.or_eq_none_iff]
      exact absurd (List.head?_eq_none_iff.1 empty) (shape found).1
    next =>
      simp only
      split
      · rfl
      · rfl

private theorem isSound_copyNote {keyColumn source target : String} (book : Workbook)
    (file : String) :
    (copyNote keyColumn source target book file).isSound := by
  rw [copyNote]
  split
  · rfl
  · split
    · rfl
    · split
      · rfl
      · rfl

theorem isDefect_of_findRows {file : String} {target : Chunk} {fault : Fault}
    (shape : store.book.Rectangular) (failed : store.findRows file target = .error fault) :
    fault.isDefect = false := by
  cases found : store.book.get? file with
  | none =>
    rw [findRows, found] at failed
    obtain rfl : Fault.unknownFile file = fault := Except.error.inj failed
    rfl
  | some t =>
    obtain ⟨column, resolved⟩ := exists_column?_eq_some (shape found) store target.column?
    cases atColumn : t.columnIndex? column with
    | none =>
      simp only [findRows, found, resolved, atColumn] at failed
      obtain rfl : Fault.unknownColumn file column = fault := Except.error.inj failed
      rfl
    | some index =>
      simp only [findRows, found, resolved, atColumn] at failed
      cases failed

private theorem isSound_searchFile (shape : store.book.Rectangular) (target : Chunk)
    (file : String) :
    (store.searchFile target file).isSound := by
  rw [searchFile]
  split
  next => rfl
  next fault failed => simp [Note.isSound, Note.fault?, isDefect_of_findRows shape failed]

/-- No request on rectangular tables meets a defect. -/
theorem isDefect_of_mem_faults {request : Request} {files : List String} {fault : Fault}
    (shape : store.book.Rectangular) (met : fault ∈ (store.perform request files).faults) :
    fault.isDefect = false := by
  -- A sound note gives no defect, so what is left are the notes and the failure of each request.
  suffices parts : (∀ note ∈ (store.perform request files).notes, note.isSound) ∧
      ∀ failure ∈ (store.perform request files).failure?, failure.isDefect = false by
    rcases List.mem_append.1 met with skipped | failed
    · obtain ⟨note, member, isFault⟩ := List.mem_filterMap.1 skipped
      simpa [Note.isSound, isFault] using parts.1 note member
    · exact parts.2 fault (Option.mem_toList.1 failed)
  cases request with
  | search target =>
    constructor
    · intro note member
      obtain ⟨file, -, rfl⟩ := List.mem_map.1 member
      exact isSound_searchFile shape target file
    · intro failure failed
      cases failed
  | update old new =>
    by_cases balanced : Substitution.isBalanced ⟨old.values, new.values⟩
    · rw [perform, update_eq_modifyAll balanced shape]
      constructor
      · exact forall_mem_notesOver (fun t sound => sound.updated)
          (fun book sound file => isSound_updateNote sound file) shape files
      · intro failure failed
        cases failed
    · rw [perform, update_of_not_balanced balanced]
      constructor
      · intro note member
        cases member
      · rintro failure ⟨⟩
        rfl
  | copy keyColumn source target =>
    rw [perform, copy_eq_modifyAll shape]
    constructor
    · exact forall_mem_notesOver (fun t sound => sound.copied)
        (fun book _ file => isSound_copyNote book file) shape files
    · intro failure failed
      simp only at failed
      split at failed
      · cases failed
        rfl
      · cases failed

end Store

end TableShell
