import TableShell.Store
import TableShell.Table.CopyRow

/-!
# Copying rows in a store

## Main definitions

- `Store.copyInFile`: the copy of a row in one file
- `Store.copy`: the copy of a row in each of a list of files
-/

namespace TableShell.Store

/-- Copy a row in one file. -/
def copyInFile (keyColumn source target : String) (store : Store) (file : String) :
    Except Fault (Store × Note) :=
  match store.book.get? file with
  | none => .ok (store, .skipped (.unknownFile file))
  | some t =>
    match t.columnIndex? keyColumn with
    | none => .ok (store, .skipped (.unknownColumn file keyColumn))
    | some key =>
      match t.copyRow key source target with
      | .error fault => .error (.access fault)
      | .ok none => .ok (store, .skipped (.noSourceRow file source))
      | .ok (some t) => .ok (store.setTable file t, .copied file source target)

/-- Copy a row in each of a list of files. It fails if there are files and none of them has a
row to copy. -/
def copy (store : Store) (keyColumn source target : String) (files : List String) : Outcome :=
  let done := store.overFiles (copyInFile keyColumn source target) files
  if done.failure? = none ∧ files ≠ [] ∧ !done.notes.any Note.isCopied then
    { done with failure? := some (.noSourceRows source) }
  else
    done

end TableShell.Store
