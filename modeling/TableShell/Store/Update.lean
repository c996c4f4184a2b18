import TableShell.Store
import TableShell.Table.Substitute

/-!
# Updating a store

## Main definitions

- `Store.updateFile`: an update of one file
- `Store.update`: an update of a list of files
-/

namespace TableShell.Store

/-- Update one file. Without a column of its own the new chunk is written to the column of the
old one. -/
def updateFile (old new : Chunk) (store : Store) (file : String) :
    Except Fault (Store × Note) :=
  match store.book.get? file with
  | none => .ok (store, .skipped (.unknownFile file))
  | some t =>
    match store.column? t old.column? with
    | none => .error .noKeyColumn
    | some oldColumn =>
      let newColumn := new.column?.getD oldColumn
      match t.columnIndex? oldColumn, t.columnIndex? newColumn with
      | some source, some target =>
        match t.substitute ⟨old.values, new.values⟩ source target with
        | .error fault => .error (.access fault)
        | .ok (t, count) => .ok (store.setTable file t, .updated file count)
      | _, _ => .ok (store, .skipped (.unknownColumns file oldColumn newColumn))

/-- Update a list of files, provided that there is a single new value or one for each old
value. -/
def update (store : Store) (old new : Chunk) (files : List String) : Outcome :=
  if Substitution.isBalanced ⟨old.values, new.values⟩ then
    store.overFiles (updateFile old new) files
  else
    { store, failure? := some (.valueCount old.values.length new.values.length) }

end TableShell.Store
