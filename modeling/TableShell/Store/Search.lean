import TableShell.Store

/-!
# Searching a store

## Main definitions

- `Store.findRows`: the rows of a file that a chunk selects
- `Store.search`: a note on the rows that are found in each file
-/

namespace TableShell.Store

/-- The rows of a file with one of the values of a chunk in its column. -/
def findRows (store : Store) (file : String) (target : Chunk) : Except Fault (List Row) := do
  let some t := store.book.get? file | throw (.unknownFile file)
  let some column := store.column? t target.column? | throw .noKeyColumn
  let some index := t.columnIndex? column | throw (.unknownColumn file column)
  return t.matchingRows index target.values

/-- What a search says about a file. -/
def searchFile (store : Store) (target : Chunk) (file : String) : Note :=
  match store.findRows file target with
  | .ok rows => .found file ((store.book.get? file).elim [] Table.columns) rows
  | .error fault => .skipped fault

/-- A search leaves the store as it is and does not fail. -/
def search (store : Store) (target : Chunk) (files : List String) : Outcome :=
  { store, notes := files.map (store.searchFile target) }

end TableShell.Store
