import TableShell.Engine
import TableShell.Store.Copy
import TableShell.Store.Search
import TableShell.Store.Update

/-!
# The engine of a store

Requests as an engine gets them, carried out on a store. The notes are printed unless the
store is quiet.
-/

namespace TableShell.Store

/-- Carry out a request. -/
def perform (store : Store) : Request → List String → Outcome
  | .search target, files => store.search target files
  | .update old new, files => store.update old new files
  | .copy keyColumn source target, files => store.copy keyColumn source target files

/-- What is printed of an outcome. -/
def Outcome.lines (outcome : Outcome) : List String :=
  if outcome.store.quiet then [] else outcome.notes.flatMap Note.lines

/-- What the engine answers. -/
def Outcome.reply (outcome : Outcome) : Reply Store :=
  { state := outcome.store
    lines := outcome.lines
    failure? := outcome.failure?.map Fault.message }

/-- The files that a scope text stands for. -/
def select (store : Store) (text : String) : List String :=
  store.book.select text

/-- The names of all files. -/
def allFiles (store : Store) : List String :=
  store.select Scope.allWord

/-- Requests are carried out on the tables of a store. -/
def engine : Engine Store where
  select := select
  perform store request files := (store.perform request files).reply

end TableShell.Store
