import TableShell.Engine
import TableShell.Text.Words

/-!
# Rehearsals

An engine that has no tables. It writes each request down and does nothing else.

## Main definitions

- `Request.describe`: a request in one line
- `Rehearsal`: the requests written down so far
- `Rehearsal.engine`: the engine that writes requests down
-/

namespace TableShell

/-- A chunk as `column=value,value`. -/
def Chunk.describe (chunk : Chunk) : String :=
  chunk.column?.getD "<key>" ++ "=" ++ ",".intercalate chunk.values

/-- A request, and the files it is made on, in one line. -/
def Request.describe (request : Request) (files : List String) : String :=
  let scope := " [" ++ " ".intercalate files ++ "]"
  match request with
  | search target => "search " ++ target.describe ++ scope
  | update old new => "update " ++ old.describe ++ " -> " ++ new.describe ++ scope
  | copy keyColumn source target =>
    "copy " ++ keyColumn ++ ":" ++ source ++ " -> " ++ keyColumn ++ ":" ++ target ++ scope

/-- The requests written down so far. -/
structure Rehearsal where
  /-- The descriptions of the requests, the latest one first. -/
  latestFirst : List String := []
  quiet : Bool := false
deriving DecidableEq, Repr, Inhabited

namespace Rehearsal

/-- The descriptions of the requests, in the order in which they were made. -/
def recorded (rehearsal : Rehearsal) : List String :=
  rehearsal.latestFirst.reverse

/-- The line that is printed for a request. -/
def line (description : String) : String :=
  "🔍 [dry-run] " ++ description

/-- Requests are written down, each word of a scope text being taken for a file. -/
def engine : Engine Rehearsal where
  select _ scope := Text.words scope
  perform rehearsal request files :=
    let description := request.describe files
    { state := { rehearsal with latestFirst := description :: rehearsal.latestFirst }
      lines := if rehearsal.quiet then [] else [line description] }

end Rehearsal

end TableShell
