import TableShell.Command
import TableShell.Engine

/-!
# Reports and transcripts

What happens in a session, as data: the reports that it makes to the user, the requests
that it hands to the engine, the lines that the engine prints, and prompts. How any of it
looks on a console is said in `TableShell.Console`.

## Main definitions

- `Report`: something that a session tells the user
- `Entry`, `Transcript`: everything that happens in a session, in order
-/

namespace TableShell

/-- Something that a session tells the user. -/
inductive Report where
  | searching (target : Chunk)
  | updating (old new : Chunk)
  | copying (source target : String)
  /-- A text was taken literally. -/
  | warning (warning : Warning)
  /-- A command or a request failed. -/
  | failure (error : CommandError)
  | help
  /-- An empty screen was asked for. -/
  | clear
deriving DecidableEq, Repr

/-- The report of the warning that goes with a value, if any. -/
def Warned.reports {α : Type} (read : Warned α) : List Report :=
  (read.warning?.map .warning).toList

/-- One thing that happens in a session. -/
inductive Entry where
  /-- The user is told something. -/
  | report (report : Report)
  /-- The engine gets a request. -/
  | request (request : Request) (files : List String)
  /-- The engine, or the program itself, prints a line. -/
  | line (text : String)
  /-- Text of the dialogue, without a newline of its own. -/
  | prompt (text : String)
deriving DecidableEq, Repr

/-- Everything that happens in a session, in order. -/
abbrev Transcript := List Entry

/-- The reports of a transcript. -/
def Transcript.reports (transcript : Transcript) : List Report :=
  transcript.filterMap fun
    | .report report => some report
    | _ => none

/-- The requests of a transcript, each with the files it was made on. -/
def Transcript.requests (transcript : Transcript) : List (Request × List String) :=
  transcript.filterMap fun
    | .request request files => some (request, files)
    | _ => none

/-- The text of the dialogue in a transcript. -/
def Transcript.prompts (transcript : Transcript) : String :=
  String.join (transcript.filterMap fun
    | .prompt text => some text
    | _ => none)

end TableShell
