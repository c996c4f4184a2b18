import TableShell.Command.Reader
import TableShell.Plan
import TableShell.Text.Utf8

/-!
# Sessions

A session takes one line after the other until a line has an exit word. It runs over a
list of lines (`runLines`) or, with a prompt before each line, over a sequence of bytes
(`interact`).

## Main definitions

- `Command.execute`: follow the plan of a command
- `process`: classify the words of a line and execute the command
- `runLines`: a session over a list of lines
- `answer`: what comes of what is read after a prompt
- `interact`: a session over a sequence of bytes
-/

namespace TableShell

variable {σ : Type}

/-- How a session went. -/
structure Summary where
  /-- How many lines with words were taken. -/
  commands : Nat := 0
  /-- Whether an exit word ended the session. -/
  stopped : Bool := false
deriving DecidableEq, Repr

namespace Session

/-- What came of a command. -/
structure Execution (σ : Type) where
  state : σ
  transcript : Transcript
  /-- Why the command was refused, or whether the session goes on. -/
  result : Except CommandError Bool

/-- Follow the plan of a command. Only `exit` ends the session. -/
def execute (engine : Engine σ) (s : σ) (command : Command) : Execution σ :=
  let plan := command.plan
  let done := plan.run engine s
  { state := done.1
    transcript := done.2
    result :=
      match plan.refusal? with
      | some error => .error error
      | none => .ok (command != .exit) }

/-- What came of a line. -/
structure Turn (σ : Type) where
  state : σ
  transcript : Transcript
  continues : Bool
deriving DecidableEq, Repr

/-- Classify the words of a line and execute the command. An error is reported, and the
session goes on. -/
def process (engine : Engine σ) (s : σ) (ws : List String) : Turn σ :=
  match Command.ofWords ws with
  | .error error => { state := s, transcript := [.report (.failure error)], continues := true }
  | .ok command =>
    let done := execute engine s command
    match done.result with
    | .error error =>
      { state := done.state
        transcript := done.transcript ++ [.report (.failure error)]
        continues := true }
    | .ok continues => { state := done.state, transcript := done.transcript, continues }

/-- How a session, or a part of it, ended. -/
structure Outcome (σ : Type) where
  state : σ
  transcript : Transcript
  summary : Summary
deriving DecidableEq, Repr

/-- Nothing has happened. -/
def Outcome.start (s : σ) : Outcome σ :=
  { state := s, transcript := [], summary := {} }

/-- Take one line. A line without words changes nothing and is not counted. -/
def takeLine (engine : Engine σ) (s : σ) (line : String) : Outcome σ :=
  match Text.words line with
  | [] => .start s
  | w :: ws =>
    let turn := process engine s (w :: ws)
    { state := turn.state
      transcript := turn.transcript
      summary := { commands := 1, stopped := !turn.continues } }

/-- One part of a session and the part after it. -/
def Outcome.followedBy (first second : Outcome σ) : Outcome σ :=
  { state := second.state
    transcript := first.transcript ++ second.transcript
    summary :=
      { commands := first.summary.commands + second.summary.commands
        stopped := second.summary.stopped } }

/-- Take lines until one stops the session. -/
def runLines (engine : Engine σ) (s : σ) : List String → Outcome σ
  | [] => .start s
  | line :: rest =>
    let now := takeLine engine s line
    if now.summary.stopped then now
    else now.followedBy (runLines engine now.state rest)

/-- Text in front of a part of a session. -/
def Outcome.after (text : String) (outcome : Outcome σ) : Outcome σ :=
  { outcome with transcript := .prompt text :: outcome.transcript }

/-- What comes of what is read after a prompt: a line of bytes is taken, and the end of the
input is answered with a newline. -/
def answer (engine : Engine σ) (s : σ) : Option (List UInt8) → Outcome σ
  | none => (Outcome.start s).after "\n"
  | some line => takeLine engine s (Utf8.decodeLossy line)

/-- Take lines of bytes, with a prompt before each, until one stops the session. After the
last one there is a prompt for the end of the input. -/
def interactLines (engine : Engine σ) (prompt : String) (s : σ) :
    List (List UInt8) → Outcome σ
  | [] => (answer engine s none).after prompt
  | line :: rest =>
    let now := (answer engine s (some line)).after prompt
    if now.summary.stopped then now
    else now.followedBy (interactLines engine prompt now.state rest)

/-- A session over a sequence of bytes. -/
def interact (engine : Engine σ) (prompt : String) (s : σ) (input : List UInt8) : Outcome σ :=
  interactLines engine prompt s (Utf8.lines input)

end Session

end TableShell
