import TableShell.Arguments
import TableShell.Console
import TableShell.DataFile
import TableShell.Engine.Rehearsal
import TableShell.Session
import TableShell.Store.Engine

/-!
# The program

A run of the program reads its arguments, loads the data file, and holds a session over the
lines of the arguments or over its input. Without a data file the session is a rehearsal. The
parser of the arguments, the decoder of the data file and the text that clears the screen come
from outside and can be chosen.

## Main definitions

- `Backend`: a store or a rehearsal
- `Program.start`: the state that a session starts from
- `Program.run`: a session with given settings
- `Program.output`: a run of the program, from its arguments to its exit code
-/

namespace TableShell

/-- What the session of the program works on. -/
abbrev Backend := Store ⊕ Rehearsal

namespace Program

/-- Requests go to the store or are rehearsed. -/
def engine : Engine Backend := Store.engine.sum Rehearsal.engine

/-- How much of the reports is shown. -/
def console (settings : Settings) : Console :=
  if settings.quiet then .quiet else .verbose

/-- The line that is printed when a data file has been loaded. -/
def loadedLine (path : String) (store : Store) : String :=
  "📂 " ++ path ++ " から " ++ store.book.names.length.repr ++ " 個のファイルを読み込みました"

/-- The line that is printed before a dialogue. -/
def greeting : String :=
  "📊 表データ操作シェル - help でコマンド一覧、exit で終了"

/-- A line that is printed unless progress is not shown. -/
def progressLine (settings : Settings) (text : String) : Transcript :=
  if settings.quiet then [] else [.line text]

/-- The state that a session starts from, given what is found in the place of the data file, and
what is printed about it. -/
def backend (settings : Settings) (content : DataFile.Content) (decode : DataFile.Decoder) :
    Except DataFile.LoadError (Backend × Transcript) :=
  match settings.dataFile? with
  | none => .ok (.inr { quiet := settings.quiet }, [])
  | some path =>
    match DataFile.load content decode with
    | .error error => .error error
    | .ok loaded =>
      let store := { loaded with keyColumn? := settings.keyColumn?, quiet := settings.quiet }
      .ok (.inl store, progressLine settings (loadedLine path store))

/-- The state that a session starts from, and what is printed before its first line. -/
def start (settings : Settings) (commands : List String) (content : DataFile.Content)
    (decode : DataFile.Decoder := DataFile.read) :
    Except DataFile.LoadError (Backend × Transcript) :=
  match backend settings content decode with
  | .error error => .error error
  | .ok (state, opening) =>
    let greetings := if commands = [] then progressLine settings greeting else []
    .ok (state, opening ++ greetings)

/-- A session over the given lines, or over the input if there are none. -/
def session (settings : Settings) (commands : List String) (state : Backend)
    (input : List UInt8) : Session.Outcome Backend :=
  if commands = [] then Session.interact engine settings.prompt state input
  else Session.runLines engine state commands

/-- A session from its settings on. -/
def run (settings : Settings) (commands : List String) (content : DataFile.Content)
    (input : List UInt8) (decode : DataFile.Decoder := DataFile.read) :
    Except DataFile.LoadError (Session.Outcome Backend) :=
  match start settings commands content decode with
  | .error error => .error error
  | .ok (state, opening) =>
    let outcome := session settings commands state input
    .ok { outcome with transcript := opening ++ outcome.transcript }

/-- What a run of the program leaves behind. -/
structure Output where
  exitCode : Nat := 0
  stdout : String := ""
  stderr : String := ""
deriving DecidableEq, Repr

/-- What is printed if the arguments are not accepted or ask for a text. -/
def refuse (error : ArgumentError) : Output :=
  match error.display? with
  | some text => { stdout := text }
  | none =>
    { exitCode := 2
      stderr := "error: invalid arguments\n\nFor more information, try '--help'.\n" }

/-- What is printed if the data file cannot be loaded. -/
def fail (path : String) (error : DataFile.LoadError) : Output :=
  { exitCode := 1
    stderr := "❌ エラー: " ++ ": ".intercalate (error.message path :: error.reason?.toList) ++ "\n" }

/-- A run of the program, given what is found at the place of each path, and the input. -/
def output (arguments : List String) (contentAt : String → DataFile.Content)
    (input : List UInt8) (parse : Arguments.Parser := Arguments.parse)
    (decode : DataFile.Decoder := DataFile.read) (clearing : String := clearSequence) : Output :=
  match Arguments.read arguments parse with
  | .error error => refuse error
  | .ok { settings, commands } =>
    let path := settings.dataFile?.getD ""
    match run settings commands (contentAt path) input decode with
    | .error error => fail path error
    | .ok outcome =>
      { stdout := outcome.transcript.stdout (console settings) clearing
        stderr := outcome.transcript.stderr (console settings) }

end Program

end TableShell
