import TableShell.Program

/-!
# The command line

Runs the program on the real arguments, files and streams. All decisions are made in
`TableShell.Program` and `TableShell.Session`; here lines are read and entries are printed. No
program of the terminal is run to clear the screen: this is always done by `clearSequence`.
-/

namespace TableShell.Main

/-- Write each entry of a transcript to the stream it belongs to. -/
def print (console : Console) (transcript : Transcript) : IO Unit := do
  let stdout ← IO.getStdout
  let stderr ← IO.getStderr
  for entry in transcript do
    stdout.putStr (entry.stdout console)
    stdout.flush
    stderr.putStr (entry.stderr console)
    stderr.flush

/-- The system's error code for reading a directory as a file. The same kind of error also
stands for a path that goes on after a file that is no directory. -/
def isDirectory : UInt32 := 21

/-- What is found at the place of a path. -/
def contentAt (path : String) : IO DataFile.Content := do
  try
    return .bytes (← IO.FS.readBinFile path)
  catch
    | .noFileOrDirectory .. | .invalidArgument .. => return .missing
    | .inappropriateType _ code _ => return if code == isDirectory then .directory else .missing
    | error => throw error

/-- A line of the input with the newline that ends it, or `none` at the end of the input. -/
partial def readLine (input : IO.FS.Stream) (read : List UInt8) : IO (Option (List UInt8)) := do
  let bytes ← input.read 1
  match bytes.toList with
  | [] => return if read.isEmpty then none else some read.reverse
  | byte :: _ =>
    if byte == Utf8.newline then return some (byte :: read).reverse
    else readLine input (byte :: read)

/-- The dialogue of a session, one line at a time. -/
partial def dialogue (settings : Settings) (state : Backend) (input : IO.FS.Stream) : IO Unit := do
  print (Program.console settings) [.prompt settings.prompt]
  let line? ← readLine input []
  let now := Session.answer Program.engine state line?
  print (Program.console settings) now.transcript
  unless line?.isNone || now.summary.stopped do dialogue settings now.state input

/-- Print what a run of the program leaves behind. -/
def finish (output : Program.Output) : IO UInt32 := do
  (← IO.getStdout).putStr output.stdout
  (← IO.getStderr).putStr output.stderr
  return output.exitCode.toUInt32

/-- A run of the program with arguments that are accepted. -/
def run (settings : Settings) (commands : List String) : IO UInt32 := do
  let content ← match settings.dataFile? with
    | none => pure .missing
    | some path => contentAt path
  match Program.start settings commands content with
  | .error error => finish (Program.fail (settings.dataFile?.getD "") error)
  | .ok (state, opening) =>
    print (Program.console settings) opening
    if commands.isEmpty then
      dialogue settings state (← IO.getStdin)
    else
      print (Program.console settings) (Session.runLines Program.engine state commands).transcript
    return 0

end TableShell.Main

/-- A run of the program. -/
def main (arguments : List String) : IO UInt32 :=
  match TableShell.Arguments.read arguments with
  | .error error => TableShell.Main.finish (TableShell.Program.refuse error)
  | .ok { settings, commands } => TableShell.Main.run settings commands
