import TableShell.Command
import TableShell.Scope

/-!
# Reading commands

Classifies the words of a line. Control words take precedence wherever they stand,
even in the place of a value; after them the first word decides.

## Main definitions

- `Command.ofWords`: the command that a list of words stands for
-/

namespace TableShell.Command

open Text (isCasingOf unwords)

/-- The words that end a session. -/
def exitWords : List String := ["q", "exit"]

/-- The word that clears the screen. -/
def cleanWord : String := "clean"

/-- The word that asks for help. -/
def helpWord : String := "help"

/-- The words that mark a scope. -/
def scopeMarkers : List String := ["in", "except"]

/-- Whether a word is some casing of the separator between old and new. -/
def isSeparator (word : String) : Bool := isCasingOf "to" word

/-- Whether a word is some casing of a scope marker. -/
def isMarker (word : String) : Bool := scopeMarkers.any (isCasingOf · word)

/-- A search. If some word is a scope marker as it is spelled in `scopeMarkers`, the last two
words are the scope and the words between the verb and them are the fields. Otherwise all
words after the verb are fields and every file is searched. -/
def getOfWords (ws : List String) : Command :=
  if ws.any scopeMarkers.contains then
    let fields := ws.dropLast.dropLast
    .get (fields.drop 1) (unwords (ws.drop fields.length))
  else
    .get (ws.drop 1) Scope.allWord

/-- An update, `update old to new scope`: either the separator or the scope marker has to
be in its place. -/
def updateOfWords : List String → Except CommandError Command
  | _ :: old :: separator :: new :: marker :: files =>
    if isSeparator separator || isMarker marker then
      .ok (.update old new (unwords (marker :: files)))
    else
      .error (.missingScope "update")
  | _ => .error (.missingScope "update")

/-- A copy, `copy keyColumn source to target scope`: either the separator or the scope marker
has to be in its place. -/
def copyOfWords : List String → Except CommandError Command
  | _ :: keyColumn :: source :: separator :: target :: marker :: files =>
    if isSeparator separator || isMarker marker then
      .ok (.copy keyColumn source target (unwords (marker :: files)))
    else
      .error (.missingScope "copy")
  | _ => .error (.missingScope "copy")

/-- The command that a list of words stands for. -/
def ofWords (ws : List String) : Except CommandError Command :=
  match ws with
  | [] => .ok .blank
  | verb :: _ =>
    if ws.any exitWords.contains then .ok .exit
    else if ws.contains cleanWord then .ok .clean
    else if ws.contains helpWord then .ok .help
    else if isCasingOf "get" verb then .ok (getOfWords ws)
    else if isCasingOf "update" verb then updateOfWords ws
    else if isCasingOf "copy" verb then copyOfWords ws
    else .error (.unrecognized verb)

end TableShell.Command
