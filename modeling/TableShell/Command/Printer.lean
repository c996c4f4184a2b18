import TableShell.Command.Reader

/-!
# Writing commands

The canonical line of a command: lower-case keywords, one space between words, and no
scope for a search of every file.
-/

namespace TableShell.Command

open Text (unwords)

/-- The canonical line of a command. -/
def line : Command → String
  | blank => ""
  | exit => "exit"
  | clean => cleanWord
  | help => helpWord
  | get fields scope =>
    if scope = Scope.allWord then unwords ("get" :: fields)
    else unwords ("get" :: fields ++ [scope])
  | update old new scope => unwords ["update", old, "to", new, scope]
  | copy keyColumn source target scope => unwords ["copy", keyColumn, source, "to", target, scope]

end TableShell.Command
