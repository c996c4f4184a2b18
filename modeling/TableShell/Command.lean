/-!
# Commands

What a line of input asks for, before any expression in it is read, and why a command
may be refused.

## Main definitions

- `Command`: a classified line
- `CommandError`: why a command, or one of its requests, failed
-/

namespace TableShell

/-- A classified line. Fields, keys and the scope are still texts. -/
inductive Command where
  /-- A line without words. -/
  | blank
  | exit
  | clean
  | help
  /-- Look for rows, once for each field. -/
  | get (fields : List String) (scope : String)
  /-- Put new values in place of old ones. -/
  | update (old new scope : String)
  /-- Copy the rows with the source keys to the target keys. -/
  | copy (keyColumn source target scope : String)
deriving DecidableEq, Repr

/-- Why a command, or one of its requests, failed. -/
inductive CommandError where
  /-- The words after the verb do not have the form the verb asks for. -/
  | missingScope (verb : String)
  /-- There are not as many target keys as source keys. -/
  | keyCountMismatch (source target : Nat)
  /-- The first word is no verb. -/
  | unrecognized (verb : String)
  /-- The engine could not carry out a request. -/
  | operation (activity cause : String)
deriving DecidableEq, Repr

namespace CommandError

/-- The wording of an error. -/
def message : CommandError → String
  | missingScope verb => verb ++ "操作には作用域（in / except）の指定が必要です"
  | keyCountMismatch source target =>
    "元の行と対象の行の数が一致しません: " ++ source.repr ++ " 件 / " ++ target.repr ++ " 件"
  | unrecognized verb => "認識できないコマンドです: " ++ verb
  | operation activity cause => activity ++ "に失敗しました: " ++ cause

/-- Whether the rest of the command is given up. A request that fails does not keep the
other requests of its command from being made. -/
def aborts : CommandError → Bool
  | operation .. => false
  | _ => true

end CommandError

end TableShell
