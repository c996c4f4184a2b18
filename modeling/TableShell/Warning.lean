/-!
# Warnings

Reading an expression never fails: a text that is not what it seems to be stands for
itself, and a `Warning` says so. `Warned` pairs what was read with such a warning.
-/

namespace TableShell

/-- Why a text was taken literally. -/
inductive Warning where
  /-- The text has a hyphen and is no range of numbers. -/
  | invalidRange (text : String)
  /-- The text is in braces and does not name a column. -/
  | malformedChunk (text : String)
deriving DecidableEq, Repr

namespace Warning

/-- The text that was taken literally. -/
def text : Warning → String
  | invalidRange text => text
  | malformedChunk text => text

/-- The wording of a warning. -/
def message : Warning → String
  | invalidRange text => "'" ++ text ++ "' は数値区間として解析できないため、文字列として扱います"
  | malformedChunk text =>
    "'" ++ text ++ "' は {列名=値} の形式ではないため、文字列として扱います"

end Warning

/-- A value that was read, and the warning that goes with it, if any. -/
structure Warned (α : Type) where
  value : α
  warning? : Option Warning := none
deriving DecidableEq, Repr

end TableShell
