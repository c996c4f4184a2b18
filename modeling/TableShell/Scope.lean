import TableShell.Text.Keyword
import TableShell.Text.Words

/-!
# Scopes

A scope says which of the known files a command applies to: all of them, those that
are listed, or those that are not listed.

## Main definitions

- `Scope`: the files that a command applies to
- `Scope.ofWords?`, `Scope.read?`: the scope that a text stands for
- `Scope.select`: the known files in a scope
-/

namespace TableShell

/-- How the files listed in a scope are meant. -/
inductive Scope.Mode where
  /-- The listed files and no other. -/
  | only
  /-- Every file but the listed ones. -/
  | except
deriving DecidableEq, Repr

/-- The files that a command applies to. -/
inductive Scope where
  | all
  /-- The files that a list decides on. -/
  | restricted (mode : Scope.Mode) (files : List String)
deriving DecidableEq, Repr

namespace Scope

/-- The marker, in any casing, in front of the files of a scope. -/
def Mode.ofMarker? (word : String) : Option Mode :=
  if Text.isCasingOf "in" word then some .only
  else if Text.isCasingOf "except" word then some .except
  else none

/-- The word for every file. -/
def allWord : String := "ALL"

/-- The scope that a list of words stands for; `none` if it begins with neither `allWord`
nor a marker. -/
def ofWords? : List String → Option Scope
  | [] => none
  | word :: rest =>
    if word = allWord then some .all
    else (Mode.ofMarker? word).map (restricted · rest)

/-- The scope that a text stands for. -/
def read? (text : String) : Option Scope :=
  ofWords? (Text.words text)

/-- Whether a file belongs to a scope. -/
def includes : Scope → String → Bool
  | all, _ => true
  | restricted .only files, file => files.contains file
  | restricted .except files, file => !files.contains file

/-- The known files in a scope, in the order in which they are known. -/
def select (scope : Scope) (known : List String) : List String :=
  known.filter scope.includes

end Scope

end TableShell
