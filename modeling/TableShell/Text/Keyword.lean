/-!
# Keywords

The verbs of commands, their separator and the markers of a scope are recognised in
any casing. It is enough to fold the case of ASCII letters: the only characters
outside ASCII whose lower case begins with an ASCII letter are the Kelvin sign, which
folds to `k`, and the dotted capital `I`, which folds to two characters, and no
keyword can be spelled with either.
-/

namespace TableShell.Text

/-- Whether a word is some casing of a keyword that is given in lower case. -/
def isCasingOf (keyword word : String) : Bool :=
  word.toLower == keyword

end TableShell.Text
