/-!
# Faults of JSON texts

A JSON text is read from left to right, straight into the shape that is asked for. The
first problem decides what is wrong with it.
-/

namespace TableShell.Json

/-- What is wrong with a text. -/
inductive Fault where
  /-- It is no JSON. -/
  | malformed
  /-- It has a value in the place of another one, lacks one, or has one twice. -/
  | misplaced
  /-- It ends too early. -/
  | cutOff
deriving DecidableEq, Repr

end TableShell.Json
