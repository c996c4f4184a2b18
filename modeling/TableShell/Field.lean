import TableShell.Text.Decimal
import TableShell.Warning

/-!
# Fields

A field stands for a list of values. `a-b` with two numerals stands for the numbers
from `a` to `b`, and any other text stands for itself.

## Main definitions

- `Field.range?`: the two ends of a range
- `Field.numerals`: the numbers of a range in decimal
- `Field.read`: the values of a field
-/

namespace TableShell.Field

/-- A range ends less than this many numbers after its beginning. -/
def maxLength : Nat := 100000

/-- The two ends of a range: two numerals around a single hyphen, the second number less
than `maxLength` above the first. The second may be the smaller one. -/
def range? (field : List Char) : Option (Nat × Nat) :=
  match field.splitOn '-' with
  | [left, right] => do
    let first ← Decimal.ofChars? left
    let last ← Decimal.ofChars? right
    if last < first + maxLength then some (first, last) else none
  | _ => none

/-- The numbers from `first` to `last` in decimal; none if `last` is the smaller one. -/
def numerals (first last : Nat) : List String :=
  (List.range' first (last + 1 - first)).map Nat.repr

/-- The values that a field stands for. -/
def read (field : String) : Warned (List String) :=
  if '-' ∈ field.toList then
    match range? field.toList with
    | some (first, last) => { value := numerals first last }
    | none => { value := [field], warning? := some (.invalidRange field) }
  else
    { value := [field] }

end TableShell.Field
