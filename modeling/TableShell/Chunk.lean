import TableShell.Field

/-!
# Chunks

A chunk is a list of values together with the column in which they are looked for or
written. It is written `{column=field}`, or as a bare field if the column is the one
that identifies rows.

## Main definitions

- `Chunk`: an optional column and values
- `Chunk.braced?`, `Chunk.assignment?`: the parts of the written form
- `Chunk.read`: the chunk that a text stands for
-/

namespace TableShell

/-- Values, and the column they belong to. -/
structure Chunk where
  /-- The column; `none` stands for the key column. -/
  column? : Option String
  values : List String
deriving DecidableEq, Repr

namespace Chunk

/-- What stands between an opening brace at the start and a closing brace at the end. -/
def braced? : List Char → Option (List Char)
  | '{' :: rest => if rest.getLast? = some '}' then some rest.dropLast else none
  | _ => none

/-- The two sides of the first equals sign, provided that the left side is not empty. -/
def assignment? (inner : List Char) : Option (List Char × List Char) :=
  match inner.takeWhile (· != '='), inner.dropWhile (· != '=') with
  | [], _ => none
  | _, [] => none
  | column, _ :: field => some (column, field)

/-- The chunk that a text stands for. -/
def read (text : String) : Warned Chunk :=
  match braced? text.toList with
  | none =>
    let field := Field.read text
    { value := { column? := none, values := field.value }, warning? := field.warning? }
  | some inner =>
    match assignment? inner with
    | none =>
      { value := { column? := none, values := [text] }, warning? := some (.malformedChunk text) }
    | some (column, field) =>
      let field := Field.read (String.ofList field)
      { value := { column? := some (String.ofList column), values := field.value }
        warning? := field.warning? }

end Chunk

end TableShell
