import TableShell.Chunk
import TableShell.Proofs.Field.Range

/-!
# Writing chunks

A column and a field are read back from the chunk that is written with them, whatever braces,
hyphens and equals signs they have, as long as the column is not empty and has no equals sign
(`read_written`).

## Main definitions

- `Chunk.written`: the text of a chunk with a column
-/

namespace TableShell.Chunk

variable {column field : String}

/-- The text of a chunk with a column. -/
def written (column field : String) : String :=
  String.singleton '{' ++ column ++ "=" ++ field ++ String.singleton '}'

theorem braced?_written (column field : String) :
    braced? (written column field).toList = some (column.toList ++ '=' :: field.toList) := by
  have spelled : (written column field).toList =
      '{' :: ((column.toList ++ '=' :: field.toList) ++ ['}']) := by
    simp [written]
  rw [spelled, braced?, if_pos List.getLast?_concat, List.dropLast_concat]

theorem assignment?_append {column : List Char} (named : column ≠ []) (plain : '=' ∉ column)
    (field : List Char) : assignment? (column ++ '=' :: field) = some (column, field) := by
  have before : ∀ c ∈ column, (c != '=') = true := by
    intro c member
    rw [bne_iff_ne]
    rintro rfl
    exact plain member
  have left : (column ++ '=' :: field).takeWhile (· != '=') = column := by
    simp [List.takeWhile_append_of_pos before]
  have right : (column ++ '=' :: field).dropWhile (· != '=') = '=' :: field := by
    simp [List.dropWhile_append_of_pos before]
  rw [assignment?, left, right]
  cases column with
  | nil => exact absurd rfl named
  | cons c column => rfl

theorem read_written (named : column ≠ "") (plain : '=' ∉ column.toList) (field : String) :
    read (written column field) =
      { value := { column? := some column, values := (Field.read field).value }
        warning? := (Field.read field).warning? } := by
  have named : column.toList ≠ [] := by simpa using named
  simp only [read, braced?_written, assignment?_append named plain, String.ofList_toList]

theorem read_written_of_range? {first last : Nat} (named : column ≠ "")
    (plain : '=' ∉ column.toList) (range : Field.range? field.toList = some (first, last)) :
    read (written column field) =
      { value := { column? := some column, values := Field.numerals first last } } := by
  rw [read_written named plain, Field.read_of_range? range]

private theorem braced?_of_range? {field : List Char} {ends : Nat × Nat}
    (range : Field.range? field = some ends) : braced? field = none := by
  unfold braced?
  split
  next rest =>
    rw [Field.range?_of_open] at range
    cases range
  next => rfl

/-- A range on its own is a chunk without a column. -/
theorem read_of_range? {text : String} {first last : Nat}
    (range : Field.range? text.toList = some (first, last)) :
    read text = { value := { column? := none, values := Field.numerals first last } } := by
  rw [read, braced?_of_range? range, Field.read_of_range? range]

end TableShell.Chunk
