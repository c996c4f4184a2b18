import TableShell.Proofs.Chunk.Written

/-!
# The grammar of chunks

A text names a column if and only if it is a column, an equals sign and a field in braces, where the
column is not empty and has no equals sign (`isAssignment_iff`). There is one way at most to take a
text apart like this, since the equals sign is the first one (`IsAssignment.unique`). Any other text
has no column: in braces it stands for itself, with a warning, and without braces it is read as a
field (`reads_assignments_and_nothing_else`).

## Main definitions

- `Chunk.IsAssignment`: a text that names a column, and its column and field
- `Chunk.IsBraced`: a text in braces
-/

namespace TableShell.Chunk

variable {text column field : String}

/-- The text is the column and the field around an equals sign, in braces. -/
structure IsAssignment (text column field : String) : Prop where
  spelled : text = written column field
  named : column ≠ ""
  /-- The field may have equals signs, so the column has none. -/
  plain : '=' ∉ column.toList

/-- An opening brace comes first and a closing one last, and they are not the same character. -/
def IsBraced (text : String) : Prop :=
  2 ≤ text.length ∧ text.toList.head? = some '{' ∧ text.toList.getLast? = some '}'

instance (text : String) : Decidable (IsBraced text) :=
  inferInstanceAs (Decidable (_ ∧ _ ∧ _))

/-! ### The parts of a text -/

private theorem braced?_eq_some_iff {cs inner : List Char} :
    braced? cs = some inner ↔ cs = '{' :: (inner ++ ['}']) := by
  constructor
  · intro parts
    unfold braced? at parts
    split at parts
    next rest =>
      split at parts
      next closed =>
        obtain ⟨inner', rfl⟩ := List.getLast?_eq_some_iff.1 closed
        rw [List.dropLast_concat] at parts
        rw [Option.some.inj parts]
      next => cases parts
    next => cases parts
  · rintro rfl
    rw [braced?, if_pos List.getLast?_concat, List.dropLast_concat]

theorem isBraced_iff : IsBraced text ↔ ∃ inner, braced? text.toList = some inner := by
  simp only [IsBraced, braced?_eq_some_iff, ← String.length_toList]
  constructor
  · rintro ⟨long, opened, closed⟩
    obtain ⟨rest, spelled⟩ := List.head?_eq_some_iff.1 opened
    cases rest with
    | nil =>
      rw [spelled, List.length_singleton] at long
      omega
    | cons c rest =>
      rw [spelled, List.getLast?_cons_cons] at closed
      obtain ⟨inner, before⟩ := List.getLast?_eq_some_iff.1 closed
      exact ⟨inner, by rw [spelled, before]⟩
  · rintro ⟨inner, spelled⟩
    rw [spelled]
    refine ⟨?_, rfl, ?_⟩
    · simp
    · rw [← List.cons_append, List.getLast?_concat]

private theorem assignment?_eq_some_iff {inner column field : List Char} :
    assignment? inner = some (column, field) ↔
      column ≠ [] ∧ '=' ∉ column ∧ inner = column ++ '=' :: field := by
  constructor
  · intro parts
    have whole := List.takeWhile_append_dropWhile (p := (· != '=')) (l := inner)
    have before := List.all_takeWhile (p := (· != '=')) (l := inner)
    have stopped := List.head?_dropWhile_not (· != '=') inner
    rw [assignment?] at parts
    cases left : inner.takeWhile (· != '=') with
    | nil =>
      rw [left] at parts
      cases parts
    | cons c cs =>
      cases right : inner.dropWhile (· != '=') with
      | nil =>
        rw [left, right] at parts
        cases parts
      | cons sign rest =>
        rw [left, right] at parts whole
        obtain ⟨rfl, rfl⟩ := Prod.mk.inj (Option.some.inj parts)
        -- The left side goes on for as long as there is no equals sign, and no further.
        have sign_eq : sign = '=' := by
          rw [right] at stopped
          simpa using stopped
        rw [left, List.all_eq_true] at before
        refine ⟨List.cons_ne_nil c cs, fun member => ?_, ?_⟩
        · exact absurd (before '=' member) (by decide)
        · rw [← sign_eq, whole]
  · rintro ⟨named, plain, rfl⟩
    exact assignment?_append named plain field

/-- The texts that are taken apart into a column and a field are those that are one. -/
theorem isAssignment_iff : IsAssignment text column field ↔
    (braced? text.toList).bind assignment? = some (column.toList, field.toList) := by
  constructor
  · rintro ⟨rfl, named, plain⟩
    have named : column.toList ≠ [] := by simpa using named
    rw [braced?_written, Option.bind_some, assignment?_append named plain]
  · intro sides
    obtain ⟨inner, braces, sides⟩ := Option.bind_eq_some_iff.1 sides
    obtain ⟨named, plain, rfl⟩ := assignment?_eq_some_iff.1 sides
    have spelled := (braced?_eq_some_iff.1 braces).trans
      (braced?_eq_some_iff.1 (braced?_written column field)).symm
    exact ⟨String.toList_inj.1 spelled, by simpa using named, plain⟩

theorem exists_isAssignment_iff : (∃ column field, IsAssignment text column field) ↔
    ((braced? text.toList).bind assignment?).isSome := by
  simp only [isAssignment_iff, Option.isSome_iff_exists]
  constructor
  · rintro ⟨column, field, sides⟩
    exact ⟨_, sides⟩
  · rintro ⟨⟨column, field⟩, sides⟩
    exact ⟨String.ofList column, String.ofList field, by simpa using sides⟩

/-- No text names two columns, or one column with two fields. -/
theorem IsAssignment.unique {column' field' : String} (parts : IsAssignment text column field)
    (parts' : IsAssignment text column' field') : column' = column ∧ field' = field := by
  have same := (isAssignment_iff.1 parts').symm.trans (isAssignment_iff.1 parts)
  obtain ⟨columns, fields⟩ := Prod.mk.inj (Option.some.inj same)
  exact ⟨String.toList_inj.1 columns, String.toList_inj.1 fields⟩

/-! ### What a text stands for -/

theorem read_of_isAssignment (parts : IsAssignment text column field) :
    read text =
      { value := { column? := some column, values := (Field.read field).value }
        warning? := (Field.read field).warning? } := by
  obtain ⟨rfl, named, plain⟩ := parts
  exact read_written named plain field

/-- A text that does not name a column has none. In braces it stands for itself. -/
theorem read_of_not_isAssignment (other : ¬∃ column field, IsAssignment text column field) :
    read text =
      if IsBraced text then
        { value := { column? := none, values := [text] }
          warning? := some (.malformedChunk text) }
      else
        { value := { column? := none, values := (Field.read text).value }
          warning? := (Field.read text).warning? } := by
  rw [exists_isAssignment_iff, Option.not_isSome_iff_eq_none] at other
  rw [read]
  cases braces : braced? text.toList with
  | none =>
    have bare : ¬IsBraced text := by
      simp [isBraced_iff, braces]
    rw [if_neg bare]
  | some inner =>
    have no_sides : assignment? inner = none := by
      rwa [braces, Option.bind_some] at other
    rw [if_pos (isBraced_iff.2 ⟨inner, braces⟩)]
    simp only [no_sides]

/-- A text is read as a chunk with a column if and only if it is that column and a field in braces
around an equals sign, which it is in one way at most; then its values and its warning are those of
the field. A text in braces that is none of this stands for itself, with a warning, and any other
text is read as a field. -/
theorem reads_assignments_and_nothing_else (text : String) :
    (∀ column, (read text).value.column? = some column ↔
      ∃ field, IsAssignment text column field) ∧
      (∀ column field, IsAssignment text column field →
        (∀ column' field', IsAssignment text column' field' →
          column' = column ∧ field' = field) ∧
          (read text).value.values = (Field.read field).value ∧
          (read text).warning? = (Field.read field).warning?) ∧
      ((¬∃ column field, IsAssignment text column field) →
        read text =
          if IsBraced text then
            { value := { column? := none, values := [text] }
              warning? := some (.malformedChunk text) }
          else
            { value := { column? := none, values := (Field.read text).value }
              warning? := (Field.read text).warning? }) := by
  refine ⟨?_, ?_, read_of_not_isAssignment⟩
  · intro column
    constructor
    · intro named
      by_cases parts : ∃ column field, IsAssignment text column field
      · obtain ⟨column', field, parts⟩ := parts
        rw [read_of_isAssignment parts] at named
        obtain rfl := Option.some.inj named
        exact ⟨field, parts⟩
      · rw [read_of_not_isAssignment parts] at named
        split at named
        · cases named
        · cases named
    · rintro ⟨field, parts⟩
      rw [read_of_isAssignment parts]
  · intro column field parts
    rw [read_of_isAssignment parts]
    exact ⟨fun column' field' => parts.unique, rfl, rfl⟩

theorem reads_assignments_and_nothing_else_in_braces :
    let named := "{日-{}=3-4={}}"
    let unnamed := "{=}"
    let lone := String.singleton '{'
    IsAssignment named "日-{}" "3-4={}" ∧
      (read named).value.column? = some "日-{}" ∧
      (∀ column field, IsAssignment named column field → column = "日-{}" ∧ field = "3-4={}") ∧
      (read named).value.values = ["3-4={}"] ∧
      (read named).warning? = some (.invalidRange "3-4={}") ∧
      (¬∃ column field, IsAssignment unnamed column field) ∧ IsBraced unnamed ∧
      read unnamed = { value := ⟨none, [unnamed]⟩, warning? := some (.malformedChunk unnamed) } ∧
      (¬∃ column field, IsAssignment lone column field) ∧ ¬IsBraced lone ∧
      read lone = { value := ⟨none, [lone]⟩ } := by
  intro named unnamed lone
  have parts : IsAssignment named "日-{}" "3-4={}" := ⟨by decide, by decide, by decide⟩
  have unassigned : ¬∃ column field, IsAssignment unnamed column field := by
    rw [exists_isAssignment_iff]
    decide
  have alone : ¬∃ column field, IsAssignment lone column field := by
    rw [exists_isAssignment_iff]
    decide
  obtain ⟨columns, assigned, -⟩ := reads_assignments_and_nothing_else named
  obtain ⟨unique, values, warning⟩ := assigned _ _ parts
  have literal : Field.read "3-4={}" =
      { value := ["3-4={}"], warning? := some (.invalidRange "3-4={}") } := by
    decide +kernel
  rw [literal] at values warning
  have braced : IsBraced unnamed := by decide
  have bare : ¬IsBraced lone := by decide
  have literal' : Field.read lone = { value := [lone] } := by decide +kernel
  have malformed := (reads_assignments_and_nothing_else unnamed).2.2 unassigned
  have field := (reads_assignments_and_nothing_else lone).2.2 alone
  rw [if_pos braced] at malformed
  rw [if_neg bare, literal'] at field
  exact ⟨parts, (columns _).2 ⟨_, parts⟩, unique, values, warning, unassigned, braced, malformed,
    alone, bare, field⟩

end TableShell.Chunk
