import Std.Data.String.ToNat
import TableShell.Field

/-!
# The values of a range

A range is two numerals around a hyphen (`exists_of_range?`). The numerals from its first to its
last are distinct, so the values of a field never repeat (`nodup_read`).
-/

namespace TableShell.Field

variable {first last : Nat}

@[simp] theorem length_numerals : (numerals first last).length = last + 1 - first := by
  rw [numerals, List.length_map, List.length_range']

theorem getElem?_numerals {i : Nat} (h : i < last + 1 - first) :
    (numerals first last)[i]? = some (first + i).repr := by
  rw [numerals, List.getElem?_map, List.getElem?_range' h, Nat.one_mul, Option.map_some]

theorem nodup_numerals : (numerals first last).Nodup := by
  have distinct : (List.range' first (last + 1 - first)).Nodup := List.nodup_range'
  rw [numerals, List.nodup_iff_pairwise_ne, List.pairwise_map]
  refine (List.nodup_iff_pairwise_ne.1 distinct).imp ?_
  intro a b ne eq
  exact ne (Nat.repr_injective eq)

theorem nodup_read (field : String) : (read field).value.Nodup := by
  have alone : [field].Nodup := by simp
  rw [read]
  split
  · split
    · exact nodup_numerals
    · exact alone
  · exact alone

theorem exists_of_range? {field : List Char} (range : range? field = some (first, last)) :
    ∃ left right, field = left ++ '-' :: right ∧ Decimal.ofChars? left = some first ∧
      Decimal.ofChars? right = some last ∧ last < first + maxLength := by
  unfold range? at range
  split at range
  next left right parts =>
    simp only [Option.bind_eq_bind, Option.bind_eq_some_iff, Option.ite_none_right_eq_some,
      Option.some.injEq, Prod.mk.injEq] at range
    obtain ⟨_, atLeft, _, atRight, near, rfl, rfl⟩ := range
    have joined := field.intercalate_splitOn '-'
    rw [parts] at joined
    exact ⟨left, right, by simpa [List.intercalate] using joined.symm, atLeft, atRight, near⟩
  next => cases range

/-- A range begins with a digit or a plus sign. -/
theorem range?_of_open (rest : List Char) : range? ('{' :: rest) = none := by
  cases range : range? ('{' :: rest) with
  | none => rfl
  | some ends =>
    obtain ⟨left, right, cut, number, -⟩ := exists_of_range? range
    cases left with
    | nil => cases number
    | cons c left =>
      obtain ⟨rfl, -⟩ := List.cons.inj cut
      have brace : Char.isDigit '{' = false := by decide
      simp [Decimal.ofChars?, Decimal.unsigned, brace] at number

theorem hyphen_mem_of_range? {field : List Char} (range : range? field = some (first, last)) :
    '-' ∈ field := by
  obtain ⟨left, right, rfl, -⟩ := exists_of_range? range
  simp

/-- A field that is a range stands for its numerals. -/
theorem read_of_range? {field : String} (range : range? field.toList = some (first, last)) :
    read field = { value := numerals first last } := by
  simp only [read, if_pos (hyphen_mem_of_range? range), range]

end TableShell.Field
