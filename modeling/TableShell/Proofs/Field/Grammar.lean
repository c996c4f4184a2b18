import Mathlib.Algebra.Group.Nat.Defs
import TableShell.Proofs.Field.Range
import TableShell.Proofs.Text.Numeral

/-!
# The grammar of ranges

A field is read as a range if and only if it is two numerals around a hyphen, neither number is too
large and the second one is less than a hundred thousand above the first (`range?_eq_some_iff`).
The values of a range are the canonical numerals of its numbers, and any other field stands for
itself (`reads_ranges_and_nothing_else`).

## Main definitions

- `Field.IsRange`: a field that is a range, and the numbers at its ends
-/

namespace TableShell.Field

open Decimal (Numeral IsCanonical)

/-- The two numbers are the ends of the range that a field is. -/
structure IsRange (field : List Char) (first last : Nat) : Prop where
  spelled : ∃ left right, field = left ++ '-' :: right ∧ Numeral left first ∧ Numeral right last
  first_lt : first < 2 ^ 63
  last_lt : last < 2 ^ 63
  /-- The difference is one of integers, since the second number may be the smaller one. -/
  short : (last : Int) - first < 100000

variable {field left right : List Char} {first last : Nat}

private theorem splitOn_eq_pair (before : '-' ∉ left) (after : '-' ∉ right) :
    (left ++ '-' :: right).splitOn '-' = [left, right] := by
  rw [List.splitOn_append_cons_self_of_not_mem before, List.splitOn_eq_singleton after]

private theorem hyphen_not_mem_of_numeral {n : Nat} (numeral : Numeral left n) : '-' ∉ left :=
  numeral.not_mem (by decide) (by decide)

theorem le_largest_iff {n : Nat} : n ≤ Decimal.largest ↔ n < 2 ^ 63 := by
  rw [Decimal.largest]
  omega

private theorem lt_add_maxLength_iff :
    last < first + maxLength ↔ (last : Int) - first < 100000 := by
  rw [maxLength]
  omega

/-- The fields that are read as ranges are those that are ranges. -/
theorem range?_eq_some_iff : range? field = some (first, last) ↔ IsRange field first last := by
  constructor
  · intro range
    obtain ⟨left, right, spelled, atLeft, atRight, near⟩ := exists_of_range? range
    rw [Decimal.ofChars?_eq_some_iff, le_largest_iff] at atLeft atRight
    exact ⟨⟨left, right, spelled, atLeft.1, atRight.1⟩, atLeft.2, atRight.2,
      lt_add_maxLength_iff.1 near⟩
  · rintro ⟨⟨left, right, rfl, atLeft, atRight⟩, first_lt, last_lt, short⟩
    have parts := splitOn_eq_pair (hyphen_not_mem_of_numeral atLeft)
      (hyphen_not_mem_of_numeral atRight)
    have read_left : Decimal.ofChars? left = some first :=
      Decimal.ofChars?_eq_some_iff.2 ⟨atLeft, le_largest_iff.2 first_lt⟩
    have read_right : Decimal.ofChars? right = some last :=
      Decimal.ofChars?_eq_some_iff.2 ⟨atRight, le_largest_iff.2 last_lt⟩
    rw [range?, parts]
    simp only [Option.bind_eq_bind, Option.bind_eq_some_iff, Option.ite_none_right_eq_some]
    exact ⟨first, read_left, last, read_right, lt_add_maxLength_iff.2 short, rfl⟩

/-! ### What a field stands for -/

theorem read_of_isRange {field : String} (range : IsRange field.toList first last) :
    read field = { value := numerals first last } :=
  read_of_range? (range?_eq_some_iff.2 range)

/-- A field that is no range stands for itself, and there is a warning if it looks like one. -/
theorem read_of_not_isRange {field : String}
    (other : ¬∃ first last, IsRange field.toList first last) :
    read field =
      { value := [field]
        warning? := if '-' ∈ field.toList then some (.invalidRange field) else none } := by
  rw [read]
  split
  next =>
    cases range : range? field.toList with
    | some ends => exact absurd ⟨_, _, range?_eq_some_iff.1 range⟩ other
    | none => rfl
  next => rfl

private theorem read_of_hyphen_not_mem {field : String} (plain : '-' ∉ field.toList) :
    read field = { value := [field] } := by
  rw [read, if_neg plain]

private theorem exists_of_mem_numerals {numeral : String} (member : numeral ∈ numerals first last) :
    ∃ n : Nat, numeral = n.repr := by
  obtain ⟨n, -, rfl⟩ := List.mem_map.1 member
  exact ⟨n, rfl⟩

/-- Every value stands for itself. -/
theorem read_of_mem_read {field value : String} (member : value ∈ (read field).value) :
    (read value).value = [value] := by
  by_cases range : ∃ first last, IsRange field.toList first last
  · obtain ⟨first, last, range⟩ := range
    rw [read_of_isRange range] at member
    obtain ⟨n, rfl⟩ := exists_of_mem_numerals member
    rw [read_of_hyphen_not_mem ((Decimal.digits_repr n).not_mem (by decide))]
  · have literal := read_of_not_isRange range
    rw [literal] at member
    obtain rfl := List.mem_singleton.1 member
    rw [literal]

theorem length_read_le (field : String) : (read field).value.length ≤ 100000 := by
  by_cases range : ∃ first last, IsRange field.toList first last
  · obtain ⟨first, last, range⟩ := range
    have short := range.short
    rw [read_of_isRange range, length_numerals]
    omega
  · rw [read_of_not_isRange range, List.length_singleton]
    omega

/-- A field that is a range stands for the canonical numerals of its numbers, one after the other,
of which there are none if the second number is the smaller one. Any other field stands for itself,
and there is a warning if and only if it has a hyphen. So no field has more than a hundred thousand
values, and each value stands for itself. -/
theorem reads_ranges_and_nothing_else (field : String) :
    (∀ first last, IsRange field.toList first last →
      (read field).warning? = none ∧ (read field).value.length = last + 1 - first ∧
        (∀ i < last + 1 - first, ∃ numeral, (read field).value[i]? = some numeral ∧
          IsCanonical numeral.toList (first + i)) ∧
        (read field).value.Nodup) ∧
      ((¬∃ first last, IsRange field.toList first last) →
        (read field).value = [field] ∧
          (read field).warning? =
            if '-' ∈ field.toList then some (.invalidRange field) else none) ∧
      (read field).value.length ≤ 100000 ∧
      ∀ value ∈ (read field).value, (read value).value = [value] := by
  refine ⟨?_, ?_, length_read_le field, fun value => read_of_mem_read⟩
  · intro first last range
    have distinct := nodup_read field
    rw [read_of_isRange range] at distinct ⊢
    refine ⟨rfl, length_numerals, ?_, distinct⟩
    intro i inside
    exact ⟨_, getElem?_numerals inside, Decimal.isCanonical_iff.2 rfl⟩
  · intro other
    rw [read_of_not_isRange other]
    exact ⟨rfl, rfl⟩

theorem reads_ranges_and_nothing_else_at_largest :
    let range := "+9223372036854775806-09223372036854775807"
    let other := "1-2-3"
    IsRange range.toList 9223372036854775806 9223372036854775807 ∧
      (read range).value.length = 2 ∧ (read range).value[1]? = some "9223372036854775807" ∧
      (read range).warning? = none ∧
      (¬∃ first last, IsRange other.toList first last) ∧
      (read other).value = [other] ∧ (read other).warning? = some (.invalidRange other) := by
  intro range other
  have in_range : IsRange range.toList 9223372036854775806 9223372036854775807 :=
    range?_eq_some_iff.1 (by decide +kernel)
  have no_range : ¬∃ first last, IsRange other.toList first last := by
    rintro ⟨first, last, between⟩
    have none_read : range? other.toList = none := by decide +kernel
    cases none_read.symm.trans (range?_eq_some_iff.2 between)
  obtain ⟨no_warning, two, -⟩ := (reads_ranges_and_nothing_else range).1 _ _ in_range
  obtain ⟨literal, warned⟩ := (reads_ranges_and_nothing_else other).2.1 no_range
  refine ⟨in_range, two, ?_, no_warning, no_range, literal, ?_⟩
  · rw [read_of_isRange in_range]
    exact getElem?_numerals (by decide)
  · rw [warned]
    decide

end TableShell.Field
