import TableShell.Proofs.Chunk.Written
import TableShell.Proofs.Field.Grammar
import TableShell.Proofs.Store.Places

/-!
# Queries for ranges of numbers

A query for a range of numbers in a column finds the rows whose cell there is the numeral of a
number in the range, written without a sign and without leading zeros, and no others: a cell that
only looks like a number is a text. To cut a range in two is to cut what it finds in two
(`ranged_queries_find_intervals`).

## Main definitions

- `Field.rangeText`, `Chunk.ofRange`: a range of numbers as a text, and as a chunk of a column
- `Table.HasNumberIn`: a row with a number of an interval in a column
-/

namespace TableShell

namespace Field

open Decimal (IsCanonical)

variable {first last : Nat}

/-- The text of a range of numbers. -/
def rangeText (first last : Nat) : String :=
  first.repr ++ "-" ++ last.repr

private theorem isRange_rangeText (first_lt : first < 2 ^ 63) (last_lt : last < 2 ^ 63)
    (short : (last : Int) - first < 100000) : IsRange (rangeText first last).toList first last where
  spelled := ⟨first.repr.toList, last.repr.toList, by simp [rangeText],
    .plain (Decimal.digits_repr first), .plain (Decimal.digits_repr last)⟩
  first_lt := first_lt
  last_lt := last_lt
  short := short

/-- The values of a range are the canonical numerals of its numbers. -/
theorem mem_numerals_iff {numeral : String} : numeral ∈ numerals first last ↔
    ∃ n, first ≤ n ∧ n ≤ last ∧ IsCanonical numeral.toList n := by
  simp only [numerals, List.mem_map, List.mem_range'_1, Decimal.isCanonical_iff, String.toList_inj]
  constructor
  · rintro ⟨n, inside, rfl⟩
    exact ⟨n, inside.1, by omega, rfl⟩
  · rintro ⟨n, ge, le, rfl⟩
    exact ⟨n, ⟨ge, by omega⟩, rfl⟩

end Field

namespace Chunk

/-- What the text of a range of numbers in a column is read as. -/
def ofRange (column : String) (first last : Nat) : Chunk :=
  (read (written column (Field.rangeText first last))).value

theorem ofRange_eq {column : String} {first last : Nat} (named : column ≠ "")
    (plain : '=' ∉ column.toList) (first_lt : first < 2 ^ 63) (last_lt : last < 2 ^ 63)
    (short : (last : Int) - first < 100000) :
    ofRange column first last = ⟨some column, Field.numerals first last⟩ := by
  have range := Field.range?_eq_some_iff.2 (Field.isRange_rangeText first_lt last_lt short)
  rw [ofRange, read_written_of_range? named plain range]

end Chunk

namespace Table

open Decimal (IsCanonical)

variable {t : Table} {place first middle last i : Nat}

/-- The cell of a row in one place is the canonical numeral of a number in an interval. -/
def HasNumberIn (t : Table) (place first last i : Nat) : Prop :=
  ∃ cell n, t.cell? i place = some cell ∧ first ≤ n ∧ n ≤ last ∧ IsCanonical cell.toList n

private theorem mem_matchingPlaces_numerals_iff :
    i ∈ t.matchingPlaces place (Field.numerals first last) ↔ t.HasNumberIn place first last i := by
  simp only [mem_matchingPlaces_iff, Field.mem_numerals_iff, HasNumberIn]
  constructor
  · rintro ⟨cell, ⟨n, ge, le, written⟩, read⟩
    exact ⟨cell, n, read, ge, le, written⟩
  · rintro ⟨cell, n, read, ge, le, written⟩
    exact ⟨cell, ⟨n, ge, le, written⟩, read⟩

/-- An interval that is cut in two is the union of its parts. -/
theorem hasNumberIn_iff_or (ge : first ≤ middle) (lt : middle < last) :
    t.HasNumberIn place first last i ↔
      t.HasNumberIn place first middle i ∨ t.HasNumberIn place (middle + 1) last i := by
  constructor
  · rintro ⟨cell, n, read, from_first, to_last, written⟩
    by_cases early : n ≤ middle
    · exact .inl ⟨cell, n, read, from_first, early, written⟩
    · exact .inr ⟨cell, n, read, by omega, to_last, written⟩
  · rintro (⟨cell, n, read, from_first, to_middle, written⟩ |
      ⟨cell, n, read, later, to_last, written⟩)
    · exact ⟨cell, n, read, from_first, by omega, written⟩
    · exact ⟨cell, n, read, by omega, to_last, written⟩

/-- A cell is the numeral of one number, which is in one part of the interval. -/
theorem not_hasNumberIn_of_hasNumberIn (early : t.HasNumberIn place first middle i) :
    ¬t.HasNumberIn place (middle + 1) last i := by
  rintro ⟨cell', n', read', later, -, written'⟩
  obtain ⟨cell, n, read, -, to_middle, written⟩ := early
  obtain rfl : cell = cell' := Option.some.inj (read.symm.trans read')
  have same : n.repr.toList = n'.repr.toList :=
    (Decimal.isCanonical_iff.1 written).symm.trans (Decimal.isCanonical_iff.1 written')
  have eq : n = n' := Nat.repr_injective (String.toList_inj.1 same)
  omega

end Table

namespace Store

variable {store : Store} {file column : String} {t : Table} {place first last : Nat}

theorem findsAt_ofRange (known : store.book.get? file = some t)
    (found : t.columnIndex? column = some place) (named : column ≠ "")
    (plain : '=' ∉ column.toList) (first_lt : first < 2 ^ 63) (last_lt : last < 2 ^ 63)
    (short : (last : Int) - first < 100000) :
    store.FindsAt file (Chunk.ofRange column first last) t
      (t.matchingPlaces place (Field.numerals first last)) := by
  rw [Chunk.ofRange_eq named plain first_lt last_lt short]
  exact findsAt_iff.2 ⟨known, place, found, rfl⟩

/-- In a file that has a column, a query for a range of numbers in this column finds, in the order
of the table, the rows whose cell in the first such column is the canonical numeral of a number in
the range. If the range is cut in two, each of these rows is found by exactly one of the queries for
the two parts, and these find no other rows. -/
theorem ranged_queries_find_intervals (known : store.book.get? file = some t)
    (found : t.columnIndex? column = some place) (named : column ≠ "")
    (plain : '=' ∉ column.toList) (first_lt : first < 2 ^ 63) (last_lt : last < 2 ^ 63)
    (short : (last : Int) - first < 100000) :
    ∃ places, store.FindsAt file (Chunk.ofRange column first last) t places ∧
      (∀ i, i ∈ places ↔ t.HasNumberIn place first last i) ∧
      ∀ middle, first ≤ middle → middle < last → ∃ lower upper,
        store.FindsAt file (Chunk.ofRange column first middle) t lower ∧
        store.FindsAt file (Chunk.ofRange column (middle + 1) last) t upper ∧
        (∀ i, i ∈ places ↔ i ∈ lower ∨ i ∈ upper) ∧ ∀ i, ¬(i ∈ lower ∧ i ∈ upper) := by
  refine ⟨_, findsAt_ofRange known found named plain first_lt last_lt short,
    fun i => Table.mem_matchingPlaces_numerals_iff, ?_⟩
  intro middle ge lt
  refine ⟨_, _,
    findsAt_ofRange known found named plain first_lt (by omega) (by omega),
    findsAt_ofRange known found named plain (by omega) last_lt (by omega), ?_, ?_⟩
  · intro i
    simp only [Table.mem_matchingPlaces_numerals_iff]
    exact Table.hasNumberIn_iff_or ge lt
  · rintro i ⟨early, late⟩
    rw [Table.mem_matchingPlaces_numerals_iff] at early late
    exact Table.not_hasNumberIn_of_hasNumberIn early late

theorem ranged_queries_find_intervals_among_texts :
    let t : Table :=
      { columns := ["id", "no", "no"]
        rows := [["1", "1", "9"], ["2", "01", "1"], ["3", "3", "3"], ["4", "+2", "2"],
          ["5", "3", ""], ["6", "2 ", "2"]] }
    let start : Store := { book := Workbook.ofList [("a", t)] }
    start.book.get? "a" = some t ∧ t.columnIndex? "no" = some 1 ∧ '=' ∉ "no".toList ∧
      start.FindsAt "a" (Chunk.ofRange "no" 1 3) t [0, 2, 4] ∧
      (∀ i, i ∈ [0, 2, 4] ↔ t.HasNumberIn 1 1 3 i) ∧
      ∃ lower upper, start.FindsAt "a" (Chunk.ofRange "no" 1 2) t lower ∧
        start.FindsAt "a" (Chunk.ofRange "no" 3 3) t upper ∧
        (∀ i, i ∈ [0, 2, 4] ↔ i ∈ lower ∨ i ∈ upper) ∧ ∀ i, ¬(i ∈ lower ∧ i ∈ upper) := by
  intro t start
  have known : start.book.get? "a" = some t := by
    rw [Workbook.get?_ofList]
    rfl
  have found : t.columnIndex? "no" = some 1 := by decide
  have plain : '=' ∉ "no".toList := by decide
  have first_lt : 1 < 2 ^ 63 := by decide
  have last_lt : 3 < 2 ^ 63 := by decide
  obtain ⟨places, finds, inside, parts⟩ :=
    ranged_queries_find_intervals known found (by decide) plain first_lt last_lt (by decide)
  obtain rfl : places = [0, 2, 4] := by
    obtain ⟨-, place, placed, rfl⟩ := findsAt_iff.1 finds
    rw [Chunk.ofRange_eq (by decide) plain first_lt last_lt (by decide)] at placed ⊢
    cases placed.symm.trans (show t.place? _ (some "no") = some 1 from found)
    decide +kernel
  exact ⟨known, found, plain, finds, inside, parts 2 (by decide) (by decide)⟩

end Store

end TableShell
