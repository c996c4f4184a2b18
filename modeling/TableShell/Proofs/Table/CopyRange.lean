import Mathlib.Data.List.Basic
import TableShell.Proofs.Table.CopyRow

/-!
# Copying a range of rows

Rows are copied one after the other, each copy being made in the rows that the earlier ones have
left. `CopiedAtOnce` says what the rows would be if all originals were read before any copy was
placed. The two agree as long as no row is read after one was placed under its key
(`copiedAtOnce_copyEach`).
-/

namespace TableShell.Table

variable {key : Nat} {pairs : List (String × String)} {source target : String}
  {before now after rows : List Row} {copied : Row}

/-- The rows after copies from the first key to the second key of each pair, in this order. -/
def copyEach (key : Nat) (pairs : List (String × String)) (rows : List Row) : List Row :=
  pairs.foldl (fun rows pair => copyRows key pair.1 pair.2 rows) rows

/-- The rows `after` are the rows `now` with the copies of all pairs placed among them. Keys are
looked up in the rows `before`, for the original of a copy as well as for its place. -/
structure CopiedInto (key : Nat) (pairs : List (String × String)) (before now after : List Row) :
    Prop where
  /-- A copy takes the place of the first row with its target key. -/
  replaced : ∀ pair ∈ pairs, ∀ ⦃i row⦄, before.findIdx? (hasKey key pair.2) = some i →
    copyOf? key pair.1 pair.2 before = some row → after[i]? = some row
  /-- A row whose place no copy takes stays as it is. -/
  kept : ∀ ⦃i row⦄, now[i]? = some row →
    (∀ pair ∈ pairs, before.findIdx? (hasKey key pair.2) = some i →
      copyOf? key pair.1 pair.2 before = none) → after[i]? = some row
  /-- The other copies come after all rows, in the order of the pairs. -/
  added : after.drop now.length = pairs.filterMap fun pair =>
    if (before.find? (hasKey key pair.2)).isSome then none else copyOf? key pair.1 pair.2 before

/-- The second rows are the first ones with the copies of all pairs placed among them, every copy
being one of a row as it was at first. -/
def CopiedAtOnce (key : Nat) (pairs : List (String × String)) (before after : List Row) : Prop :=
  CopiedInto key pairs before before after

private theorem copyOf?_copyRows {other value : String} (ne : other ≠ target) :
    copyOf? key other value (copyRows key source target rows) = copyOf? key other value rows := by
  rw [copyOf?, find?_copyRows ne, copyOf?]

private theorem eq_of_findIdx?_of_hasKey {value : String} {i : Nat} {row : Row}
    (found : rows.findIdx? (hasKey key value) = some i) (there : rows[i]? = some row)
    (has : hasKey key target row) : value = target := by
  obtain ⟨first, also_there, has_value⟩ := exists_hasKey_of_findIdx? found
  obtain rfl : first = row := Option.some.inj (also_there.symm.trans there)
  rw [hasKey_iff] at has has_value
  exact Option.some.inj (has_value.symm.trans has)

/-- Pairs that neither read nor write the target key of a copy find all rows as they were before
it. -/
theorem CopiedAtOnce.seenBefore
    (reads : ∀ pair ∈ pairs, pair.1 ≠ target) (writes : ∀ pair ∈ pairs, pair.2 ≠ target)
    (rest : CopiedAtOnce key pairs (copyRows key source target before) after) :
    CopiedInto key pairs before (copyRows key source target before) after := by
  have same_place (pair) (member : pair ∈ pairs) :
      (copyRows key source target before).findIdx? (hasKey key pair.2) =
        before.findIdx? (hasKey key pair.2) := findIdx?_copyRows (writes pair member)
  have same_copy (pair) (member : pair ∈ pairs) :
      copyOf? key pair.1 pair.2 (copyRows key source target before) =
        copyOf? key pair.1 pair.2 before := copyOf?_copyRows (reads pair member)
  refine ⟨?_, ?_, ?_⟩
  · intro pair member i row found made
    exact rest.replaced pair member ((same_place pair member).trans found)
      ((same_copy pair member).trans made)
  · intro i row there free
    refine rest.kept there ?_
    intro pair member found
    rw [same_copy pair member]
    exact free pair member ((same_place pair member).symm.trans found)
  · rw [rest.added]
    apply List.filterMap_congr
    intro pair member
    rw [find?_copyRows (writes pair member), same_copy pair member]

/-- A copy stays in its place if no pair places another one under its key. -/
theorem CopiedInto.stays {i : Nat} (writes : ∀ pair ∈ pairs, pair.2 ≠ target)
    (rest : CopiedInto key pairs before (copyRows key source target before) after)
    (there : (copyRows key source target before)[i]? = some copied)
    (has : hasKey key target copied) : after[i]? = some copied := by
  refine rest.kept there ?_
  intro pair member found
  rw [← findIdx?_copyRows (writes pair member)] at found
  exact absurd (eq_of_findIdx?_of_hasKey found there has) (writes pair member)

/-- One more pair without a row to copy changes nothing. -/
theorem CopiedInto.cons_of_none (nothing : copyOf? key source target before = none)
    (rest : CopiedInto key pairs before before after) :
    CopiedAtOnce key ((source, target) :: pairs) before after := by
  refine ⟨?_, ?_, ?_⟩
  · intro pair member i row found made
    rcases List.mem_cons.1 member with rfl | later
    · cases nothing.symm.trans made
    · exact rest.replaced pair later found made
  · intro i row there free
    exact rest.kept there fun pair later => free pair (List.mem_cons_of_mem _ later)
  · rw [rest.added, List.filterMap_cons_none]
    simp only [nothing, ite_self]

/-- One more pair whose copy takes the place of a row. -/
theorem CopiedInto.cons_of_place {p : Nat} (made : copyOf? key source target before = some copied)
    (place : before.findIdx? (hasKey key target) = some p) (stays : after[p]? = some copied)
    (rest : CopiedInto key pairs before (before.set p copied) after) :
    CopiedAtOnce key ((source, target) :: pairs) before after := by
  refine ⟨?_, ?_, ?_⟩
  · intro pair member i row found made_row
    rcases List.mem_cons.1 member with rfl | later
    · obtain rfl : p = i := Option.some.inj (place.symm.trans found)
      obtain rfl : copied = row := Option.some.inj (made.symm.trans made_row)
      exact stays
    · exact rest.replaced pair later found made_row
  · intro i row here free
    have elsewhere : p ≠ i := by
      rintro rfl
      cases made.symm.trans (free _ List.mem_cons_self place)
    refine rest.kept ?_ fun pair later => free pair (List.mem_cons_of_mem _ later)
    rw [List.getElem?_set_ne elsewhere, here]
  · have present : (before.find? (hasKey key target)).isSome := by
      obtain ⟨old, there, -⟩ := exists_hasKey_of_findIdx? place
      rw [List.find?_eq_bind_findIdx?_getElem?, place, Option.bind_some, there]
      rfl
    have added := rest.added
    rw [List.length_set] at added
    rw [added, List.filterMap_cons_none]
    simp only [present, if_true]

/-- One more pair whose copy comes after all rows. -/
theorem CopiedInto.cons_of_end (made : copyOf? key source target before = some copied)
    (place : before.findIdx? (hasKey key target) = none)
    (stays : after[before.length]? = some copied)
    (rest : CopiedInto key pairs before (before ++ [copied]) after) :
    CopiedAtOnce key ((source, target) :: pairs) before after := by
  refine ⟨?_, ?_, ?_⟩
  · intro pair member i row found made_row
    rcases List.mem_cons.1 member with rfl | later
    · cases place.symm.trans found
    · exact rest.replaced pair later found made_row
  · intro i row here free
    refine rest.kept ?_ fun pair later => free pair (List.mem_cons_of_mem _ later)
    rw [List.getElem?_append_left (List.getElem?_eq_some_iff.1 here).1, here]
  · have absent : before.find? (hasKey key target) = none := by
      rw [List.find?_eq_bind_findIdx?_getElem?, place, Option.bind_none]
    have added := rest.added
    rw [List.length_append, List.length_singleton] at added
    obtain ⟨inRange, last⟩ := List.getElem?_eq_some_iff.1 stays
    -- The copy is the first of the added rows, since its pair is the first one.
    rw [List.drop_eq_getElem_cons inRange, last, added, List.filterMap_cons_some]
    simp only [absent, made]
    rfl

/-- The first of the pairs can be copied before the others are looked at, provided that no other
pair reads or writes its target key. -/
theorem CopiedAtOnce.cons
    (reads : ∀ pair ∈ pairs, pair.1 ≠ target) (writes : ∀ pair ∈ pairs, pair.2 ≠ target)
    (rest : CopiedAtOnce key pairs (copyRows key source target before) after) :
    CopiedAtOnce key ((source, target) :: pairs) before after := by
  have seen := rest.seenBefore reads writes
  cases made : copyOf? key source target before with
  | none =>
    rw [copyRows_of_none (copyOf?_eq_none_iff.1 made)] at seen
    exact seen.cons_of_none made
  | some copied =>
    -- The copy takes the place of a row or comes last, and no later pair moves it.
    have stays := fun i there => seen.stays (i := i) writes there (hasKey_of_copyOf? made)
    rw [copyRows_of_some made, placeRow] at seen stays
    cases place : before.findIdx? (hasKey key target) with
    | some p =>
      rw [place] at seen stays
      obtain ⟨old, there, -⟩ := exists_hasKey_of_findIdx? place
      have inRange : p < before.length := (List.getElem?_eq_some_iff.1 there).1
      exact seen.cons_of_place made place (stays p (List.getElem?_set_self inRange))
    | none =>
      rw [place] at seen stays
      exact seen.cons_of_end made place (stays before.length List.getElem?_concat_length)

/-- If no pair reads or writes the target key of an earlier one, the copies that are made one
after the other are those that are made at once. -/
theorem copiedAtOnce_copyEach (reads : pairs.Pairwise fun earlier later => later.1 ≠ earlier.2)
    (writes : pairs.Pairwise fun earlier later => later.2 ≠ earlier.2) (rows : List Row) :
    CopiedAtOnce key pairs rows (copyEach key pairs rows) := by
  induction pairs generalizing rows with
  | nil =>
    refine ⟨?_, ?_, ?_⟩
    · intro pair member
      cases member
    · intro i row there _
      exact there
    · exact List.drop_length
  | cons pair pairs ih =>
    obtain ⟨reads_now, reads_later⟩ := List.pairwise_cons.1 reads
    obtain ⟨writes_now, writes_later⟩ := List.pairwise_cons.1 writes
    exact (ih reads_later writes_later (copyRows key pair.1 pair.2 rows)).cons reads_now writes_now

end TableShell.Table
