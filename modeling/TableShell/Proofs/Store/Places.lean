import Mathlib.Data.List.Perm.Subperm
import TableShell.Proofs.Store.Undo
import TableShell.Store.Search

/-!
# The places of found rows

A query answers with rows and not with their places, but the places are determined by the answer:
there is one increasing list of places at most whose rows are the rows that are found, namely the
places of all rows with one of the values in the column (`findsAt_iff`). This is so because equal
rows are found together or not at all.

## Main definitions

- `Table.matchingPlaces`, `Table.rowsAt`: the places of matching rows, and the rows in some places
- `Store.FindsAt`: the places of the rows that a query finds
-/

namespace TableShell

namespace Table

variable {t : Table} {index i : Nat} {values : List String} {places : List Nat}

/-- The places, in order, of the rows whose cell in the given column is one of the values. -/
def matchingPlaces (t : Table) (index : Nat) (values : List String) : List Nat :=
  t.rows.findIdxs fun row => row[index]?.any values.contains

/-- The rows in the given places. -/
def rowsAt (t : Table) (places : List Nat) : List Row :=
  places.filterMap (t.rows[·]?)

private theorem filterMap_findIdxs (p : Row → Bool) (rows : List Row) :
    (rows.findIdxs p).filterMap (rows[·]?) = rows.filter p := by
  induction rows with
  | nil => rfl
  | cons row rows ih =>
    have later : (rows.findIdxs p 1).filterMap ((row :: rows)[·]?) = rows.filter p := by
      rw [List.findIdxs_start, List.filterMap_map, ← ih]
      rfl
    rw [List.findIdxs_cons, List.filter_cons]
    split
    · exact congrArg (row :: ·) later
    · exact later

theorem rowsAt_matchingPlaces (t : Table) (index : Nat) (values : List String) :
    t.rowsAt (t.matchingPlaces index values) = t.matchingRows index values :=
  filterMap_findIdxs _ t.rows

theorem mem_matchingPlaces_iff :
    i ∈ t.matchingPlaces index values ↔ ∃ cell ∈ values, t.cell? i index = some cell := by
  simp only [matchingPlaces, List.mem_findIdxs_iff_exists_getElem_pos, Option.any_eq_true, cell?,
    Option.bind_eq_some_iff, List.getElem?_eq_some_iff, List.contains_iff_mem]
  constructor
  · rintro ⟨inside, cell, read, listed⟩
    exact ⟨cell, listed, _, ⟨inside, rfl⟩, read⟩
  · rintro ⟨cell, listed, _, ⟨inside, rfl⟩, read⟩
    exact ⟨inside, cell, read, listed⟩

theorem length_rowsAt (inside : ∀ i ∈ places, i < t.rows.length) :
    (t.rowsAt places).length = places.length := by
  rw [rowsAt, List.length_filterMap_eq_countP, List.countP_eq_length]
  intro i member
  rw [List.getElem?_eq_getElem (inside i member), Option.isSome_some]

private theorem getElem_mem_rowsAt (member : i ∈ places) (inside : i < t.rows.length) :
    t.rows[i] ∈ t.rowsAt places :=
  List.mem_filterMap.2 ⟨i, member, List.getElem?_eq_getElem inside⟩

/-- Places whose rows are the matching ones are the matching places. -/
theorem eq_matchingPlaces (increasing : places.Pairwise (· < ·))
    (inside : ∀ i ∈ places, i < t.rows.length)
    (rows : t.rowsAt places = t.matchingRows index values) :
    places = t.matchingPlaces index values := by
  have matching : places ⊆ t.matchingPlaces index values := by
    intro i member
    have here := inside i member
    have found : t.rows[i] ∈ t.matchingRows index values :=
      rows ▸ getElem_mem_rowsAt member here
    exact List.mem_findIdxs_iff_exists_getElem_pos.2 ⟨here, (List.mem_filter.1 found).2⟩
  have length : (t.matchingPlaces index values).length = places.length := by
    rw [← length_rowsAt inside, rows, matchingPlaces, matchingRows, List.length_findIdxs,
      List.countP_eq_length_filter]
  have distinct : places.Nodup := increasing.imp Nat.ne_of_lt
  have perm := (distinct.subperm matching).perm_of_length_le (Nat.le_of_eq length)
  refine perm.eq_of_pairwise ?_ increasing List.pairwise_findIdxs
  intro a b _ _ lt gt
  exact absurd gt (Nat.lt_asymm lt)

end Table

namespace Store

variable {store : Store} {file : String} {target : Chunk} {t : Table} {place : Nat}
  {places : List Nat}

/-- In the table of a file the rows that a query finds stand in the given places, in order. -/
structure FindsAt (store : Store) (file : String) (target : Chunk) (t : Table)
    (places : List Nat) : Prop where
  known : store.book.get? file = some t
  found : store.findRows file target = .ok (t.rowsAt places)
  increasing : places.Pairwise (· < ·)
  inside : ∀ i ∈ places, i < t.rows.length

theorem findRows_of_place? (known : store.book.get? file = some t)
    (placed : t.place? store.keyColumn? target.column? = some place) :
    store.findRows file target = .ok (t.matchingRows place target.values) := by
  obtain ⟨column, resolved, found⟩ := Option.bind_eq_some_iff.1 placed
  rw [← column?_eq_or] at resolved
  simp only [findRows, known, resolved, found]
  rfl

/-- A query fails if and only if its file is unknown or lacks its column. -/
theorem exists_fault_findRows_iff : (∃ fault, store.findRows file target = .error fault) ↔
    (store.book.get? file).bind (Table.place? store.keyColumn? target.column?) = none := by
  cases known : store.book.get? file with
  | none =>
    simp only [findRows, known]
    exact iff_of_true ⟨_, rfl⟩ rfl
  | some t =>
    cases placed : t.place? store.keyColumn? target.column? with
    | some place =>
      rw [findRows_of_place? known placed, Option.bind_some, placed]
      simp
    | none =>
      rw [Option.bind_some, placed]
      refine iff_of_true ?_ rfl
      rw [Table.place?, ← column?_eq_or] at placed
      cases resolved : store.column? t target.column? with
      | none =>
        simp only [findRows, known, resolved]
        exact ⟨_, rfl⟩
      | some column =>
        rw [resolved, Option.bind_some] at placed
        simp only [findRows, known, resolved, placed]
        exact ⟨_, rfl⟩

/-- The places of found rows are those of all rows with one of the values in the column. -/
theorem findsAt_iff : store.FindsAt file target t places ↔
    store.book.get? file = some t ∧
      ∃ place, t.place? store.keyColumn? target.column? = some place ∧
        places = t.matchingPlaces place target.values := by
  constructor
  · rintro ⟨known, found, increasing, inside⟩
    refine ⟨known, ?_⟩
    cases placed : t.place? store.keyColumn? target.column? with
    | none =>
      have fails : ∃ fault, store.findRows file target = .error fault := by
        rw [exists_fault_findRows_iff, known, Option.bind_some, placed]
      obtain ⟨fault, failed⟩ := fails
      cases found.symm.trans failed
    | some place =>
      have rows := Except.ok.inj (found.symm.trans (findRows_of_place? known placed))
      exact ⟨place, rfl, Table.eq_matchingPlaces increasing inside rows⟩
  · rintro ⟨known, place, placed, rfl⟩
    refine ⟨known, ?_, List.pairwise_findIdxs, ?_⟩
    · rw [findRows_of_place? known placed, Table.rowsAt_matchingPlaces]
    · intro i member
      exact (List.mem_findIdxs_iff_exists_getElem_pos.1 member).1

end Store

end TableShell
