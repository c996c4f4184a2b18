import TableShell.Proofs.Store.Locality
import TableShell.Proofs.Store.Places

/-!
# Queries and updates select the same rows

An update writes to the rows that a query for its old values finds (`updatedAt_matchingPlaces`), and
it skips a file, with a line that says why, just when the query fails or the column to write is
missing (`updatePlaces?_eq_none_iff`, `exists_skipLine`). An update of a column in place, none of
whose new values is an old one, leaves nothing for the query to find, and each row that had an old
or a new value now has a new one (`matchingRows_updated_old`, `length_matchingRows_updated_new`).

## Main definitions

- `Table.Writes`: what is written to a row
- `Table.UpdatedAt`: the table after an update that writes to the rows in some places
- `Store.LacksTarget`: a file without the column that an update writes
- `Store.SkipLine`: the line about a file that an update skips
-/

namespace TableShell

namespace Substitution

variable {s : Substitution} {value : String}

/-- With balanced values all old values are replaced, and no others. -/
theorem isSome_replacement? (balanced : s.isBalanced) (value : String) :
    (s.replacement? value).isSome = s.old.contains value := by
  rw [replacement?]
  cases first : s.old.idxOf? value with
  | none =>
    have absent : value ∉ s.old := List.idxOf?_eq_none_iff.1 first
    simp [absent]
  | some i =>
    obtain ⟨known, listed, -⟩ := List.idxOf?_eq_some_iff.1 first
    obtain ⟨new, written⟩ := exists_valueAt?_eq_some balanced known
    have present : value ∈ s.old := listed ▸ List.getElem_mem known
    simp [written, present]

theorem apply_mem_new (balanced : s.isBalanced) (replaced : value ∈ s.old) :
    s.apply value ∈ s.new := by
  have known : (s.replacement? value).isSome := by
    rw [isSome_replacement? balanced]
    simpa using replaced
  obtain ⟨new, written⟩ := Option.isSome_iff_exists.1 known
  obtain ⟨i, -, here⟩ := Option.bind_eq_some_iff.1 written
  rw [apply, written, Option.getD_some]
  rw [valueAt?_eq_getElem? balanced] at here
  exact List.mem_of_getElem? here

/-- What an update leaves is a new value if and only if it was an old or a new one. -/
theorem apply_mem_new_iff (balanced : s.isBalanced) :
    s.apply value ∈ s.new ↔ value ∈ s.old ++ s.new := by
  rw [List.mem_append]
  by_cases replaced : value ∈ s.old
  · exact iff_of_true (apply_mem_new balanced replaced) (.inl replaced)
  · rw [apply_of_not_mem replaced]
    exact (or_iff_right replaced).symm

/-- If no new value is an old one, no old value is left. -/
theorem apply_not_mem_old (balanced : s.isBalanced) (apart : ∀ value ∈ s.new, value ∉ s.old) :
    s.apply value ∉ s.old := by
  by_cases replaced : value ∈ s.old
  · exact apart _ (apply_mem_new balanced replaced)
  · rwa [apply_of_not_mem replaced]

end Substitution

namespace Table

variable {s : Substitution} {t : Table} {source target place : Nat}
  {keyColumn? : Option String} {old new : Chunk}

/-! ### Rows that are written to -/

private theorem isSome_bind_replacement? (balanced : s.isBalanced) (row : Row) :
    (row[source]?.bind s.replacement?).isSome = row[source]?.any s.old.contains := by
  cases row[source]? with
  | none => rfl
  | some cell => exact Substitution.isSome_replacement? balanced cell

theorem hits_eq_length (balanced : s.isBalanced) (t : Table) (source : Nat) :
    t.hits s source = (t.matchingPlaces source s.old).length := by
  simp only [hits, isSome_bind_replacement? balanced, matchingPlaces, List.length_findIdxs]

theorem place?_of_updatePlaces?
    (placed : t.updatePlaces? keyColumn? old new = some (source, target)) :
    t.place? keyColumn? old.column? = some source := by
  obtain ⟨column, resolved, found, -⟩ := updatePlaces?_eq_some_iff.1 placed
  exact Option.bind_eq_some_iff.2 ⟨column, resolved, found⟩

/-- The second row is the first one written to: the cell that is read is an old value, which counts
where it occurs first, and the lone new value, or else the one at the same position, takes the place
of the cell to write. -/
def Writes (s : Substitution) (source target : Nat) (row row' : Row) : Prop :=
  ∃ cell value i, row[source]? = some cell ∧ s.old.idxOf? cell = some i ∧
    s.new[if s.new.length = 1 then 0 else i]? = some value ∧ target < row.length ∧
    row' = row.set target value

/-- The second table is the first one after an update that writes to the rows in the given places
and to no others. -/
structure UpdatedAt (keyColumn? : Option String) (old new : Chunk) (t u : Table)
    (places : List Nat) : Prop where
  columns : u.columns = t.columns
  written : ∃ source target, t.updatePlaces? keyColumn? old new = some (source, target) ∧
    ∀ i ∈ places, ∃ row row', t.rows[i]? = some row ∧ u.rows[i]? = some row' ∧
      Writes ⟨old.values, new.values⟩ source target row row'
  kept : ∀ i, i ∉ places → u.rows[i]? = t.rows[i]?

private theorem writes_rewriteRow (balanced : s.isBalanced) {row : Row} (hs : source < row.length)
    (ht : target < row.length) {cell : String} (read : row[source]? = some cell)
    (replaced : cell ∈ s.old) : Writes s source target row (rewriteRow s source target row) := by
  have rewrites := rewrites_rewriteRow balanced hs ht
  generalize rewriteRow s source target row = row' at rewrites ⊢
  cases rewrites with
  | @hit cell value i read first new room => exact ⟨cell, value, i, read, first, new, room, rfl⟩
  | @miss other read' absent =>
    obtain rfl : cell = other := Option.some.inj (read.symm.trans read')
    exact absurd replaced absent

theorem updatedAt_matchingPlaces (balanced : Substitution.isBalanced ⟨old.values, new.values⟩)
    (shape : t.Rectangular)
    (placed : t.updatePlaces? keyColumn? old new = some (source, target)) :
    UpdatedAt keyColumn? old new t (t.updated keyColumn? old new)
      (t.matchingPlaces source old.values) := by
  obtain ⟨hs, ht⟩ := lt_of_updatePlaces? placed
  have at_place (i : Nat) : (t.updated keyColumn? old new).rows[i]? =
      t.rows[i]?.map (rewriteRow ⟨old.values, new.values⟩ source target) := by
    simp only [updated, placed, List.getElem?_map]
  refine ⟨columns_updated, ⟨source, target, placed, ?_⟩, ?_⟩
  · intro i member
    obtain ⟨cell, listed, found⟩ := mem_matchingPlaces_iff.1 member
    obtain ⟨row, here, read⟩ := Option.bind_eq_some_iff.1 found
    have width := shape.2 row (List.mem_of_getElem? here)
    refine ⟨row, _, here, (at_place i).trans (congrArg (Option.map _) here), ?_⟩
    exact writes_rewriteRow balanced (width ▸ hs) (width ▸ ht) read listed
  · intro i outside
    rw [at_place]
    cases here : t.rows[i]? with
    | none => rfl
    | some row =>
      -- The cell that is read is no old value, or else the place would be one of a matching row.
      have untouched : row[source]?.bind
          (Substitution.replacement? ⟨old.values, new.values⟩) = none := by
        cases read : row[source]? with
        | none => rfl
        | some cell =>
          refine Substitution.replacement?_of_not_mem fun listed => outside ?_
          exact mem_matchingPlaces_iff.2 ⟨cell, listed, Option.bind_eq_some_iff.2 ⟨row, here, read⟩⟩
      rw [Option.map_some, rewriteRow_of_none untouched]

/-! ### Rows after an update in place -/

theorem matchingRows_updated
    (placed : t.updatePlaces? keyColumn? old new = some (place, place)) (values : List String) :
    let s : Substitution := ⟨old.values, new.values⟩
    (t.updated keyColumn? old new).matchingRows place values =
      (t.rows.filter fun row => (row[place]?.map s.apply).any values.contains).map
        (·.modify place s.apply) := by
  intro s
  have rows : (t.updated keyColumn? old new).rows = t.rows.map (·.modify place s.apply) := by
    simp only [updated, placed]
    exact List.map_congr_left fun row _ => rewriteRow_self s place row
  rw [matchingRows, rows, List.filter_map]
  simp only [Function.comp_def, List.getElem?_modify_eq]
  rfl

/-- No old value is left in the column. -/
theorem matchingRows_updated_old (balanced : Substitution.isBalanced ⟨old.values, new.values⟩)
    (placed : t.updatePlaces? keyColumn? old new = some (place, place))
    (apart : ∀ value ∈ new.values, value ∉ old.values) :
    (t.updated keyColumn? old new).matchingRows place old.values = [] := by
  rw [matchingRows_updated placed, List.map_eq_nil_iff, List.filter_eq_nil_iff]
  intro row _
  cases row[place]? with
  | none => exact Bool.false_ne_true
  | some cell =>
    have gone : Substitution.apply ⟨old.values, new.values⟩ cell ∉ old.values :=
      Substitution.apply_not_mem_old balanced apart
    simpa using gone

/-- The rows with a new value are those that had an old or a new one. -/
theorem length_matchingRows_updated_new
    (balanced : Substitution.isBalanced ⟨old.values, new.values⟩)
    (placed : t.updatePlaces? keyColumn? old new = some (place, place)) :
    ((t.updated keyColumn? old new).matchingRows place new.values).length =
      (t.matchingRows place (old.values ++ new.values)).length := by
  rw [matchingRows_updated placed, List.length_map, matchingRows]
  congr 1
  refine List.filter_congr fun row _ => ?_
  cases row[place]? with
  | none => rfl
  | some cell =>
    rw [Option.map_some, Option.any_some, Option.any_some, Bool.eq_iff_iff,
      List.contains_iff_mem, List.contains_iff_mem]
    exact Substitution.apply_mem_new_iff balanced

end Table

namespace Store

open Workbook (modify modifyAll)

variable {store : Store} {old new : Chunk} {file : String} {t : Table} {source target : Nat}

/-- A file that is known lacks the column that an update writes: the one that the new chunk names,
or else the one that the old chunk means. -/
def LacksTarget (store : Store) (old new : Chunk) (file : String) : Prop :=
  ∃ t column, store.book.get? file = some t ∧ store.column? t old.column? = some column ∧
    new.column?.getD column ∉ t.columns

/-- An update leaves out the files in which a query for the old values fails and those that lack
the column to write. -/
theorem updatePlaces?_eq_none_iff :
    (store.book.get? file).bind (Table.updatePlaces? store.keyColumn? old new) = none ↔
      (∃ fault, store.findRows file old = .error fault) ∨ store.LacksTarget old new file := by
  rw [exists_fault_findRows_iff]
  cases known : store.book.get? file with
  | none => simp
  | some t =>
    have lacks : store.LacksTarget old new file ↔ ∃ column,
        old.column?.or (store.keyColumn?.or t.columns.head?) = some column ∧
          t.columnIndex? (new.column?.getD column) = none := by
      simp [LacksTarget, known, column?_eq_or, Table.columnIndex?]
    rw [lacks, Option.bind_some, Option.bind_some, Table.updatePlaces?, Table.place?]
    cases old.column?.or (store.keyColumn?.or t.columns.head?) with
    | none => simp
    | some column =>
      simp only [Option.bind_eq_bind, Option.bind_some, Option.some.injEq, exists_eq_left']
      cases t.columnIndex? column with
      | none => simp
      | some source =>
        cases t.columnIndex? (new.column?.getD column) with
        | none => simp
        | some target => simp

theorem map_updated_of_left_out
    (left_out : (store.book.get? file).bind (Table.updatePlaces? store.keyColumn? old new) =
      none) :
    (store.book.get? file).map (Table.updated store.keyColumn? old new) =
      store.book.get? file := by
  cases known : store.book.get? file with
  | none => rfl
  | some t =>
    rw [known, Option.bind_some] at left_out
    rw [Option.map_some, Table.updated, left_out]

/-! ### Notes -/

theorem updateNote_of_updatePlaces? (known : store.book.get? file = some t)
    (placed : t.updatePlaces? store.keyColumn? old new = some (source, target)) :
    updateNote store.keyColumn? old new store.book file =
      .updated file (t.hits ⟨old.values, new.values⟩ source) := by
  obtain ⟨column, resolved, atSource, atTarget⟩ := Table.updatePlaces?_eq_some_iff.1 placed
  simp only [updateNote, known, resolved, atSource, atTarget]

/-- The line about a file that an update skips. -/
inductive SkipLine (store : Store) (old new : Chunk) (file : String) : String → Prop
  | unknownFile (unknown : store.book.get? file = none) :
      SkipLine store old new file ("⚠️  ファイルが見つかりません: " ++ file)
  | unknownColumns {t : Table} {column : String} (known : store.book.get? file = some t)
      (resolved : store.column? t old.column? = some column) :
      SkipLine store old new file ("⚠️  " ++ file ++ ": 列'" ++ column ++ "'または'" ++
        new.column?.getD column ++ "'が見つかりません")

theorem exists_skipLine (shape : store.book.Rectangular)
    (left_out : (store.book.get? file).bind (Table.updatePlaces? store.keyColumn? old new) =
      none) :
    ∃ line, store.SkipLine old new file line ∧
      (updateNote store.keyColumn? old new store.book file).lines = [line] := by
  cases known : store.book.get? file with
  | none =>
    have joined : "⚠️  " ++ "ファイルが見つかりません: " = "⚠️  ファイルが見つかりません: " := by decide
    refine ⟨_, .unknownFile known, ?_⟩
    simp only [updateNote, known]
    show ["⚠️  " ++ ("ファイルが見つかりません: " ++ file)] = _
    rw [← joined, String.append_assoc]
  | some t =>
    obtain ⟨column, resolved⟩ := exists_column?_eq_some (shape known) store old.column?
    have means := column?_eq_or store t old.column? ▸ resolved
    refine ⟨_, .unknownColumns known resolved, ?_⟩
    rw [known, Option.bind_some] at left_out
    simp only [updateNote, known, means]
    split
    next source target atSource atTarget =>
      have placed := Table.updatePlaces?_eq_some_iff.2 ⟨column, means, atSource, atTarget⟩
      cases left_out.symm.trans placed
    next =>
      show ["⚠️  " ++ (file ++ ": 列'" ++ column ++ "'または'" ++ new.column?.getD column ++
        "'が見つかりません")] = _
      simp only [String.append_assoc]

/-- The files that an update leaves out are those that it says it skips. -/
theorem isSkipped_updateNote_iff :
    (∃ fault, updateNote store.keyColumn? old new store.book file = .skipped fault) ↔
      (store.book.get? file).bind (Table.updatePlaces? store.keyColumn? old new) = none := by
  constructor
  · rintro ⟨fault, skips⟩
    cases placed : (store.book.get? file).bind (Table.updatePlaces? store.keyColumn? old new) with
    | none => rfl
    | some ends =>
      obtain ⟨t, known, at_ends⟩ := Option.bind_eq_some_iff.1 placed
      cases skips.symm.trans (updateNote_of_updatePlaces? known at_ends)
  · intro left_out
    rw [updateNote]
    cases known : store.book.get? file with
    | none => exact ⟨_, rfl⟩
    | some t =>
      rw [known, Option.bind_some] at left_out
      simp only
      cases resolved : old.column?.or (store.keyColumn?.or t.columns.head?) with
      | none => exact ⟨_, rfl⟩
      | some column =>
        simp only
        split
        next source target atSource atTarget =>
          have placed := Table.updatePlaces?_eq_some_iff.2 ⟨column, resolved, atSource, atTarget⟩
          cases left_out.symm.trans placed
        next => exact ⟨_, rfl⟩

/-- In a list without repetitions no note is affected by what became of the other files. -/
theorem notesOver_of_nodup {f : Table → Table} {note : Workbook → String → Note}
    (reads : ∀ {one two : Workbook} {file : String}, one.get? file = two.get? file →
      note one file = note two file)
    (book : Workbook) {files : List String} (distinct : files.Nodup) :
    notesOver f note book files = files.map (note book) := by
  induction files with
  | nil => rfl
  | cons file files ih =>
    obtain ⟨new, distinct⟩ := List.nodup_cons.1 distinct
    have later : notesOver f note (modify f book file) files = notesOver f note book files := by
      refine notesOver_congr reads fun name member => ?_
      have other : name ≠ file := by
        rintro rfl
        exact new member
      rw [Workbook.get?_modify, if_neg other]
    rw [notesOver, later, ih distinct, List.map_cons]

end Store

end TableShell
