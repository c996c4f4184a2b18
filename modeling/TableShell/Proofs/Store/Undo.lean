import Mathlib.Data.List.Basic
import TableShell.Proofs.Store.Update

/-!
# Undoing updates of a column

An update that writes to the column it reads applies a function to the cells of that column. If it
puts distinct values in the place of as many distinct values, the update with old and new values
exchanged takes it back (`update_update_inverse`), unless a cell that it keeps already has one of
the new values. Such a collision is the only way in which different cells can become equal
(`cell?_updated_eq_iff`).

## Main definitions

- `Substitution.apply`, `Substitution.inverse`: what becomes of a cell, and the way back
- `Substitution.IsRenaming`, `Substitution.Collides`: when there is a way back
- `Table.place?`, `Table.cell?`: the place of the column that is updated, and its cells
- `Store.CollisionFree`: no cell that an update keeps has one of its new values
-/

namespace TableShell

namespace Substitution

variable {s : Substitution} {value other : String}

/-- The value of a cell that is both read and written. -/
def apply (s : Substitution) (value : String) : String :=
  (s.replacement? value).getD value

/-- The old values in the place of the new ones. -/
def inverse (s : Substitution) : Substitution where
  old := s.new
  new := s.old

/-- Distinct values take the place of as many distinct values. -/
structure IsRenaming (s : Substitution) : Prop where
  old : s.old.Nodup
  new : s.new.Nodup
  length : s.old.length = s.new.length

/-- A value collides if it is written and is not replaced itself. A cell that has it from the
beginning looks like one that was written to. -/
def Collides (s : Substitution) (value : String) : Prop :=
  value ∈ s.new ∧ value ∉ s.old

instance (s : Substitution) (value : String) : Decidable (s.Collides value) :=
  inferInstanceAs (Decidable (_ ∧ _))

theorem apply_of_not_mem (absent : value ∉ s.old) : s.apply value = value := by
  rw [apply, replacement?_of_not_mem absent, Option.getD_none]

namespace IsRenaming

theorem inverse (renames : s.IsRenaming) : s.inverse.IsRenaming where
  old := renames.new
  new := renames.old
  length := renames.length.symm

theorem isBalanced (renames : s.IsRenaming) : s.isBalanced :=
  isBalanced_iff.2 (.inr renames.length.symm)

theorem apply_eq (renames : s.IsRenaming) {i : Nat} (old : s.old[i]? = some value)
    (new : s.new[i]? = some other) : s.apply value = other := by
  obtain ⟨known, rfl⟩ := List.getElem?_eq_some_iff.1 old
  have first : s.old.idxOf? s.old[i] = some i := by
    refine List.idxOf?_eq_some_iff.2 ⟨known, rfl, fun j before same => ?_⟩
    exact absurd ((List.getElem_inj renames.old).1 same) (Nat.ne_of_lt before)
  -- With a single new value there is a single old one, and it is at the front.
  have written : s.valueAt? i = some other := by
    rw [valueAt?_eq_getElem? renames.isBalanced]
    split
    next lone =>
      have front : i = 0 := by
        have := renames.length
        omega
      rw [← front, new]
    next => exact new
  rw [apply, replacement?, first, Option.bind_some, written, Option.getD_some]

theorem inverse_apply (renames : s.IsRenaming) (clear : ¬s.Collides value) :
    s.inverse.apply (s.apply value) = value := by
  by_cases replaced : value ∈ s.old
  · -- What is written for it stands at the same position among the old values of the inverse.
    obtain ⟨i, known, rfl⟩ := List.getElem_of_mem replaced
    have old := List.getElem?_eq_getElem known
    have new := List.getElem?_eq_getElem (renames.length ▸ known)
    rw [renames.apply_eq old new]
    exact renames.inverse.apply_eq new old
  · have unwritten : value ∉ s.new := fun written => clear ⟨written, replaced⟩
    rw [apply_of_not_mem replaced]
    exact apply_of_not_mem unwritten

theorem apply_eq_apply_iff (renames : s.IsRenaming) (clear : ¬s.Collides value)
    (clear' : ¬s.Collides other) : s.apply value = s.apply other ↔ value = other := by
  constructor
  · intro same
    rw [← renames.inverse_apply clear, same, renames.inverse_apply clear']
  · exact congrArg s.apply

end IsRenaming

end Substitution

namespace Table

variable {s : Substitution} {place : Nat} {row : Row} {t : Table}
  {keyColumn? column? : Option String}

/-! ### Rows -/

theorem rewriteRow_self (s : Substitution) (place : Nat) (row : Row) :
    rewriteRow s place place row = row.modify place s.apply := by
  rw [rewriteRow, List.modify_eq_set_getElem?]
  cases read : row[place]? with
  | none => rfl
  | some cell =>
    simp only [Option.bind_some, Option.map_eq_map, Option.map_some, Option.getD_some,
      Substitution.apply]
    cases s.replacement? cell with
    | some value => rfl
    | none =>
      obtain ⟨inside, rfl⟩ := List.getElem?_eq_some_iff.1 read
      exact (List.set_getElem_self inside).symm

private theorem modify_inverse (renames : s.IsRenaming)
    (clear : ∀ cell, row[place]? = some cell → ¬s.Collides cell) :
    (row.modify place s.apply).modify place s.inverse.apply = row := by
  apply List.ext_getElem?
  intro i
  rw [List.getElem?_modify, List.getElem?_modify]
  cases read : row[i]? with
  | none => rfl
  | some cell =>
    by_cases here : place = i
    · subst here
      simp [renames.inverse_apply (clear cell read)]
    · simp [here]

/-! ### Tables -/

/-- The place of the column that a chunk means. -/
def place? (keyColumn? column? : Option String) (t : Table) : Option Nat :=
  (column?.or (keyColumn?.or t.columns.head?)).bind t.columnIndex?

/-- The cell of a row in one place. -/
def cell? (t : Table) (i place : Nat) : Option String :=
  t.rows[i]?.bind (·[place]?)

/-- An update without a column of its own writes to the column that it reads. -/
theorem updated_eq (keyColumn? column? : Option String) (s : Substitution) (t : Table) :
    t.updated keyColumn? ⟨column?, s.old⟩ ⟨none, s.new⟩ =
      match t.place? keyColumn? column? with
      | some place => { t with rows := t.rows.map (·.modify place s.apply) }
      | none => t := by
  have twice : t.updatePlaces? keyColumn? ⟨column?, s.old⟩ ⟨none, s.new⟩ =
      (t.place? keyColumn? column?).map fun place => (place, place) := by
    rw [updatePlaces?, place?]
    cases column?.or (keyColumn?.or t.columns.head?) with
    | none => rfl
    | some column =>
      simp only [Option.bind_eq_bind, Option.bind_some, Option.getD_none]
      cases t.columnIndex? column <;> rfl
  rw [updated, twice]
  cases t.place? keyColumn? column? with
  | none => rfl
  | some place =>
    have rows : t.rows.map (rewriteRow s place place) = t.rows.map (·.modify place s.apply) :=
      List.map_congr_left fun row _ => rewriteRow_self s place row
    exact congrArg (Table.mk t.columns) rows

theorem place?_eq_of_columns {u : Table} (same : u.columns = t.columns) :
    u.place? keyColumn? column? = t.place? keyColumn? column? := by
  rw [place?, place?, same, columnIndex?_of_columns same]

private theorem exists_row_of_cell? {i : Nat} {cell : String}
    (found : t.cell? i place = some cell) :
    ∃ row ∈ t.rows, row[place]? = some cell := by
  obtain ⟨row, at_i, read⟩ := Option.bind_eq_some_iff.1 found
  exact ⟨row, List.mem_of_getElem? at_i, read⟩

theorem cell?_updated (s : Substitution) (found : t.place? keyColumn? column? = some place)
    (i : Nat) :
    (t.updated keyColumn? ⟨column?, s.old⟩ ⟨none, s.new⟩).cell? i place =
      (t.cell? i place).map s.apply := by
  simp only [updated_eq, found, cell?, List.getElem?_map]
  cases t.rows[i]? with
  | none => rfl
  | some row =>
    simp only [Option.map_some, Option.bind_some, List.getElem?_modify_eq]
    rfl

/-- Without collisions two cells of the column that is updated are equal afterwards exactly if they
were equal before. -/
theorem cell?_updated_eq_iff (renames : s.IsRenaming)
    (found : t.place? keyColumn? column? = some place)
    (clear : ∀ row ∈ t.rows, ∀ cell, row[place]? = some cell → ¬s.Collides cell) (i j : Nat) :
    let u := t.updated keyColumn? ⟨column?, s.old⟩ ⟨none, s.new⟩
    u.cell? i place = u.cell? j place ↔ t.cell? i place = t.cell? j place := by
  have clear (i : Nat) (cell : String) (here : t.cell? i place = some cell) :
      ¬s.Collides cell := by
    obtain ⟨row, member, read⟩ := exists_row_of_cell? here
    exact clear row member cell read
  simp only [cell?_updated s found]
  cases one : t.cell? i place with
  | none => cases t.cell? j place <;> simp
  | some cell =>
    cases two : t.cell? j place with
    | none => simp
    | some cell' => simp [renames.apply_eq_apply_iff (clear i cell one) (clear j cell' two)]

/-- An update without collisions is taken back by the one with old and new values exchanged. -/
theorem updated_updated_inverse (renames : s.IsRenaming)
    (clear : ∀ place, t.place? keyColumn? column? = some place →
      ∀ row ∈ t.rows, ∀ cell, row[place]? = some cell → ¬s.Collides cell) :
    (t.updated keyColumn? ⟨column?, s.old⟩ ⟨none, s.new⟩).updated keyColumn?
      ⟨column?, s.new⟩ ⟨none, s.old⟩ = t := by
  have back := updated_eq keyColumn? column? s.inverse
    (t.updated keyColumn? ⟨column?, s.old⟩ ⟨none, s.new⟩)
  rw [place?_eq_of_columns columns_updated] at back
  refine back.trans ?_
  rw [updated_eq]
  cases found : t.place? keyColumn? column? with
  | none => rfl
  | some place =>
    simp only [List.map_map]
    have restored : t.rows.map ((·.modify place s.inverse.apply) ∘ (·.modify place s.apply)) =
        t.rows := by
      refine (List.map_congr_left fun row member => ?_).trans (List.map_id t.rows)
      exact modify_inverse renames (clear place found row member)
    rw [restored]

end Table

namespace Store

open Workbook (modifyAll)

variable {store : Store} {s : Substitution} {column? : Option String} {files : List String}

/-- None of the cells that an update reads collides with its values. -/
def CollisionFree (store : Store) (column? : Option String) (s : Substitution)
    (files : List String) : Prop :=
  ∀ name ∈ files, ∀ t, store.book.get? name = some t →
    ∀ place, t.place? store.keyColumn? column? = some place →
      ∀ row ∈ t.rows, ∀ cell, row[place]? = some cell → ¬s.Collides cell

theorem collisionFree_of_cells (column? : Option String)
    (cells : ∀ name ∈ files, ∀ t ∈ store.book.get? name, ∀ row ∈ t.rows, ∀ cell ∈ row,
      ¬s.Collides cell) : store.CollisionFree column? s files := by
  intro name listed t found place _ row member cell read
  exact cells name listed t found row member cell (List.mem_of_getElem? read)

theorem update_eq_of_renames (shape : store.book.Rectangular) (renames : s.IsRenaming)
    (column? : Option String) (files : List String) :
    let done := store.update ⟨column?, s.old⟩ ⟨none, s.new⟩ files
    done.failure? = none ∧
      done.store = { store with
        book := modifyAll (Table.updated store.keyColumn? ⟨column?, s.old⟩ ⟨none, s.new⟩)
          store.book files } := by
  have done : store.update ⟨column?, s.old⟩ ⟨none, s.new⟩ files = _ :=
    update_eq_modifyAll renames.isBalanced shape files
  rw [done]
  exact ⟨rfl, rfl⟩

/-- An update without collisions is taken back by the one with old and new values exchanged. -/
theorem update_update_inverse (shape : store.book.Rectangular) (renames : s.IsRenaming)
    (distinct : files.Nodup) (clear : store.CollisionFree column? s files) :
    let done := store.update ⟨column?, s.old⟩ ⟨none, s.new⟩ files
    let back := done.store.update ⟨column?, s.new⟩ ⟨none, s.old⟩ files
    done.failure? = none ∧ back.failure? = none ∧ back.store = store := by
  intro done back
  obtain ⟨succeeds, there⟩ := update_eq_of_renames shape renames column? files
  have shape' : done.store.book.Rectangular := by
    rw [there]
    exact shape.modifyAll (fun t sound => sound.updated) files
  obtain ⟨succeeds', again⟩ := update_eq_of_renames shape' renames.inverse column? files
  refine ⟨succeeds, succeeds', again.trans ?_⟩
  rw [there]
  congr 1
  apply Workbook.ext_get?
  intro name
  rw [Workbook.get?_modifyAll_of_nodup _ _ distinct, Workbook.get?_modifyAll_of_nodup _ _ distinct]
  by_cases listed : name ∈ files
  · rw [if_pos listed, if_pos listed]
    cases found : store.book.get? name with
    | none => rfl
    | some t =>
      have clear := clear name listed t found
      exact congrArg some (Table.updated_updated_inverse renames clear)
  · rw [if_neg listed, if_neg listed]

end Store

end TableShell
