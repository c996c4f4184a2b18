import TableShell.Proofs.Session.Reachable

/-!
# Failures leave no trace

An update fails for the number of its values only, and a copy only if none of its files has a row to
copy. A request that fails, or a table that is refused, leaves the store as it was
(`failures_leave_no_trace`).
-/

namespace TableShell

namespace Table

/-- There is no column, or some row is too long or too short. -/
theorem not_rectangular_iff {t : Table} :
    ¬t.Rectangular ↔ t.columns = [] ∨ ∃ row ∈ t.rows, row.length ≠ t.columns.length := by
  simp only [Rectangular, not_and_or, not_forall, exists_prop, ne_eq, not_not]

end Table

namespace Store

variable {store : Store} {old new : Chunk} {keyColumn source target : String} {files : List String}

/-- One of the files is known and has the key column and a row with the key. -/
def HasRowToCopy (store : Store) (files : List String) (keyColumn source : String) : Prop :=
  ∃ file ∈ files, ∃ t, store.book.get? file = some t ∧
    ∃ key, t.columnIndex? keyColumn = some key ∧ ∃ row ∈ t.rows, row[key]? = some source

private theorem offersIn_iff : store.offersIn files keyColumn source ↔
    store.HasRowToCopy files keyColumn source := by
  simp only [offersIn, HasRowToCopy, List.any_eq_true, Option.any_eq_true, Table.offers_iff]

/-! ### Updates -/

private theorem isSome_failure?_update (shape : store.book.Rectangular) :
    (store.update old new files).failure?.isSome ↔
      new.values.length ≠ 1 ∧ new.values.length ≠ old.values.length := by
  rw [← not_or, ← Substitution.isBalanced_iff (s := ⟨old.values, new.values⟩)]
  by_cases balanced : Substitution.isBalanced ⟨old.values, new.values⟩
  · simp [update_eq_modifyAll balanced shape, balanced]
  · simp [update_of_not_balanced balanced, balanced]

/-- An update that fails has not looked at any file. -/
theorem update_of_failure (shape : store.book.Rectangular) {fault : Fault}
    (failed : (store.update old new files).failure? = some fault) :
    fault = .valueCount old.values.length new.values.length ∧
      (store.update old new files).store = store := by
  by_cases balanced : Substitution.isBalanced ⟨old.values, new.values⟩
  · rw [update_eq_modifyAll balanced shape] at failed
    cases failed
  · rw [update_of_not_balanced balanced] at failed ⊢
    exact ⟨(Option.some.inj failed).symm, rfl⟩

/-! ### Copies -/

theorem isSome_failure?_copy (shape : store.book.Rectangular) :
    (store.copy keyColumn source target files).failure?.isSome ↔
      files ≠ [] ∧ ¬store.HasRowToCopy files keyColumn source := by
  rw [← offersIn_iff, copy_eq_modifyAll shape]
  split
  next fails => exact iff_of_true rfl fails
  next succeeds => exact iff_of_false Bool.false_ne_true succeeds

/-- A copy that fails has met no table with a row to copy. -/
theorem copy_of_failure (shape : store.book.Rectangular) {fault : Fault}
    (failed : (store.copy keyColumn source target files).failure? = some fault) :
    fault = .noSourceRows source ∧ (store.copy keyColumn source target files).store = store := by
  have nothing := ((isSome_failure?_copy shape).1 (Option.isSome_of_eq_some failed)).2
  have kept : Workbook.modifyAll (Table.copied keyColumn source target) store.book files =
      store.book := by
    apply Workbook.modifyAll_of_fixed
    intro file member t found
    apply Table.copied_of_not_offers
    intro offers
    exact nothing ⟨file, member, t, found, Table.offers_iff.1 offers⟩
  rw [copy_eq_modifyAll shape] at failed ⊢
  rw [kept]
  refine ⟨?_, rfl⟩
  split at failed
  next => exact (Option.some.inj failed).symm
  next => cases failed

/-! ### Tables put into the store -/

theorem insertTable_fails_iff {name : String} {t : Table} :
    (∃ fault, store.insertTable name t = .error fault) ↔
      t.columns = [] ∨ ∃ row ∈ t.rows, row.length ≠ t.columns.length := by
  rw [← Table.not_rectangular_iff, ← Table.shapeFault?_eq_none_iff, insertTable]
  cases t.shapeFault? with
  | none => simp
  | some fault => simp

/-- In a store that can be reached an update fails if and only if there is neither one new value nor
one for each old value, a copy fails if and only if there are files and none of them has a row to
copy, and a table is refused if and only if it is not rectangular. Whatever fails says just this and
leaves the store as it was. -/
theorem failures_leave_no_trace (reached : store.Reachable) :
    (∀ old new files,
      let done := store.update old new files
      (done.failure?.isSome ↔
          new.values.length ≠ 1 ∧ new.values.length ≠ old.values.length) ∧
        ∀ fault, done.failure? = some fault →
          fault = .valueCount old.values.length new.values.length ∧ done.store = store) ∧
      (∀ keyColumn source target files,
        let done := store.copy keyColumn source target files
        (done.failure?.isSome ↔ files ≠ [] ∧ ¬store.HasRowToCopy files keyColumn source) ∧
          ∀ fault, done.failure? = some fault →
            fault = .noSourceRows source ∧ done.store = store) ∧
      ∀ name t,
        ((∃ fault, store.insertTable name t = .error fault) ↔
            t.columns = [] ∨ ∃ row ∈ t.rows, row.length ≠ t.columns.length) ∧
          ∀ fault, store.insertTable name t = .error fault →
            store.after (.insertTable name t) = store := by
  have shape := reached.rectangular
  refine ⟨?_, ?_, ?_⟩
  · intro old new files
    exact ⟨isSome_failure?_update shape, fun fault => update_of_failure shape⟩
  · intro keyColumn source target files
    exact ⟨isSome_failure?_copy shape, fun fault => copy_of_failure shape⟩
  · intro name t
    refine ⟨insertTable_fails_iff, ?_⟩
    intro fault refused
    rw [after, refused]

theorem failures_leave_no_trace_ledger :
    let start : Store := { book := ledger }
    let lacking := start.copy "id" "9" "1" ["z", "b", "a", "b"]
    let uneven := start.update ⟨none, ["1", "2"]⟩ ⟨none, ["7", "8", "9"]⟩ ["a", "z", "a"]
    let ragged : Table := { columns := ["id"], rows := [["1"], ["1", "2"]] }
    start.Reachable ∧ lacking.failure? = some (.noSourceRows "9") ∧ lacking.store = start ∧
      ¬start.HasRowToCopy ["z", "b", "a", "b"] "id" "9" ∧
      ¬(start.copy "id" "2" "3" ["z", "b"]).failure?.isSome ∧
      uneven.failure? = some (.valueCount 2 3) ∧ uneven.store = start ∧
      start.after (.insertTable "a" ragged) = start := by
  intro start lacking uneven ragged
  obtain ⟨updates, copies, tables⟩ := failures_leave_no_trace reachable_ledger
  have no_rows : lacking.failure? = some (.noSourceRows "9") := by decide +kernel
  have too_many : uneven.failure? = some (.valueCount 2 3) := by decide +kernel
  obtain ⟨lacks, kept⟩ := copies "id" "9" "1" ["z", "b", "a", "b"]
  obtain ⟨-, untouched⟩ := updates ⟨none, ["1", "2"]⟩ ⟨none, ["7", "8", "9"]⟩ ["a", "z", "a"]
  obtain ⟨fault, refused⟩ :=
    (tables "a" ragged).1.2 (.inr ⟨["1", "2"], by simp [ragged], by decide⟩)
  refine ⟨reachable_ledger, no_rows, (kept _ no_rows).2,
    (lacks.1 (Option.isSome_of_eq_some no_rows)).2, ?_, too_many, (untouched _ too_many).2,
    (tables "a" ragged).2 fault refused⟩
  intro failed
  have row : start.HasRowToCopy ["z", "b"] "id" "2" :=
    ⟨"b", by simp, _, rfl, 0, rfl, ["2"], by simp, rfl⟩
  exact ((copies "id" "2" "3" ["z", "b"]).1.1 failed).2 row

end Store

end TableShell
