import TableShell.Proofs.Session.Failures

/-!
# Lists of files

A request on a list of files can be split into requests on parts of the list, and the order of the
files is of no account (`requests_act_file_by_file`). Files may be unknown or occur several times: a
request that meets a file again acts on what it has made of it.
-/

namespace TableShell.Store

variable {store : Store} {keyColumn source target : String} {xs ys files : List String}

/-! ### One list after the other -/

private theorem store_perform_append (shape : store.book.Rectangular) (request : Request)
    (xs ys : List String) :
    (store.perform request (xs ++ ys)).store =
      ((store.perform request xs).store.perform request ys).store := by
  rw [store_perform (rectangular_perform shape request xs), store_perform shape,
    store_perform shape, Workbook.modifyAll_append]

private theorem notes_perform_append (shape : store.book.Rectangular) (request : Request)
    (xs ys : List String) :
    (store.perform request (xs ++ ys)).notes =
      (store.perform request xs).notes ++
        ((store.perform request xs).store.perform request ys).notes := by
  have shape' := rectangular_perform shape request xs
  cases request with
  | search target => exact List.map_append
  | update old new =>
    simp only [perform] at shape' ⊢
    by_cases balanced : Substitution.isBalanced ⟨old.values, new.values⟩
    · rw [update_eq_modifyAll balanced shape', update_eq_modifyAll balanced shape,
        update_eq_modifyAll balanced shape, notesOver_append]
    · rw [update_of_not_balanced balanced, update_of_not_balanced balanced,
        update_of_not_balanced balanced]
      rfl
  | copy keyColumn source target =>
    simp only [perform] at shape' ⊢
    rw [copy_eq_modifyAll shape', copy_eq_modifyAll shape, copy_eq_modifyAll shape,
      notesOver_append]

private theorem hasRowToCopy_append :
    store.HasRowToCopy (xs ++ ys) keyColumn source ↔
      store.HasRowToCopy xs keyColumn source ∨ store.HasRowToCopy ys keyColumn source := by
  simp only [HasRowToCopy, List.mem_append, or_and_right, exists_or]

/-- A copy that fails, or has no files to fail on, is one without a row to copy. -/
theorem fails_unless_nil_iff (shape : store.book.Rectangular) :
    (files ≠ [] → (store.copy keyColumn source target files).failure?.isSome) ↔
      ¬store.HasRowToCopy files keyColumn source := by
  rw [isSome_failure?_copy shape]
  constructor
  · rintro fails ⟨file, listed, there⟩
    exact (fails (List.ne_nil_of_mem listed)).2 ⟨file, listed, there⟩
  · exact fun nothing some_file => ⟨some_file, nothing⟩

/-- A copy fails if there are files and it fails on each part of their list that has any. -/
theorem isSome_failure?_copy_append (shape : store.book.Rectangular) :
    (store.copy keyColumn source target (xs ++ ys)).failure?.isSome ↔
      xs ++ ys ≠ [] ∧ (xs ≠ [] → (store.copy keyColumn source target xs).failure?.isSome) ∧
        (ys ≠ [] → (store.copy keyColumn source target ys).failure?.isSome) := by
  rw [isSome_failure?_copy shape, fails_unless_nil_iff shape, fails_unless_nil_iff shape,
    hasRowToCopy_append, not_or]

/-! ### Other orders -/

theorem offersIn_perm (perm : xs.Perm ys) (store : Store) (keyColumn source : String) :
    store.offersIn xs keyColumn source = store.offersIn ys keyColumn source :=
  perm.any_eq

theorem perform_perm (shape : store.book.Rectangular) (perm : xs.Perm ys) (request : Request) :
    (store.perform request xs).store = (store.perform request ys).store ∧
      (store.perform request xs).failure? = (store.perform request ys).failure? := by
  constructor
  · rw [store_perform shape, store_perform shape, Workbook.modifyAll_perm perm]
  · cases request with
    | search target => rfl
    | update old new => rw [perform, perform, failure?_update shape, failure?_update shape]
    | copy keyColumn source target =>
      have none_iff : xs = [] ↔ ys = [] := by
        constructor
        · rintro rfl
          exact perm.nil_eq.symm
        · rintro rfl
          exact perm.eq_nil
      simp only [perform, failure?_copy shape, offersIn_perm perm, ne_eq, none_iff]

/-- Requests act on each file by itself. An update of two lists of files in a row, and likewise a
copy, leaves the same tables and says the same as one of the first list followed by one of the
second. The update fails if and only if its parts do. The copy fails if and only if there are files
and each part that has files fails when it is made alone. So a list of files may be put into any
order, although files may be repeated and the repetitions act on one another. -/
theorem requests_act_file_by_file (reached : store.Reachable) (xs ys : List String) :
    (∀ old new,
      let first := store.update old new xs
      let second := first.store.update old new ys
      let whole := store.update old new (xs ++ ys)
      whole.store = second.store ∧ whole.notes = first.notes ++ second.notes ∧
        whole.failure? = first.failure? ∧ whole.failure? = second.failure?) ∧
      (∀ keyColumn source target,
        let first := store.copy keyColumn source target xs
        let second := first.store.copy keyColumn source target ys
        let alone := store.copy keyColumn source target ys
        let whole := store.copy keyColumn source target (xs ++ ys)
        whole.store = second.store ∧ whole.notes = first.notes ++ second.notes ∧
          (whole.failure?.isSome ↔ xs ++ ys ≠ [] ∧ (xs ≠ [] → first.failure?.isSome) ∧
            (ys ≠ [] → alone.failure?.isSome))) ∧
      (xs.Perm ys →
        (∀ old new,
          let left := store.update old new xs
          let right := store.update old new ys
          left.store = right.store ∧ left.failure? = right.failure?) ∧
        ∀ keyColumn source target,
          let left := store.copy keyColumn source target xs
          let right := store.copy keyColumn source target ys
          left.store = right.store ∧ left.failure? = right.failure?) := by
  have shape := reached.rectangular
  refine ⟨?_, ?_, ?_⟩
  · intro old new first second whole
    have shape' : first.store.book.Rectangular := rectangular_perform shape (.update old new) xs
    refine ⟨store_perform_append shape (.update old new) xs ys,
      notes_perform_append shape (.update old new) xs ys, ?_, ?_⟩
    · rw [failure?_update shape, failure?_update shape]
    · rw [failure?_update shape, failure?_update shape']
  · intro keyColumn source target first second alone whole
    exact ⟨store_perform_append shape (.copy keyColumn source target) xs ys,
      notes_perform_append shape (.copy keyColumn source target) xs ys,
      isSome_failure?_copy_append shape⟩
  · intro perm
    refine ⟨?_, ?_⟩
    · intro old new left right
      exact perform_perm shape perm (.update old new)
    · intro keyColumn source target left right
      exact perform_perm shape perm (.copy keyColumn source target)

theorem requests_act_file_by_file_ledger :
    let old : Chunk := ⟨none, ["1", "2", "3"]⟩
    let new : Chunk := ⟨none, ["2", "3", "4"]⟩
    let start : Store := { book := ledger }
    let first := start.update old new ["z", "b"]
    let whole := start.update old new ["z", "b", "b", "a"]
    start.Reachable ∧ whole.store = (first.store.update old new ["b", "a"]).store ∧
      whole.store.book.get? "b" = some { columns := ["id"], rows := [["4"], ["4"]] } ∧
      (start.copy "name" "x" "y" ["z", "b"]).failure?.isSome ∧
      ¬(start.copy "name" "x" "y" ["z", "b", "b", "a"]).failure?.isSome ∧
      ["z", "b", "b", "a"].Perm ["b", "a", "b", "z"] ∧
      whole.store = (start.update old new ["b", "a", "b", "z"]).store := by
  intro old new start first whole
  have perm : ["z", "b", "b", "a"].Perm ["b", "a", "b", "z"] := by decide
  obtain ⟨updates, copies, -⟩ :=
    requests_act_file_by_file reachable_ledger ["z", "b"] ["b", "a"]
  obtain ⟨-, -, fails⟩ := copies "name" "x" "y"
  have succeeds : (start.copy "name" "x" "y" ["b", "a"]).failure? = none := by decide +kernel
  have permuted := (requests_act_file_by_file reachable_ledger _ _).2.2 perm
  refine ⟨reachable_ledger, (updates old new).1, ?_, ?_, ?_, perm, (permuted.1 old new).1⟩
  · decide +kernel
  · decide +kernel
  · intro failed
    obtain ⟨-, -, second⟩ := fails.1 failed
    have fails_alone := second (List.cons_ne_nil _ _)
    rw [succeeds] at fails_alone
    cases fails_alone

end TableShell.Store
