import TableShell.Proofs.Session.RangeCopy
import TableShell.Proofs.Store.Succession

/-!
# Updates value by value

An update that gives each old value a new one of its own is the sequence of the updates of single
values, as long as no value is read after it was written (`range_updates_are_single_updates`). This
is so if the values are written to another column than the one that is read, or if no new value
comes before an old one that is equal to it.

## Main definitions

- `Table.updatedEach`, `Store.updateEach`: single values updated one after the other
-/

namespace TableShell

namespace Plan

private theorem apart_nil (targets : List String) : Apart [] targets :=
  fun _ _ _ _ _ _ atSource => nomatch atSource

theorem apart_cons_iff {v w : String} {vs ws : List String} :
    Apart (v :: vs) (w :: ws) ↔ w ∉ vs ∧ Apart vs ws := by
  constructor
  · intro apart
    constructor
    · intro member
      obtain ⟨j, here⟩ := List.mem_iff_getElem?.1 member
      exact apart (i := 0) (j := j + 1) (Nat.succ_pos j) rfl here rfl
    · intro i j target source lt atTarget atSource
      exact apart (Nat.succ_lt_succ lt) atTarget atSource
  · rintro ⟨fresh, apart⟩ i j target source lt atTarget atSource
    cases j with
    | zero => exact absurd lt (Nat.not_lt_zero i)
    | succ j =>
      cases i with
      | zero =>
        rintro rfl
        obtain rfl : w = target := Option.some.inj atTarget
        exact fresh (List.mem_of_getElem? atSource)
      | succ i => exact apart (Nat.lt_of_succ_lt_succ lt) atTarget atSource

end Plan

namespace Table

variable {keyColumn? oldColumn? newColumn? : Option String} {vs ws : List String} {t : Table}

/-- The table after updates of single values, one for each pair of an old and a new value. -/
def updatedEach (keyColumn? oldColumn? newColumn? : Option String)
    (pairs : List (String × String)) (t : Table) : Table :=
  pairs.foldl (fun t pair => t.updated keyColumn? ⟨oldColumn?, [pair.1]⟩ ⟨newColumn?, [pair.2]⟩) t

/-- An update without values changes nothing. -/
theorem updated_nil : t.updated keyColumn? ⟨oldColumn?, []⟩ ⟨newColumn?, []⟩ = t := by
  have kept (source target : Nat) (row : Row) : rewriteRow ⟨[], []⟩ source target row = row := by
    apply rewriteRow_of_none
    rw [Option.bind_eq_none_iff]
    intro cell _
    exact Substitution.replacement?_of_not_mem List.not_mem_nil
  rw [updated]
  split
  next source target placed =>
    have rows : t.rows.map (rewriteRow ⟨[], []⟩ source target) = t.rows :=
      (List.map_congr_left fun row _ => kept source target row).trans (List.map_id t.rows)
    exact congrArg (Table.mk t.columns) rows
  next => rfl

/-- An update of several values can begin with that of the first one, unless this writes a value
that is looked for later. -/
theorem updated_cons {v w : String} (even : vs.length = ws.length) (fresh : v ∉ vs)
    (calm : (∀ source target, t.updatePlaces? keyColumn? ⟨oldColumn?, v :: vs⟩
      ⟨newColumn?, w :: ws⟩ = some (source, target) → source ≠ target) ∨ w ∉ vs) :
    t.updated keyColumn? ⟨oldColumn?, v :: vs⟩ ⟨newColumn?, w :: ws⟩ =
      (t.updated keyColumn? ⟨oldColumn?, [v]⟩ ⟨newColumn?, [w]⟩).updated keyColumn?
        ⟨oldColumn?, vs⟩ ⟨newColumn?, ws⟩ := by
  refine (updated_updated_eq ⟨[v], [w]⟩ ⟨vs, ws⟩ ⟨v :: vs, w :: ws⟩ ?_).symm
  intro source target placed row
  have calm' := calm.imp_left fun apart => apart source target placed
  exact (rewriteRow_cons even fresh calm' row).symm

/-- An update of distinct values is the sequence of the single ones, as long as no value is read
after it was written. -/
theorem updated_eq_updatedEach (even : vs.length = ws.length) (distinct : vs.Nodup)
    (calm : (∀ source target, t.updatePlaces? keyColumn? ⟨oldColumn?, vs⟩ ⟨newColumn?, ws⟩ =
      some (source, target) → source ≠ target) ∨ Plan.Apart vs ws) :
    t.updated keyColumn? ⟨oldColumn?, vs⟩ ⟨newColumn?, ws⟩ =
      t.updatedEach keyColumn? oldColumn? newColumn? (vs.zip ws) := by
  induction vs generalizing ws t with
  | nil =>
    obtain rfl := List.length_eq_zero_iff.1 even.symm
    exact updated_nil
  | cons v vs ih =>
    obtain ⟨w, ws, rfl⟩ := List.exists_cons_of_length_eq_add_one even.symm
    obtain ⟨fresh, distinct⟩ := List.nodup_cons.1 distinct
    have even : vs.length = ws.length := Nat.succ.inj even
    rw [updated_cons even fresh (calm.imp_right fun apart => (Plan.apart_cons_iff.1 apart).1)]
    refine ih even distinct (calm.imp ?_ fun apart => (Plan.apart_cons_iff.1 apart).2)
    -- The places are the same before and after the first update.
    intro apart source target placed
    rw [updatePlaces?_of_columns columns_updated] at placed
    exact apart source target placed

end Table

namespace Store

open Workbook (modifyAll)

variable {store : Store} {oldColumn? newColumn? : Option String} {files : List String}

/-- The store after updates of single values, one for each pair of an old and a new value. -/
def updateEach (store : Store) (oldColumn? newColumn? : Option String)
    (pairs : List (String × String)) (files : List String) : Store :=
  pairs.foldl (fun store pair =>
    (store.update ⟨oldColumn?, [pair.1]⟩ ⟨newColumn?, [pair.2]⟩ files).store) store

/-- Several updates change each table of distinct files as if it were the only one. -/
theorem updateEach_eq_modifyAll (shape : store.book.Rectangular) (distinct : files.Nodup)
    (pairs : List (String × String)) :
    store.updateEach oldColumn? newColumn? pairs files =
      { store with
        book := modifyAll (Table.updatedEach store.keyColumn? oldColumn? newColumn? pairs)
          store.book files } := by
  induction pairs generalizing store with
  | nil =>
    have kept : modifyAll (Table.updatedEach store.keyColumn? oldColumn? newColumn? []) store.book
        files = store.book := modifyAll_id store.book files
    rw [kept]
    rfl
  | cons pair pairs ih =>
    let old : Chunk := ⟨oldColumn?, [pair.1]⟩
    let new : Chunk := ⟨newColumn?, [pair.2]⟩
    have shape' := rectangular_perform shape (.update old new) files
    have first : (store.update old new files).store =
        { store with
          book := modifyAll (Table.updated store.keyColumn? old new) store.book files } :=
      congrArg Outcome.store (update_eq_modifyAll rfl shape files)
    refine (ih shape').trans ?_
    simp only [perform, first]
    rw [← Workbook.modifyAll_comp_of_nodup _ _ _ distinct]
    rfl

/-- An update of distinct files that gives each of several distinct values a new one is the sequence
of the updates of the single values, in their order, if the new chunk names another column than the
old chunk means, or else if no new value is equal to an old value that comes after it. -/
theorem range_updates_are_single_updates (reached : store.Reachable)
    (oldColumn? newColumn? : Option String) {vs ws files : List String} (distinct : files.Nodup)
    (fresh : vs.Nodup) (even : vs.length = ws.length)
    (calm : store.WritesElsewhere ⟨oldColumn?, vs⟩ ⟨newColumn?, ws⟩ files ∨ Plan.Apart vs ws) :
    let done := store.update ⟨oldColumn?, vs⟩ ⟨newColumn?, ws⟩ files
    done.failure? = none ∧
      done.store = store.updateEach oldColumn? newColumn? (vs.zip ws) files := by
  have shape := reached.rectangular
  have balanced : Substitution.isBalanced ⟨vs, ws⟩ := Substitution.isBalanced_iff.2 (.inr even.symm)
  simp only [updateEach_eq_modifyAll shape distinct]
  rw [update_eq_modifyAll balanced shape]
  refine ⟨rfl, ?_⟩
  have book : modifyAll (Table.updated store.keyColumn? ⟨oldColumn?, vs⟩ ⟨newColumn?, ws⟩)
      store.book files =
      modifyAll (Table.updatedEach store.keyColumn? oldColumn? newColumn? (vs.zip ws))
        store.book files := by
    refine Workbook.modifyAll_congr_of_nodup distinct fun file listed t known => ?_
    refine Table.updated_eq_updatedEach even fresh (calm.imp_left fun elsewhere => ?_)
    exact fun source target => elsewhere.ne listed known
  simp only [book]

theorem range_updates_are_single_updates_ledger :
    let start : Store := { book := ledger }
    let renumbered := start.update ⟨none, ["2", "1"]⟩ ⟨none, ["3", "2"]⟩ ["a", "z"]
    let labelled := start.update ⟨none, ["1", "2"]⟩ ⟨some "name", ["2", "1"]⟩ ["a", "z"]
    start.Reachable ∧ ["a", "z"].Nodup ∧ Plan.Apart ["2", "1"] ["3", "2"] ∧
      renumbered.failure? = none ∧
      renumbered.store = start.updateEach none none [("2", "3"), ("1", "2")] ["a", "z"] ∧
      renumbered.store.book.get? "a" =
        some { columns := ["id", "name"], rows := [["2", "x"], ["3", "y"]] } ∧
      start.WritesElsewhere ⟨none, ["1", "2"]⟩ ⟨some "name", ["2", "1"]⟩ ["a", "z"] ∧
      labelled.failure? = none ∧
      labelled.store = start.updateEach none (some "name") [("1", "2"), ("2", "1")] ["a", "z"] ∧
      labelled.store.book.get? "a" =
        some { columns := ["id", "name"], rows := [["1", "2"], ["2", "1"]] } := by
  intro start renumbered labelled
  have distinct : ["a", "z"].Nodup := by decide
  have apart : Plan.Apart ["2", "1"] ["3", "2"] :=
    Plan.apart_cons_iff.2 ⟨by decide, Plan.apart_cons_iff.2 ⟨by decide, Plan.apart_nil _⟩⟩
  have elsewhere :
      start.WritesElsewhere ⟨none, ["1", "2"]⟩ ⟨some "name", ["2", "1"]⟩ ["a", "z"] := by
    decide
  have inPlace : renumbered.failure? = none ∧
      renumbered.store = start.updateEach none none [("2", "3"), ("1", "2")] ["a", "z"] :=
    range_updates_are_single_updates reachable_ledger none none distinct (by decide) rfl
      (.inr apart)
  have aside : labelled.failure? = none ∧
      labelled.store = start.updateEach none (some "name") [("1", "2"), ("2", "1")] ["a", "z"] :=
    range_updates_are_single_updates reachable_ledger none (some "name") distinct (by decide) rfl
      (.inl elsewhere)
  refine ⟨reachable_ledger, distinct, apart, inPlace.1, inPlace.2, ?_, elsewhere, aside.1, aside.2,
    ?_⟩
  · decide +kernel
  · decide +kernel

end Store

end TableShell
