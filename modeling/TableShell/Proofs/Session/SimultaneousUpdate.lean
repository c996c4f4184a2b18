import Mathlib.Data.List.Forall2
import TableShell.Proofs.Session.Reachable

/-!
# Updates are simultaneous

An update of distinct files succeeds and rewrites every row of the tables with both columns at
once: what is written depends on the cells before the update, so a value that it has written is not
found by it again, even where the old and the new values overlap.
-/

namespace TableShell

namespace Table

variable {keyColumn? : Option String} {old new : Chunk} {t : Table}

/-- Each row of a table in which both columns exist is rewritten by itself. -/
theorem forall₂_rewrites_updated (balanced : Substitution.isBalanced ⟨old.values, new.values⟩)
    (shape : t.Rectangular) {source target : Nat}
    (found : t.updatePlaces? keyColumn? old new = some (source, target)) :
    List.Forall₂ (Rewrites ⟨old.values, new.values⟩ source target) t.rows
      (t.updated keyColumn? old new).rows := by
  obtain ⟨hs, ht⟩ := lt_of_updatePlaces? found
  simp only [updated, found]
  rw [List.forall₂_map_right_iff, List.forall₂_same]
  intro row member
  have width := shape.2 row member
  exact rewrites_rewriteRow balanced (width ▸ hs) (width ▸ ht)

theorem updated_of_updatePlaces?_eq_none (lacking : t.updatePlaces? keyColumn? old new = none) :
    t.updated keyColumn? old new = t := by
  rw [updated, lacking]

end Table

namespace Store

variable {store : Store}

/-- An update of distinct files with one new value, or with as many new values as old ones,
succeeds. In each of the files that is known and has both columns it rewrites every row by itself
and in its place, and it changes nothing else. -/
theorem update_rewrites_at_once (reached : store.Reachable) (old new : Chunk)
    (count : new.values.length = 1 ∨ new.values.length = old.values.length) {files : List String}
    (distinct : files.Nodup) :
    let done := store.update old new files
    done.failure? = none ∧ done.store.book.names = store.book.names ∧
      (∀ name, name ∉ files → done.store.book.get? name = store.book.get? name) ∧
      ∀ name ∈ files, ∀ t, store.book.get? name = some t →
        match t.updatePlaces? store.keyColumn? old new with
        | none => done.store.book.get? name = some t
        | some (source, target) =>
          ∃ rows, done.store.book.get? name = some { t with rows } ∧
            List.Forall₂ (Table.Rewrites ⟨old.values, new.values⟩ source target) t.rows rows := by
  have shape := reached.rectangular
  have balanced : Substitution.isBalanced ⟨old.values, new.values⟩ := by
    rcases count with one | same
    · simp [Substitution.isBalanced, one]
    · by_cases one : new.values.length = 1
      · simp [Substitution.isBalanced, one]
      · simp [Substitution.isBalanced, Substitution.isPairwise, same, same ▸ one]
  have get?_after (name : String) := Workbook.get?_modifyAll_of_nodup
    (Table.updated store.keyColumn? old new) store.book distinct name
  simp only [update_eq_modifyAll balanced shape]
  refine ⟨trivial, Workbook.names_modifyAll _ _ _, ?_, ?_⟩
  · intro name unlisted
    rw [get?_after, if_neg unlisted]
  · intro name listed t found
    have after : (Workbook.modifyAll (Table.updated store.keyColumn? old new) store.book
        files).get? name = some (t.updated store.keyColumn? old new) := by
      rw [get?_after, if_pos listed, found, Option.map_some]
    rw [after]
    cases places : t.updatePlaces? store.keyColumn? old new with
    | none => rw [Table.updated_of_updatePlaces?_eq_none places]
    | some place =>
      refine ⟨_, ?_, Table.forall₂_rewrites_updated balanced (shape found) places⟩
      rw [Option.some.injEq, Table.mk.injEq]
      exact ⟨Table.columns_updated, rfl⟩

theorem update_rewrites_at_once_ledger :
    let old : Chunk := ⟨none, ["1", "2"]⟩
    let new : Chunk := ⟨none, ["2", "3"]⟩
    let start : Store := { book := ledger }
    start.Reachable ∧ new.values.length = old.values.length ∧ ["a", "z"].Nodup ∧
      (start.update old new ["a", "z"]).failure? = none ∧
      (start.update old new ["a", "z"]).store.book.get? "b" = start.book.get? "b" ∧
      ∃ rows, (start.update old new ["a", "z"]).store.book.get? "a" =
          some { columns := ["id", "name"], rows } ∧
        List.Forall₂ (Table.Rewrites ⟨["1", "2"], ["2", "3"]⟩ 0 0) [["1", "x"], ["2", "y"]]
          rows := by
  intro old new start
  have distinct : ["a", "z"].Nodup := by decide
  obtain ⟨succeeds, -, elsewhere, rewritten⟩ :=
    update_rewrites_at_once reachable_ledger old new (.inr rfl) distinct
  refine ⟨reachable_ledger, rfl, distinct, succeeds, ?_, ?_⟩
  · exact elsewhere "b" (by decide)
  · exact rewritten "a" (by decide) _ rfl

end Store

end TableShell
