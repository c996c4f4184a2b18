import TableShell.Proofs.Command.Renumbering
import TableShell.Proofs.Session.Reachable

/-!
# Undoing renumberings

Without collisions a renumbering is taken back by the one with the two ranges exchanged, even if the
ranges overlap, and it never makes different keys equal (`process_process_reverse`). This rests on
what holds of any update that puts distinct values in the place of as many distinct values.
-/

namespace TableShell.Store

open Workbook (modifyAll)

variable {store : Store}

/-- A renumbering comes down to one update. -/
theorem process_renumbering (r : Renumbering) (store : Store) :
    let done := store.update ⟨some r.column, r.substitution.old⟩ ⟨none, r.substitution.new⟩
      (store.select r.scope)
    let turn := Session.process engine store r.words
    turn.state = done.store ∧
      (done.failure? = none → turn.transcript.reports = r.step.reports) := by
  intro done turn
  have followed : turn =
      { state := (r.step.run engine store).1
        transcript := (r.step.run engine store).2 ++ []
        continues := true } := by
    simp only [turn, Session.process, r.ofWords_words, Session.execute, r.plan_command]
    rfl
  rw [followed, List.append_nil]
  refine ⟨rfl, fun succeeds => ?_⟩
  have answer : (engine.perform store r.step.request (engine.select store r.step.scope)).failure? =
      done.failure?.map Fault.message := rfl
  rw [Step.reports_run, answer, succeeds]
  exact List.append_nil _

/-- Without collisions a renumbering is taken back by the reverse one, and in the meantime two rows
have equal keys exactly if they had equal keys before. -/
theorem process_process_reverse (shape : store.book.Rectangular) (r : Renumbering)
    (clear : store.CollisionFree (some r.column) r.substitution (store.select r.scope)) :
    let done := Session.process engine store r.words
    let back := Session.process engine done.state r.reverse.words
    back.state = store ∧ done.transcript.reports = r.step.reports ∧
      back.transcript.reports = r.reverse.step.reports ∧
      ∀ name ∈ store.select r.scope, ∀ t, store.book.get? name = some t →
        ∀ place, t.columnIndex? r.column = some place →
          ∃ u, done.state.book.get? name = some u ∧ ∀ i j,
            u.cell? i place = u.cell? j place ↔ t.cell? i place = t.cell? j place := by
  intro done back
  have distinct : (store.select r.scope).Nodup := Workbook.nodup_select store.book r.scope
  obtain ⟨succeeds, succeeds', restored⟩ :=
    update_update_inverse shape r.isRenaming distinct clear
  obtain ⟨-, there⟩ :=
    update_eq_of_renames shape r.isRenaming (some r.column) (store.select r.scope)
  obtain ⟨now, reported⟩ := process_renumbering r store
  obtain ⟨later, reported'⟩ := process_renumbering r.reverse done.state
  have book : done.state.book = modifyAll (Table.updated store.keyColumn?
      ⟨some r.column, r.substitution.old⟩ ⟨none, r.substitution.new⟩) store.book
      (store.select r.scope) :=
    congrArg Store.book (now.trans there)
  -- The second command finds the same files, since no update adds or removes one.
  have same_scope : done.state.select r.reverse.scope = store.select r.scope := by
    rw [select, book]
    exact Workbook.select_congr (Workbook.names_modifyAll _ _ _) _
  rw [same_scope] at later reported'
  rw [← now] at succeeds' restored
  refine ⟨later.trans restored, reported succeeds, reported' succeeds', ?_⟩
  intro name listed t found place named_place
  have own_place : t.place? store.keyColumn? (some r.column) = some place := named_place
  have equal_keys := Table.cell?_updated_eq_iff r.isRenaming own_place
    (clear name listed t found place own_place)
  refine ⟨_, ?_, equal_keys⟩
  rw [book, Workbook.get?_modifyAll_of_nodup _ _ distinct, if_pos listed, found, Option.map_some]

/-- A pairwise update of distinct files can be undone: without collisions the update with old and
new values exchanged restores every table. In particular a command that renumbers a column is taken
back by the command with the two ranges exchanged, even if the ranges overlap, and in the meantime
two rows have equal keys exactly if they had equal keys before. -/
theorem updates_are_undone (reached : store.Reachable) :
    (∀ (column? : Option String) (vs ws files : List String), files.Nodup → vs.Nodup → ws.Nodup →
      vs.length = ws.length → store.CollisionFree column? ⟨vs, ws⟩ files →
      let done := store.update ⟨column?, vs⟩ ⟨none, ws⟩ files
      let back := done.store.update ⟨column?, ws⟩ ⟨none, vs⟩ files
      done.failure? = none ∧ back.failure? = none ∧ back.store = store) ∧
    ∀ r : Renumbering,
      store.CollisionFree (some r.column) r.substitution (store.select r.scope) →
      let done := Session.process engine store r.words
      let back := Session.process engine done.state r.reverse.words
      back.state = store ∧ done.transcript.reports = r.step.reports ∧
        back.transcript.reports = r.reverse.step.reports ∧
        ∀ name ∈ store.select r.scope, ∀ t, store.book.get? name = some t →
          ∀ place, t.columnIndex? r.column = some place →
            ∃ u, done.state.book.get? name = some u ∧ ∀ i j,
              u.cell? i place = u.cell? j place ↔ t.cell? i place = t.cell? j place := by
  have shape := reached.rectangular
  constructor
  · intro column? vs ws files distinct old new length clear
    exact update_update_inverse shape ⟨old, new, length⟩ distinct clear
  · intro r clear
    exact process_process_reverse shape r clear

/-- The numbers one and two become two and three in the first file of `ledger`. -/
def ledgerRenumbering : Renumbering where
  column := "id"
  column_ne_empty := by decide
  equals_not_mem_column := by decide
  old := "1-2"
  new := "2-3"
  oldEnds := (1, 2)
  newEnds := (2, 3)
  range_old := by decide +kernel
  range_new := by decide +kernel
  even := by decide +kernel
  files := ["a"]
  plain := by decide

theorem updates_are_undone_ledger :
    let start : Store := { book := ledger }
    let renamed : Store := (start.update ⟨none, ["1", "2"]⟩ ⟨none, ["2", "3"]⟩ ["a", "z"]).store
    let r := ledgerRenumbering
    let done := Session.process engine start r.words
    let back := Session.process engine done.state r.reverse.words
    start.Reachable ∧
      start.CollisionFree none ⟨["1", "2"], ["2", "3"]⟩ ["a", "z"] ∧
      renamed.book.get? "a" =
        some { columns := ["id", "name"], rows := [["2", "x"], ["3", "y"]] } ∧
      (renamed.update ⟨none, ["2", "3"]⟩ ⟨none, ["1", "2"]⟩ ["a", "z"]).store = start ∧
      r.words = ["update", "{id=1-2}", "to", "2-3", "in", "a"] ∧
      start.CollisionFree (some r.column) r.substitution (start.select r.scope) ∧
      done.state = renamed ∧ back.state = start := by
  intro start renamed r done back
  have clear : start.CollisionFree none ⟨["1", "2"], ["2", "3"]⟩ ["a", "z"] :=
    collisionFree_of_cells none (by decide)
  have substitution : r.substitution = ⟨["1", "2"], ["2", "3"]⟩ := by decide +kernel
  have scope : start.select r.scope = ["a"] := by decide +kernel
  have clear' : start.CollisionFree (some r.column) r.substitution (start.select r.scope) := by
    rw [scope, substitution]
    exact collisionFree_of_cells _ (by decide)
  obtain ⟨requests, commands⟩ := updates_are_undone reachable_ledger
  obtain ⟨-, -, restored⟩ :=
    requests none ["1", "2"] ["2", "3"] ["a", "z"] (by decide) (by decide) (by decide) rfl clear
  obtain ⟨restored', -⟩ := commands r clear'
  refine ⟨reachable_ledger, clear, ?_, restored, ?_, clear', ?_, restored'⟩
  · decide +kernel
  · decide +kernel
  · decide +kernel

end TableShell.Store
