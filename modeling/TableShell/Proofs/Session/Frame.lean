import TableShell.Proofs.Session.Reachable

/-!
# What a line may touch

A line changes tables only if it is an update or a copy, and then only the tables of its scope. An
update keeps the number of rows, and a copy keeps the rows that are there in their places with
their key cells and adds rows at the end. So a session loses no file, no column and no row.
-/

namespace TableShell

namespace Table

variable {keyColumn source target : String} {t u v : Table}

/-- The rows of the first table are still in their places with their key cells, and any further
row comes after them. Without the key column nothing has changed. -/
structure KeepsKeys (keyColumn : String) (t u : Table) : Prop where
  columns : u.columns = t.columns
  /-- The key cells of the rows that were there come first. -/
  keyCells : ∀ ⦃key⦄, t.columnIndex? keyColumn = some key →
    t.rows.map (·[key]?) <+: u.rows.map (·[key]?)
  /-- A table without the key column stays as it is. -/
  unknown : t.columnIndex? keyColumn = none → u = t

theorem KeepsKeys.refl (t : Table) : KeepsKeys keyColumn t t :=
  ⟨rfl, fun _ _ => List.prefix_rfl, fun _ => rfl⟩

theorem KeepsKeys.trans (first : KeepsKeys keyColumn t u) (second : KeepsKeys keyColumn u v) :
    KeepsKeys keyColumn t v := by
  have same : u.columnIndex? keyColumn = t.columnIndex? keyColumn := by
    rw [columnIndex?, first.columns, columnIndex?]
  refine ⟨second.columns.trans first.columns, ?_, ?_⟩
  · intro key found
    exact (first.keyCells found).trans (second.keyCells (same.trans found))
  · intro unknown
    rw [second.unknown (same.trans unknown), first.unknown unknown]

theorem keepsKeys_copied (t : Table) :
    KeepsKeys keyColumn t (t.copied keyColumn source target) := by
  refine ⟨columns_copied, ?_, copied_of_none⟩
  intro key found
  rw [copied_of_some found]
  exact keyCells_prefix_copyRows

end Table

namespace Store

variable {store : Store} {steps : List Step} {scope name : String}

/-- Steps that only search leave the store as it is. -/
theorem runAll_of_searches (searches : ∀ step ∈ steps, ∃ target, step.request = .search target) :
    (Step.runAll engine store steps).1 = store := by
  refine Step.runAll_induction (p := fun s : Store => s = store) ?_ rfl
  rintro step member s rfl
  obtain ⟨target, request⟩ := searches step member
  rw [request]
  rfl

/-- Steps with one scope leave the tables outside it as they are. -/
theorem get?_runAll_of_not_mem (shape : store.book.Rectangular)
    (one : ∀ step ∈ steps, step.scope = scope) (outside : name ∉ store.select scope) :
    (Step.runAll engine store steps).1.book.get? name = store.book.get? name := by
  have elsewhere : ∀ step ∈ steps, ∀ other ∈ [name], other ∉ store.select step.scope := by
    intro step member other listed
    rw [List.mem_singleton.1 listed, one step member]
    exact outside
  exact (agreeOn_runAll shape elsewhere).tables name List.mem_cons_self

theorem extends_process (shape : store.book.Rectangular) (ws : List String) :
    Workbook.Rel Table.Extends store.book (Session.process engine store ws).state.book := by
  rw [Session.state_process]
  split
  · exact .refl Table.Extends.refl store.book
  · exact rel_runAll Table.Extends.refl Table.Extends.trans
      (fun step _ keyColumn? t => step.request.extends_edit keyColumn? t) shape

theorem extends_runLines (shape : store.book.Rectangular) (lines : List String) :
    Workbook.Rel Table.Extends store.book (Session.runLines engine store lines).state.book := by
  suffices both : (Session.runLines engine store lines).state.book.Rectangular ∧
      Workbook.Rel Table.Extends store.book (Session.runLines engine store lines).state.book
    from both.2
  refine Session.runLines_induction (p := fun s : Store =>
    s.book.Rectangular ∧ Workbook.Rel Table.Extends store.book s.book) ?_
    ⟨shape, .refl Table.Extends.refl store.book⟩ lines
  rintro s ws ⟨sound, rel⟩
  exact ⟨rectangular_after sound (.process ws),
    rel.trans Table.Extends.trans (extends_process sound ws)⟩

private theorem lengths_of_update (shape : store.book.Rectangular) (old new scope : String) :
    Workbook.Rel (fun t u => u.rows.length = t.rows.length) store.book
      (Step.runAll engine store (Command.update old new scope).plan.steps).1.book := by
  apply rel_runAll
  · intro t
    rfl
  · intro t u v first second
    exact second.trans first
  · intro step member keyColumn? t
    obtain rfl := List.mem_singleton.1 member
    simp only [Plan.updateStep, Request.edit]
    split
    · exact Table.length_rows_updated
    · rfl
  · exact shape

private theorem keys_of_copy (shape : store.book.Rectangular)
    (keyColumn source target scope : String) :
    Workbook.Rel (Table.KeepsKeys keyColumn) store.book
      (Step.runAll engine store
        (Command.copy keyColumn source target scope).plan.steps).1.book := by
  apply rel_runAll
  · exact Table.KeepsKeys.refl
  · exact Table.KeepsKeys.trans
  · intro step member keyColumn? t
    obtain ⟨source, target, -, rfl⟩ := Plan.exists_copyStep_of_mem member
    exact t.keepsKeys_copied
  · exact shape

/-- A line changes tables only in the scope of an update or of a copy, and only as it may: an
update keeps the number of rows, and a copy keeps the rows with their key cells and adds others at
the end. No session loses a file, a column or a row. -/
theorem lines_touch_scope_only (reached : store.Reachable) :
    (∀ ws,
      let book := (Session.process engine store ws).state.book
      Workbook.Rel (fun t u => u.columns = t.columns) store.book book ∧
        match Command.ofWords ws with
        | .ok (.update _ _ scope) =>
          (∀ name, name ∉ store.select scope → book.get? name = store.book.get? name) ∧
            Workbook.Rel (fun t u => u.rows.length = t.rows.length) store.book book
        | .ok (.copy keyColumn _ _ scope) =>
          (∀ name, name ∉ store.select scope → book.get? name = store.book.get? name) ∧
            Workbook.Rel (Table.KeepsKeys keyColumn) store.book book
        | _ => book = store.book) ∧
      ∀ lines, Workbook.Rel Table.Extends store.book
        (Session.runLines engine store lines).state.book := by
  have shape := reached.rectangular
  refine ⟨?_, extends_runLines shape⟩
  intro ws
  refine ⟨(extends_process shape ws).mono fun t u grown => grown.1, ?_⟩
  rw [Session.state_process]
  cases Command.ofWords ws with
  | error _ => rfl
  | ok command =>
    cases command with
    | blank => rfl
    | exit => rfl
    | clean => rfl
    | help => rfl
    | get fields scope =>
      refine congrArg Store.book (runAll_of_searches ?_)
      intro step member
      obtain ⟨field, -, rfl⟩ := List.mem_map.1 member
      exact ⟨_, rfl⟩
    | update old new scope =>
      refine ⟨?_, lengths_of_update shape old new scope⟩
      intro name outside
      refine get?_runAll_of_not_mem shape ?_ outside
      intro step member
      obtain rfl := List.mem_singleton.1 member
      rfl
    | copy keyColumn source target scope =>
      refine ⟨?_, keys_of_copy shape keyColumn source target scope⟩
      intro name outside
      refine get?_runAll_of_not_mem shape ?_ outside
      intro step member
      obtain ⟨source, target, -, rfl⟩ := Plan.exists_copyStep_of_mem member
      rfl

theorem lines_touch_scope_only_ledger :
    let start : Store := { book := ledger }
    let line := ["copy", "id", "2", "to", "1", "in", "a"]
    let book := (Session.process engine start line).state.book
    start.Reachable ∧ book.get? "a" =
        some { columns := ["id", "name"], rows := [["1", "y"], ["2", "y"]] } ∧
      book.get? "b" = start.book.get? "b" ∧
      Workbook.Rel (Table.KeepsKeys "id") start.book book := by
  intro start line book
  have read : Command.ofWords line = .ok (.copy "id" "2" "1" "in a") := by decide +kernel
  obtain ⟨each, -⟩ := lines_touch_scope_only reachable_ledger
  have touched := (each line).2
  rw [read] at touched
  refine ⟨reachable_ledger, ?_, ?_, touched.2⟩
  · decide +kernel
  · exact touched.1 "b" (by decide +kernel)

end Store

end TableShell
