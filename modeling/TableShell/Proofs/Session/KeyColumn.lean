import TableShell.Proofs.Chunk.Grammar
import TableShell.Proofs.Session.Locality
import TableShell.Proofs.Store.KeyColumn

/-!
# Leaving out the key column

A field on its own is looked for in the key column. A plan goes the same way with this column named
in each of its requests (`plans_naming`), and this is the plan of a command whose fields are
written in braces, with the column in front of them (`plan_get_written`, `plan_update_written`). So
`get` and `update` do the same with and without the name of the key column, and what is said about
their requests differs in this name alone (`naming_the_key_column_changes_nothing`).

## Main definitions

- `Entry.naming`, `Plan.naming`: a column for the chunks of what is said and asked
- `Transcript.withoutRequests`: what happens besides the requests and their announcements
- `Store.naming`: steps with and without the name of the key column
-/

namespace TableShell

/-! ### Named entries -/

/-- The report with the given column for the values that are looked for. -/
def Report.naming (column : String) : Report → Report
  | .searching target => .searching (target.naming column)
  | .updating old new => .updating (old.naming column) new
  | report => report

/-- The entry with the given column for the values that are looked for. Only requests and their
announcements have such values. -/
def Entry.naming (column : String) : Entry → Entry
  | .report r => .report (r.naming column)
  | .request asked files => .request (asked.naming column) files
  | entry => entry

/-- Whether an entry is a request or says which request comes next. -/
def Entry.isRequest : Entry → Bool
  | report (.searching _) => true
  | report (.updating _ _) => true
  | report (.copying _ _) => true
  | request _ _ => true
  | _ => false

theorem Entry.isRequest_naming (column : String) (entry : Entry) :
    (entry.naming column).isRequest = entry.isRequest := by
  cases entry with
  | report r => cases r <;> rfl
  | _ => rfl

theorem Entry.naming_of_not_isRequest {column : String} {entry : Entry}
    (other : entry.isRequest = false) : entry.naming column = entry := by
  cases entry with
  | report r =>
    cases r with
    | searching _ | updating _ _ => cases other
    | _ => rfl
  | request _ _ => cases other
  | _ => rfl

namespace Transcript

/-- All that happens besides the requests and their announcements: the warnings, the failures, and
the lines that are printed. -/
def withoutRequests (transcript : Transcript) : Transcript :=
  transcript.filter (! ·.isRequest)

/-- A transcript without requests has nothing to name. -/
theorem withoutRequests_map_naming (column : String) (transcript : Transcript) :
    withoutRequests (transcript.map (Entry.naming column)) = transcript.withoutRequests := by
  have alike : (! ·.isRequest) ∘ Entry.naming column = (! ·.isRequest) :=
    funext fun entry => congrArg not (entry.isRequest_naming column)
  have same : ∀ entry ∈ transcript.withoutRequests, entry.naming column = id entry := by
    intro entry kept
    apply Entry.naming_of_not_isRequest
    simpa using (List.mem_filter.1 kept).2
  rw [withoutRequests, List.filter_map, alike]
  exact (List.map_congr_left same).trans (List.map_id _)

end Transcript

/-- A warning has nothing to name. -/
theorem Warned.map_naming_reports {α : Type} (column : String) (read : Warned α) :
    read.reports.map (Report.naming column) = read.reports := by
  rw [reports]
  cases read.warning? with
  | none => rfl
  | some _ => rfl

private theorem map_report_naming (column : String) (rs : List Report) :
    (rs.map (Report.naming column)).map .report = (rs.map .report).map (Entry.naming column) := by
  rw [List.map_map, List.map_map]
  rfl

private theorem map_line_naming (column : String) (texts : List String) :
    (texts.map .line).map (Entry.naming column) = texts.map .line := by
  rw [List.map_map]
  rfl

/-! ### Named plans -/

/-- The step with the given column for the values that are looked for. -/
def Step.naming (column : String) (step : Step) : Step where
  reports := step.reports.map (Report.naming column)
  request := step.request.naming column
  scope := step.scope

/-- The plan with the given column for the values that are looked for. -/
def Plan.naming (column : String) (plan : Plan) : Plan :=
  { plan with
    reports := plan.reports.map (Report.naming column)
    steps := plan.steps.map (Step.naming column) }

namespace Store

variable {store : Store} {column : String}

private theorem run_naming (shape : store.book.Rectangular) {step : Step}
    (key : store.KeyIn column (store.select step.scope)) :
    (step.naming column).run engine store =
      ((step.run engine store).1, (step.run engine store).2.map (Entry.naming column)) := by
  have distinct : (store.select step.scope).Nodup := store.book.nodup_select step.scope
  have reply : engine.perform store (step.request.naming column) (store.select step.scope) =
      engine.perform store step.request (store.select step.scope) :=
    congrArg Outcome.reply (perform_naming shape key distinct step.request)
  have selected : engine.select store step.scope = store.select step.scope := rfl
  simp only [Step.run, Step.naming, selected, reply, map_report_naming, map_line_naming,
    Request.activity_naming, List.map_append]
  cases (engine.perform store step.request (store.select step.scope)).failure? with
  | none => rfl
  | some cause => rfl

/-- Some steps are coupled with the same steps before a column is named in them, as long as it is
the key column of the files that they work on. -/
def naming (column : String) (steps : List Step) : Coupling engine engine where
  states s t := s = t ∧ t.book.Rectangular ∧
    ∀ step ∈ steps, t.KeyIn column (t.select step.scope)
  steps named step := named = step.naming column ∧ step ∈ steps
  transcripts named transcript := named = transcript.map (Entry.naming column)
  nil := List.map_nil.symm
  append := by
    rintro _ _ _ _ rfl rfl
    exact List.map_append.symm
  run := by
    rintro _ step s _ ⟨rfl, member⟩ ⟨rfl, shape, key⟩
    obtain ⟨state, transcript⟩ := Prod.ext_iff.1 (run_naming shape (key step member))
    refine ⟨⟨state, rectangular_perform shape step.request _, ?_⟩, transcript⟩
    -- The step changes neither the files of a scope nor their key column.
    intro step' member'
    have selected : (step.run engine s).1.select step'.scope = s.select step'.scope :=
      select_perform shape step.request _ step'.scope
    rw [selected]
    exact (key step' member').perform shape step.request _

theorem plans_naming (column : String) (plan : Plan) :
    (naming column plan.steps).Plans (plan.naming column) plan := by
  refine ⟨map_report_naming column plan.reports, ?_, rfl⟩
  rw [Plan.naming, List.forall₂_map_left_iff, List.forall₂_same]
  exact fun _ member => ⟨rfl, member⟩

end Store

/-! ### Written columns -/

section Written

variable {column : String} (named : column ≠ "") (plain : '=' ∉ column.toList)
include named plain

/-- With a column around it, in braces, a field is read like the field alone, in that column. -/
theorem Chunk.read_written_of_not_isBraced {field : String} (bare : ¬Chunk.IsBraced field) :
    Chunk.read (Chunk.written column field) =
      { Chunk.read field with value := (Chunk.read field).value.naming column } := by
  have alone : ¬∃ column field', Chunk.IsAssignment field column field' := by
    rintro ⟨column, field', rfl, -, -⟩
    exact bare (Chunk.isBraced_iff.2 ⟨_, Chunk.braced?_written column field'⟩)
  rw [Chunk.read_written named plain, Chunk.read_of_not_isAssignment alone, if_neg bare]
  rfl

theorem Plan.searchStep_written (scope : String) {field : String} (bare : ¬Chunk.IsBraced field) :
    Plan.searchStep scope (Chunk.written column field) =
      (Plan.searchStep scope field).naming column := by
  simp only [Plan.searchStep, Step.naming, Chunk.read_written_of_not_isBraced named plain bare,
    List.map_append, Warned.map_naming_reports]
  rfl

theorem Plan.updateStep_written (scope new : String) {old : String} (bare : ¬Chunk.IsBraced old) :
    Plan.updateStep scope (Chunk.written column old) new =
      (Plan.updateStep scope old new).naming column := by
  simp only [Plan.updateStep, Step.naming, Chunk.read_written_of_not_isBraced named plain bare,
    List.map_append, Warned.map_naming_reports]
  rfl

theorem Command.plan_get_written (scope : String) {fields : List String}
    (bare : ∀ field ∈ fields, ¬Chunk.IsBraced field) :
    (Command.get (fields.map (Chunk.written column)) scope).plan =
      (Command.get fields scope).plan.naming column := by
  simp only [Command.plan, Plan.naming, List.map_nil, List.map_map, Function.comp_def,
    Plan.mk.injEq, and_true, true_and]
  exact List.map_congr_left fun field listed =>
    Plan.searchStep_written named plain scope (bare field listed)

theorem Command.plan_update_written (scope new : String) {old : String}
    (bare : ¬Chunk.IsBraced old) :
    (Command.update (Chunk.written column old) new scope).plan =
      (Command.update old new scope).plan.naming column := by
  simp only [Command.plan, Plan.updateStep_written named plain scope new bare]
  rfl

end Written

namespace Store

variable {store : Store} {column scope : String}

/-- A command whose plan names the key column does the same as the one whose plan does not. -/
theorem execute_naming (shape : store.book.Rectangular) {command command' : Command}
    (going : (command' != .exit) = (command != .exit)) (scopes : command.scope? = some scope)
    (key : store.KeyIn column (store.select scope))
    (plans : command'.plan = command.plan.naming column) :
    let bare := Session.execute engine store command
    let done := Session.execute engine store command'
    done.result = bare.result ∧ done.state = bare.state ∧
      done.transcript = bare.transcript.map (Entry.naming column) ∧
      done.transcript.withoutRequests = bare.transcript.withoutRequests := by
  intro bare done
  have key' : ∀ step ∈ command.plan.steps, store.KeyIn column (store.select step.scope) := by
    intro step member
    have scope_eq := scopes.symm.trans (Command.scope?_eq_some_of_mem member)
    rw [← Option.some.inj scope_eq]
    exact key
  have coupled := plans_naming column command.plan
  rw [← plans] at coupled
  obtain ⟨⟨state, -⟩, transcript, result⟩ := coupled.execute going ⟨rfl, shape, key'⟩
  refine ⟨result, state, transcript, ?_⟩
  exact (congrArg Transcript.withoutRequests transcript).trans
    (Transcript.withoutRequests_map_naming column bare.transcript)

/-- Let a column be the chosen key column, or else let no key column be chosen and the column be the
first one of each table in a scope. Then fields without braces can be looked for, and an old value
without braces can be updated, with and without the name of the column: the tables, the warnings,
the failures and all that is printed for the files are the same, and the requests and their
announcements are the same but for the name. -/
theorem naming_the_key_column_changes_nothing (reached : store.Reachable) (named : column ≠ "")
    (plain : '=' ∉ column.toList)
    (key : store.keyColumn? = some column ∨ store.keyColumn? = none ∧
      ∀ file ∈ store.select scope, ∀ t ∈ store.book.get? file, t.columns.head? = some column) :
    (∀ fields : List String, (∀ field ∈ fields, ¬Chunk.IsBraced field) →
      let bare := Session.execute engine store (.get fields scope)
      let done := Session.execute engine store (.get (fields.map (Chunk.written column)) scope)
      done.result = bare.result ∧ done.state = bare.state ∧
        done.transcript = bare.transcript.map (Entry.naming column) ∧
        done.transcript.withoutRequests = bare.transcript.withoutRequests) ∧
      ∀ old new : String, ¬Chunk.IsBraced old →
        let bare := Session.execute engine store (.update old new scope)
        let done := Session.execute engine store (.update (Chunk.written column old) new scope)
        done.result = bare.result ∧ done.state = bare.state ∧
          done.transcript = bare.transcript.map (Entry.naming column) ∧
          done.transcript.withoutRequests = bare.transcript.withoutRequests := by
  have shape := reached.rectangular
  have keyIn : store.KeyIn column (store.select scope) := by
    rcases key with configured | ⟨unset, first⟩
    · exact keyIn_of_keyColumn? configured _
    · exact keyIn_of_head? unset first
  constructor
  · intro fields bare
    exact execute_naming shape rfl rfl keyIn (Command.plan_get_written named plain scope bare)
  · intro old new bare
    exact execute_naming shape rfl rfl keyIn
      (Command.plan_update_written named plain scope new bare)

theorem naming_the_key_column_changes_nothing_ledger :
    let start : Store := { book := ledger }
    let found := Session.execute engine start (.get ["1-2", "x-y"] "in a b")
    let found' := Session.execute engine start
      (.get ["{id=1-2}", "{id=x-y}"] "in a b")
    let updated := Session.execute engine start (.update "2" "9" "in a b")
    let updated' := Session.execute engine start (.update "{id=2}" "9" "in a b")
    start.Reachable ∧ "id" ≠ "" ∧ '=' ∉ "id".toList ∧
      (start.keyColumn? = none ∧ ∀ file ∈ start.select "in a b", ∀ t ∈ start.book.get? file,
        t.columns.head? = some "id") ∧
      (∀ field ∈ ["1-2", "x-y"], ¬Chunk.IsBraced field) ∧ ¬Chunk.IsBraced "2" ∧
      found'.state = found.state ∧
      found'.transcript.reports = [.searching ⟨some "id", ["1", "2"]⟩,
        .warning (.invalidRange "x-y"), .searching ⟨some "id", ["x-y"]⟩] ∧
      found'.transcript.withoutRequests = found.transcript.withoutRequests ∧
      updated'.state = updated.state ∧
      updated'.state.book.get? "b" = some { columns := ["id"], rows := [["9"], ["9"]] } ∧
      updated'.transcript.reports = [.updating ⟨some "id", ["2"]⟩ ⟨none, ["9"]⟩] ∧
      updated'.transcript.withoutRequests = updated.transcript.withoutRequests := by
  intro start found found' updated updated'
  have first : start.keyColumn? = none ∧ ∀ file ∈ start.select "in a b",
      ∀ t ∈ start.book.get? file, t.columns.head? = some "id" := by
    decide +kernel
  have named : "id" ≠ "" := by decide
  have plain : '=' ∉ "id".toList := by decide
  have bare : ∀ field ∈ ["1-2", "x-y"], ¬Chunk.IsBraced field := by decide
  have bare' : ¬Chunk.IsBraced "2" := by decide
  obtain ⟨gets, updates⟩ :=
    naming_the_key_column_changes_nothing reachable_ledger named plain (.inr first)
  obtain ⟨-, state, -, rest⟩ := gets ["1-2", "x-y"] bare
  obtain ⟨-, state', -, rest'⟩ := updates "2" "9" bare'
  refine ⟨reachable_ledger, named, plain, first, bare, bare', state, ?_, rest, state', ?_, ?_,
    rest'⟩
  · decide +kernel
  · decide +kernel
  · decide +kernel

end Store

end TableShell
