import TableShell.Proofs.Store.Locality
import TableShell.Session

/-!
# What sessions keep

A property of the state that each request keeps is kept by the steps of a command, by a line and by
a session. For a store in memory each request is a function on tables, so this yields what a
command keeps of the files, of the tables outside its scope and of the tables inside it.
-/

namespace TableShell

namespace Transcript

@[simp] theorem requests_append (first second : Transcript) :
    requests (first ++ second) = first.requests ++ second.requests := by
  rw [requests, requests, requests, List.filterMap_append]

@[simp] theorem reports_append (first second : Transcript) :
    reports (first ++ second) = first.reports ++ second.reports := by
  rw [reports, reports, reports, List.filterMap_append]

@[simp] theorem requests_map_report (rs : List Report) : requests (rs.map .report) = [] := by
  rw [requests, List.filterMap_map, List.filterMap_eq_nil_iff]
  intro r _
  rfl

@[simp] theorem reports_map_report (rs : List Report) : reports (rs.map .report) = rs := by
  rw [reports, List.filterMap_map]
  exact List.filterMap_some

@[simp] theorem requests_map_line (texts : List String) : requests (texts.map .line) = [] := by
  rw [requests, List.filterMap_map, List.filterMap_eq_nil_iff]
  intro text _
  rfl

@[simp] theorem reports_map_line (texts : List String) : reports (texts.map .line) = [] := by
  rw [reports, List.filterMap_map, List.filterMap_eq_nil_iff]
  intro text _
  rfl

@[simp] theorem requests_cons_request (request : Request) (files : List String)
    (rest : Transcript) :
    requests (.request request files :: rest) = (request, files) :: rest.requests := rfl

@[simp] theorem reports_cons_request (request : Request) (files : List String)
    (rest : Transcript) : reports (.request request files :: rest) = rest.reports := rfl

@[simp] theorem requests_cons_report (r : Report) (rest : Transcript) :
    requests (.report r :: rest) = rest.requests := rfl

@[simp] theorem reports_cons_report (r : Report) (rest : Transcript) :
    reports (.report r :: rest) = r :: rest.reports := rfl

end Transcript

namespace Plan

/-- The copies of single rows, one for each pair of a source key and a target key. -/
def copySteps (scope keyColumn : String) (pairs : List (String × String)) : List Step :=
  pairs.map fun pair => copyStep scope keyColumn pair.1 pair.2

theorem ofCopy_of_even {scope keyColumn sourceText targetText : String}
    (even : (Field.read sourceText).value.length = (Field.read targetText).value.length) :
    ofCopy scope keyColumn sourceText targetText =
      { reports := (Field.read sourceText).reports ++ (Field.read targetText).reports
        steps := copySteps scope keyColumn
          ((Field.read sourceText).value.zip (Field.read targetText).value) } := by
  rw [ofCopy, if_pos even, copySteps, ← List.map_uncurry_zip_eq_zipWith]
  rfl

theorem ofCopy_of_uneven {scope keyColumn sourceText targetText : String}
    (uneven : (Field.read sourceText).value.length ≠ (Field.read targetText).value.length) :
    ofCopy scope keyColumn sourceText targetText =
      { reports := (Field.read sourceText).reports ++ (Field.read targetText).reports
        refusal? := some (.keyCountMismatch (Field.read sourceText).value.length
          (Field.read targetText).value.length) } := by
  rw [ofCopy, if_neg uneven]

/-- The steps of a copy are copies of single rows, all with the same key column and scope. -/
theorem exists_copyStep_of_mem {scope keyColumn sourceText targetText : String} {step : Step}
    (member : step ∈ (ofCopy scope keyColumn sourceText targetText).steps) :
    ∃ source, ∃ target ∈ (Field.read targetText).value,
      step = copyStep scope keyColumn source target := by
  by_cases even : (Field.read sourceText).value.length = (Field.read targetText).value.length
  · rw [ofCopy_of_even even] at member
    obtain ⟨pair, listed, rfl⟩ := List.mem_map.1 member
    exact ⟨pair.1, pair.2, (List.of_mem_zip listed).2, rfl⟩
  · rw [ofCopy_of_uneven even] at member
    cases member

theorem reports_ofCopy (scope keyColumn sourceText targetText : String) :
    (ofCopy scope keyColumn sourceText targetText).reports =
      (Field.read sourceText).reports ++ (Field.read targetText).reports := by
  rw [ofCopy]
  split
  · rfl
  · rfl

end Plan

/-- What holds of warnings and of reports of progress holds of all that a plan reports, if it holds
of the answers to `help` and `clean` as well. -/
theorem Command.forall_reports_plan {p : Report → Prop} {command : Command}
    (warning : ∀ w, p (.warning w)) (searching : ∀ target, p (.searching target))
    (updating : ∀ old new, p (.updating old new))
    (copying : ∀ source target, p (.copying source target))
    (help : command = .help → p .help) (clear : command = .clean → p .clear) :
    (∀ r ∈ command.plan.reports, p r) ∧ ∀ step ∈ command.plan.steps, ∀ r ∈ step.reports, p r := by
  have warnings {α : Type} (read : Warned α) : ∀ r ∈ read.reports, p r := by
    intro r member
    obtain ⟨w, -, rfl⟩ := Option.map_eq_some_iff.1 (Option.mem_toList.1 member)
    exact warning w
  have single {r : Report} (holds : p r) : ∀ r' ∈ [r], p r' := by
    simpa using holds
  cases command with
  | blank | exit => exact ⟨List.forall_mem_nil _, List.forall_mem_nil _⟩
  | help => exact ⟨single (help rfl), List.forall_mem_nil _⟩
  | clean => exact ⟨single (clear rfl), List.forall_mem_nil _⟩
  | get fields scope =>
    refine ⟨List.forall_mem_nil _, ?_⟩
    intro step member
    obtain ⟨field, -, rfl⟩ := List.mem_map.1 member
    exact List.forall_mem_append.2 ⟨warnings _, single (searching _)⟩
  | update old new scope =>
    refine ⟨List.forall_mem_nil _, ?_⟩
    intro step member
    obtain rfl := List.mem_singleton.1 member
    exact List.forall_mem_append.2 ⟨List.forall_mem_append.2 ⟨warnings _, warnings _⟩,
      single (updating _ _)⟩
  | copy keyColumn source target scope =>
    constructor
    · rw [plan, Plan.reports_ofCopy]
      exact List.forall_mem_append.2 ⟨warnings _, warnings _⟩
    · intro step member
      obtain ⟨source, target, -, rfl⟩ := Plan.exists_copyStep_of_mem member
      exact single (copying source target)

section Engine

variable {σ : Type} {engine : Engine σ} {p : σ → Prop}

/-- What holds of the reports of a step, of its request, of lines and of its failure holds of all
that happens in it. -/
theorem Step.forall_mem_run {q : Entry → Prop} {step : Step}
    (reports : ∀ r ∈ step.reports, q (.report r))
    (request : ∀ files, q (.request step.request files)) (lines : ∀ text, q (.line text))
    (failure : ∀ cause, q (.report (.failure (.operation step.request.activity cause)))) (s : σ) :
    ∀ entry ∈ (step.run engine s).2, q entry := by
  simp only [run, List.forall_mem_append, List.forall_mem_map, List.forall_mem_singleton]
  refine ⟨⟨⟨reports, request _⟩, fun text _ => lines text⟩, ?_⟩
  cases (engine.perform s step.request (engine.select s step.scope)).failure? with
  | none => exact List.forall_mem_nil _
  | some cause => exact List.forall_mem_singleton.2 (failure cause)

/-- What holds of all that happens in each step holds of all that happens. -/
theorem Step.forall_mem_runAll {q : Entry → Prop} {steps : List Step}
    (each : ∀ step ∈ steps, ∀ s, ∀ entry ∈ (step.run engine s).2, q entry) (s : σ) :
    ∀ entry ∈ (Step.runAll engine s steps).2, q entry := by
  induction steps generalizing s with
  | nil => exact List.forall_mem_nil _
  | cons step steps ih =>
    obtain ⟨here, later⟩ := List.forall_mem_cons.1 each
    exact List.forall_mem_append.2 ⟨here s, ih later _⟩

/-- A step makes its one request. -/
theorem Step.requests_run (s : σ) (step : Step) :
    (step.run engine s).2.requests = [(step.request, engine.select s step.scope)] := by
  simp only [run, Transcript.requests_append, Transcript.requests_map_report,
    Transcript.requests_map_line]
  cases (engine.perform s step.request (engine.select s step.scope)).failure? with
  | none => rfl
  | some _ => rfl

/-- A step makes its own reports, and one more if its request fails. -/
theorem Step.reports_run (s : σ) (step : Step) :
    (step.run engine s).2.reports = step.reports ++
      ((engine.perform s step.request (engine.select s step.scope)).failure?.map fun cause =>
        Report.failure (.operation step.request.activity cause)).toList := by
  simp only [run, Transcript.reports_append, Transcript.reports_map_report,
    Transcript.reports_map_line]
  cases (engine.perform s step.request (engine.select s step.scope)).failure? with
  | none => simp [Transcript.reports]
  | some _ => simp [Transcript.reports]

theorem Step.runAll_induction {steps : List Step}
    (keep : ∀ step ∈ steps, ∀ s, p s →
      p (engine.perform s step.request (engine.select s step.scope)).state)
    {s : σ} (start : p s) : p (Step.runAll engine s steps).1 := by
  induction steps generalizing s with
  | nil => exact start
  | cons step steps ih =>
    have now : p (step.run engine s).1 := keep step List.mem_cons_self s start
    exact ih (fun later member => keep later (List.mem_cons_of_mem step member)) now

namespace Session

/-- A line that is no command leaves the state as it is, and any other line follows the steps of
its command. -/
theorem state_process (s : σ) (ws : List String) :
    (process engine s ws).state =
      match Command.ofWords ws with
      | .error _ => s
      | .ok command => (Step.runAll engine s command.plan.steps).1 := by
  rw [process]
  cases Command.ofWords ws with
  | error _ => rfl
  | ok command =>
    simp only [execute]
    cases command.plan.refusal? with
    | none => rfl
    | some _ => rfl

theorem process_induction
    (keep : ∀ s request scope, p s → p (engine.perform s request (engine.select s scope)).state)
    {s : σ} (start : p s) (ws : List String) : p (process engine s ws).state := by
  rw [state_process]
  split
  · exact start
  · exact Step.runAll_induction (fun step _ s => keep s step.request step.scope) start

theorem runLines_induction (keep : ∀ s ws, p s → p (process engine s ws).state) {s : σ}
    (start : p s) (lines : List String) : p (runLines engine s lines).state := by
  induction lines generalizing s with
  | nil => exact start
  | cons line rest ih =>
    have now : p (takeLine engine s line).state := by
      rw [takeLine]
      split
      · exact start
      · exact keep s _ start
    rw [runLines]
    split
    · exact now
    · exact ih now

end Session

end Engine

namespace Store

variable {store : Store} {steps : List Step} {r : Table → Table → Prop} {scope : String}

/-- What is kept when the function of each request is applied to the tables of its scope is kept by
steps on rectangular tables. -/
theorem runAll_induction {p : Workbook → Prop}
    (keep : ∀ step ∈ steps, ∀ keyColumn? book, p book →
      p (Workbook.modifyAll (step.request.edit keyColumn?) book (book.select step.scope)))
    (shape : store.book.Rectangular) (start : p store.book) :
    p (Step.runAll engine store steps).1.book := by
  suffices both : (Step.runAll engine store steps).1.book.Rectangular ∧
      p (Step.runAll engine store steps).1.book from both.2
  -- The shape is carried along, since only on rectangular tables is a request a function on them.
  refine Step.runAll_induction (p := fun s : Store => s.book.Rectangular ∧ p s.book) ?_
    ⟨shape, start⟩
  rintro step member s ⟨sound, holds⟩
  refine ⟨rectangular_perform sound step.request _, ?_⟩
  show p (s.perform step.request (s.select step.scope)).store.book
  rw [store_perform sound]
  exact keep step member s.keyColumn? s.book holds

/-- Steps leave all files outside their scopes as they are. -/
theorem agreeOn_runAll {others : List String} (shape : store.book.Rectangular)
    (outside : ∀ step ∈ steps, ∀ name ∈ others, name ∉ store.select step.scope) :
    AgreeOn others (Step.runAll engine store steps).1 store := by
  suffices both : (Step.runAll engine store steps).1.book.Rectangular ∧
      AgreeOn others (Step.runAll engine store steps).1 store from both.2
  refine Step.runAll_induction
    (p := fun s : Store => s.book.Rectangular ∧ AgreeOn others s store) ?_
    ⟨shape, .refl others store⟩
  rintro step member s ⟨sound, agree⟩
  refine ⟨rectangular_perform sound step.request _, ?_⟩
  show AgreeOn others (s.perform step.request (s.select step.scope)).store store
  rw [store_perform sound, agree.select_eq]
  refine ⟨agree.keyColumn?, agree.quiet, (Workbook.names_modifyAll _ _ _).trans agree.names, ?_⟩
  intro name listed
  have untouched := List.count_eq_zero_of_not_mem (outside step member name listed)
  rw [Workbook.get?_modifyAll, untouched, Function.iterate_zero, Option.map_id]
  exact agree.tables name listed

/-- A relation between tables and their images under each request of a command holds between the
tables before and after the command. -/
theorem rel_runAll (refl : ∀ t, r t t) (trans : ∀ {t u v}, r t u → r u v → r t v)
    (each : ∀ step ∈ steps, ∀ keyColumn? t, r t (step.request.edit keyColumn? t))
    (shape : store.book.Rectangular) :
    Workbook.Rel r store.book (Step.runAll engine store steps).1.book := by
  apply runAll_induction
  · intro step member keyColumn? book rel
    have now : Workbook.Rel r book
        (Workbook.modifyAll (step.request.edit keyColumn?) book (book.select step.scope)) :=
      Workbook.rel_modifyAll refl (fun related => trans related (each step member _ _)) book _
    exact rel.trans trans now
  · exact shape
  · exact .refl refl store.book

end Store

end TableShell
