import Mathlib.Data.List.Forall2
import TableShell.Proofs.Session.Lines
import TableShell.Proofs.Session.Steps

/-!
# The script of a session

What a session comes down to is settled before any request is made: the plans of its lines with
words, up to the first exit word. A session follows this script plan by plan (`runLines_eq_play`),
and whatever the engine answers, it makes the requests of the script and, failed requests apart, its
reports (`flow_play`). So sessions with two engines go the same way
(`control_flow_of_any_engine`).

## Main definitions

- `Plan.ofWords`, `Session.script`: the plan of a line and those of a session
- `Plan.follow`, `Session.play`: following them
- `Transcript.flow`, `Plan.flow`: reports and requests, without what the engine makes of them
- `Session.SameFlow`: two sessions that differ at most in what the engines made of the requests
-/

namespace TableShell

section Engine

variable {σ τ : Type} {engine : Engine σ}

/-! ### Following plans -/

namespace Plan

/-- What a list of words comes down to if `read` says what commands come down to. Words that are no
command are refused. -/
def ofWords (read : Command → Plan) (ws : List String) : Plan :=
  match Command.ofWords ws with
  | .error error => { refusal? := some error }
  | .ok command => read command

def refusalReports (plan : Plan) : List Report :=
  (plan.refusal?.map .failure).toList

/-- Run a plan, and report why it is refused, if it is. -/
def follow (engine : Engine σ) (s : σ) (plan : Plan) : σ × Transcript :=
  let done := plan.run engine s
  (done.1, done.2 ++ plan.refusalReports.map .report)

def followAll (engine : Engine σ) (s : σ) : List Plan → σ × Transcript
  | [] => (s, [])
  | plan :: plans =>
    let now := plan.follow engine s
    let later := followAll engine now.1 plans
    (later.1, now.2 ++ later.2)

end Plan

/-! ### Reports and requests -/

/-- Whether a report says that the engine could not carry out a request. -/
def Report.isRequestFailure : Report → Bool
  | failure (.operation _ _) => true
  | _ => false

namespace Transcript

/-- The reports and requests of a transcript, without reports that a request failed and without the
files that requests are made on. -/
def flow (transcript : Transcript) : List (Report ⊕ Request) :=
  transcript.filterMap fun
    | .report report => if report.isRequestFailure then none else some (.inl report)
    | .request request _ => some (.inr request)
    | _ => none

theorem flow_append (first second : Transcript) :
    flow (first ++ second) = first.flow ++ second.flow := by
  rw [flow, flow, flow, List.filterMap_append]

theorem flow_map_line (texts : List String) : flow (texts.map .line) = [] := by
  rw [flow, List.filterMap_map, List.filterMap_eq_nil_iff]
  intro text _
  rfl

theorem reports_eq_of_flow (transcript : Transcript) :
    transcript.reports.filter (! ·.isRequestFailure) =
      transcript.flow.filterMap Sum.getLeft? := by
  rw [reports, flow, List.filter_filterMap, List.filterMap_filterMap]
  congr 1
  funext entry
  cases entry with
  | report report => cases failed : report.isRequestFailure <;> simp [failed]
  | request request files => rfl
  | line text => rfl
  | prompt text => rfl

theorem requests_eq_of_flow (transcript : Transcript) :
    transcript.requests.map Prod.fst = transcript.flow.filterMap Sum.getRight? := by
  rw [requests, flow, List.map_filterMap, List.filterMap_filterMap]
  congr 1
  funext entry
  cases entry with
  | report report => cases failed : report.isRequestFailure <;> simp [failed]
  | request request files => rfl
  | line text => rfl
  | prompt text => rfl

end Transcript

def Step.flow (step : Step) : List (Report ⊕ Request) :=
  Transcript.flow (step.reports.map .report) ++ [.inr step.request]

def Plan.flow (plan : Plan) : List (Report ⊕ Request) :=
  Transcript.flow (plan.reports.map .report) ++ plan.steps.flatMap Step.flow ++
    Transcript.flow (plan.refusalReports.map .report)

/-- Whatever the engine answers, a step makes its reports and its request. -/
theorem Step.flow_run (s : σ) (step : Step) : (step.run engine s).2.flow = step.flow := by
  simp only [run, Transcript.flow_append, Transcript.flow_map_line, List.append_nil, flow]
  -- The report that a request failed is left out of the flow.
  cases (engine.perform s step.request (engine.select s step.scope)).failure? with
  | none => exact List.append_nil _
  | some cause => exact List.append_nil _

theorem Step.flow_runAll (s : σ) (steps : List Step) :
    (Step.runAll engine s steps).2.flow = steps.flatMap Step.flow := by
  induction steps generalizing s with
  | nil => rfl
  | cons step steps ih =>
    rw [runAll, Transcript.flow_append, flow_run, ih, List.flatMap_cons]

namespace Plan

theorem flow_follow (s : σ) (plan : Plan) : (plan.follow engine s).2.flow = plan.flow := by
  rw [follow, Transcript.flow_append, run, Transcript.flow_append, Step.flow_runAll, flow]

theorem flow_followAll (s : σ) (plans : List Plan) :
    (followAll engine s plans).2.flow = plans.flatMap flow := by
  induction plans generalizing s with
  | nil => rfl
  | cons plan plans ih =>
    rw [followAll, Transcript.flow_append, flow_follow, ih, List.flatMap_cons]

end Plan

/-! ### Sessions as scripts -/

namespace Session

variable {read : Command → Plan} {s : σ} {line : String}

/-- The plans of the lines with words in front of the first line with an exit word. -/
def script (read : Command → Plan) (lines : List String) : List Plan :=
  ((lines.takeWhile (! endsSession ·)).filter Text.hasWords).map fun line =>
    Plan.ofWords read (Text.words line)

/-- A session in which `read` says what commands come down to. -/
def play (read : Command → Plan) (engine : Engine σ) (s : σ) (lines : List String) : Outcome σ :=
  let done := Plan.followAll engine s (script read lines)
  { state := done.1
    transcript := done.2
    summary :=
      { commands := (taken lines).countP Text.hasWords
        stopped := lines.any endsSession } }

theorem script_of_endsSession (ends : endsSession line) (rest : List String) :
    script read (line :: rest) = [] := by
  simp [script, ends]

theorem script_of_blank (blank : ¬Text.hasWords line) (rest : List String) :
    script read (line :: rest) = script read rest := by
  have stays : ¬endsSession line := fun ends => blank (hasWords_of_endsSession ends)
  simp [script, stays, blank]

theorem script_of_not_endsSession (spoken : Text.hasWords line) (stays : ¬endsSession line)
    (rest : List String) :
    script read (line :: rest) = Plan.ofWords read (Text.words line) :: script read rest := by
  simp [script, stays, spoken]

/-- Words without an exit word are processed by following what they come down to. -/
theorem process_eq_follow {ws : List String} (stays : ¬ws.any Command.exitWords.contains) :
    process engine s ws =
      { state := ((Plan.ofWords Command.plan ws).follow engine s).1
        transcript := ((Plan.ofWords Command.plan ws).follow engine s).2
        continues := true } := by
  rw [process, Plan.ofWords]
  cases read : Command.ofWords ws with
  | error error => rfl
  | ok command =>
    have other : command ≠ .exit := by
      rintro rfl
      exact stays (Command.ofWords_eq_exit_iff.1 read)
    simp only [execute, Plan.follow, Plan.refusalReports]
    cases command.plan.refusal? with
    | none => simp [other]
    | some error => rfl

/-- A session follows its script. -/
theorem runLines_eq_play (lines : List String) :
    runLines engine s lines = play Command.plan engine s lines := by
  induction lines generalizing s with
  | nil => rfl
  | cons line rest ih =>
    -- An exit word ends both, a line without words changes neither, and any other line is the next
    -- plan of the script.
    by_cases ends : endsSession line
    · rw [runLines_of_endsSession ends, play, script_of_endsSession ends,
        taken_of_endsSession ends]
      simp [Plan.followAll, hasWords_of_endsSession ends, ends]
    · by_cases spoken : Text.hasWords line
      · rw [runLines_of_not_endsSession ends, takeLine_of_hasWords spoken, process_eq_follow ends,
          ih]
        simp [play, script_of_not_endsSession spoken ends, Plan.followAll, Outcome.followedBy,
          taken_of_not_endsSession ends, spoken, ends, Nat.add_comm]
      · rw [runLines_of_blank spoken, ih]
        simp [play, script_of_blank spoken, taken_of_not_endsSession ends, spoken, ends]

/-- What a session makes of the requests apart, it makes the reports and requests of its script. -/
theorem flow_play (lines : List String) :
    (play read engine s lines).transcript.flow = (script read lines).flatMap Plan.flow :=
  Plan.flow_followAll s (script read lines)

/-- Two sessions that differ at most in what the engines made of the requests: in the failures of
requests, in the files that they were made on and in the lines that were printed. -/
structure SameFlow (here : Outcome σ) (there : Outcome τ) : Prop where
  summary : here.summary = there.summary
  /-- The same reports in the same order, those of failed requests apart. -/
  reports : here.transcript.reports.filter (! ·.isRequestFailure) =
    there.transcript.reports.filter (! ·.isRequestFailure)
  /-- The same requests in the same order. -/
  requests : here.transcript.requests.map Prod.fst = there.transcript.requests.map Prod.fst

theorem sameFlow_play (read : Command → Plan) (one : Engine σ) (two : Engine τ) (s : σ) (t : τ)
    (lines : List String) : SameFlow (play read one s lines) (play read two t lines) where
  summary := rfl
  reports := by
    rw [Transcript.reports_eq_of_flow, Transcript.reports_eq_of_flow, flow_play, flow_play]
  requests := by
    rw [Transcript.requests_eq_of_flow, Transcript.requests_eq_of_flow, flow_play, flow_play]

end Session

end Engine

/-! ### Rehearsals -/

namespace Rehearsal

/-- What is written down of requests. -/
def entries (requests : List (Request × List String)) : List String :=
  requests.map fun made => made.1.describe made.2

private theorem entries_append (first second : List (Request × List String)) :
    entries (first ++ second) = entries first ++ entries second :=
  List.map_append

private theorem recorded_run (rehearsal : Rehearsal) (step : Step) :
    (step.run engine rehearsal).1.recorded =
      rehearsal.recorded ++ entries (step.run engine rehearsal).2.requests := by
  rw [Step.requests_run]
  exact List.reverse_cons

theorem recorded_runAll (rehearsal : Rehearsal) (steps : List Step) :
    (Step.runAll engine rehearsal steps).1.recorded =
      rehearsal.recorded ++ entries (Step.runAll engine rehearsal steps).2.requests := by
  induction steps generalizing rehearsal with
  | nil => exact (List.append_nil _).symm
  | cons step steps ih =>
    rw [Step.runAll, Transcript.requests_append, entries_append, ← List.append_assoc,
      ← recorded_run, ih]

private theorem recorded_follow (rehearsal : Rehearsal) (plan : Plan) :
    (plan.follow engine rehearsal).1.recorded =
      rehearsal.recorded ++ entries (plan.follow engine rehearsal).2.requests := by
  rw [Plan.follow, Plan.run, Transcript.requests_append, Transcript.requests_append,
    Transcript.requests_map_report, Transcript.requests_map_report, List.append_nil,
    List.nil_append, recorded_runAll]

theorem recorded_followAll (rehearsal : Rehearsal) (plans : List Plan) :
    (Plan.followAll engine rehearsal plans).1.recorded =
      rehearsal.recorded ++ entries (Plan.followAll engine rehearsal plans).2.requests := by
  induction plans generalizing rehearsal with
  | nil => exact (List.append_nil _).symm
  | cons plan plans ih =>
    rw [Plan.followAll, Transcript.requests_append, entries_append, ← List.append_assoc,
      ← recorded_follow, ih]

/-- A rehearsed session writes down each of its requests. -/
theorem recorded_runLines (rehearsal : Rehearsal) (lines : List String) :
    (Session.runLines engine rehearsal lines).state.recorded =
      rehearsal.recorded ++
        entries (Session.runLines engine rehearsal lines).transcript.requests := by
  rw [Session.runLines_eq_play]
  exact recorded_followAll rehearsal _

end Rehearsal

namespace Session

/-- Which way a session goes does not depend on its engine: with any two engines, in any states, it
is counted and stopped alike, and it makes the same requests and, failed requests apart, the same
reports in the same order. This is so in whatever way `read` the expressions in commands are read.
In particular a rehearsal writes down exactly one entry for each request that the session would make
of a store. -/
theorem control_flow_of_any_engine {σ τ : Type} (one : Engine σ) (two : Engine τ) (s : σ)
    (t : τ) (lines : List String) :
    SameFlow (runLines one s lines) (runLines two t lines) ∧
      (∀ read, SameFlow (play read one s lines) (play read two t lines)) ∧
      ∀ (rehearsal : Rehearsal) (store : Store), ∃ entries,
        (runLines Rehearsal.engine rehearsal lines).state.recorded =
            rehearsal.recorded ++ entries ∧
          List.Forall₂ (fun request entry => ∃ files, entry = request.describe files)
            ((runLines Store.engine store lines).transcript.requests.map Prod.fst) entries := by
  have alike {σ τ : Type} (one : Engine σ) (two : Engine τ) (s : σ) (t : τ) :
      SameFlow (runLines one s lines) (runLines two t lines) := by
    rw [runLines_eq_play, runLines_eq_play]
    exact sameFlow_play Command.plan one two s t lines
  refine ⟨alike one two s t, fun read => sameFlow_play read one two s t lines, ?_⟩
  intro rehearsal store
  refine ⟨_, Rehearsal.recorded_runLines rehearsal lines, ?_⟩
  rw [(alike Store.engine Rehearsal.engine store rehearsal).requests, Rehearsal.entries,
    List.forall₂_map_left_iff, List.forall₂_map_right_iff, List.forall₂_same]
  intro made _
  exact ⟨made.2, rfl⟩

end Session

end TableShell
