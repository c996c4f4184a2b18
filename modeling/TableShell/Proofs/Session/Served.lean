import TableShell.Proofs.Session.Steps

/-!
# Every item of a command is served

What a command asks for is served item by item, whatever the engine makes of the items before: each
request is made once and in its turn, and if it fails, this is reported right after it and has no
other effect (`every_item_is_served`). Only a copy whose keys do not come out even is refused, and
then as a whole, before any request.

## Main definitions

- `Served`: what happens while items are served
- `Report.isRefusal`, `Session.refusal?`: that a line is refused as a whole
-/

namespace TableShell

variable {σ : Type}

/-- What happens while an engine serves steps one after the other. The files of a request are those
that the engine chooses by then, and its failure is reported just if it fails. -/
inductive Served (engine : Engine σ) : σ → List Step → Transcript → σ → Prop
  | nothing (s : σ) : Served engine s [] [] s
  | success {s now later : σ} {steps : List Step} {rest : Transcript} (step : Step)
      (files : List String) (lines : List String)
      (chosen : engine.select s step.scope = files)
      (reply : engine.perform s step.request files = { state := now, lines })
      (onward : Served engine now steps rest later) :
      Served engine s (step :: steps)
        (step.reports.map .report ++ .request step.request files :: lines.map .line ++ rest) later
  | failure {s now later : σ} {steps : List Step} {rest : Transcript} (step : Step)
      (files : List String) (lines : List String) (cause : String)
      (chosen : engine.select s step.scope = files)
      (reply : engine.perform s step.request files =
        { state := now, lines, failure? := some cause })
      (onward : Served engine now steps rest later) :
      Served engine s (step :: steps)
        (step.reports.map .report ++ .request step.request files :: lines.map .line ++
          .report (.failure (.operation step.request.activity cause)) :: rest) later

/-- A value is reported about just if there is a warning that goes with it. -/
theorem Warned.reports_eq {α : Type} (read : Warned α) :
    read.reports = read.warning?.toList.map .warning := by
  rw [reports]
  cases read.warning? with
  | none => rfl
  | some w => rfl

/-- Whether a report says that a line is refused as a whole. -/
def Report.isRefusal : Report → Bool
  | failure error => error.aborts
  | _ => false

section Engine

variable {engine : Engine σ} {s later : σ} {steps : List Step} {transcript : Transcript}

/-- Running a step serves it. -/
theorem Step.served_run (step : Step)
    (onward : Served engine (step.run engine s).1 steps transcript later) :
    Served engine s (step :: steps) ((step.run engine s).2 ++ transcript) later := by
  cases reply : engine.perform s step.request (engine.select s step.scope) with
  | mk now lines failure? =>
    simp only [run, reply] at onward ⊢
    cases failure? with
    | none => simpa using Served.success step _ lines rfl reply onward
    | some cause => simpa using Served.failure step _ lines cause rfl reply onward

theorem Step.served_runAll (s : σ) (steps : List Step) :
    Served engine s steps (Step.runAll engine s steps).2 (Step.runAll engine s steps).1 := by
  induction steps generalizing s with
  | nil => exact .nothing s
  | cons step steps ih => exact step.served_run (ih _)

namespace Served

/-- Each request is made once and in its turn. -/
theorem requests (served : Served engine s steps transcript later) :
    transcript.requests.map Prod.fst = steps.map Step.request := by
  induction served with
  | nothing s => rfl
  | success step files lines chosen reply onward ih => simp [ih]
  | failure step files lines cause chosen reply onward ih => simp [ih]

/-- That a request fails is no refusal. -/
theorem not_isRefusal (served : Served engine s steps transcript later)
    (plain : ∀ step ∈ steps, ∀ r ∈ step.reports, r.isRefusal = false) :
    ∀ r ∈ transcript.reports, r.isRefusal = false := by
  induction served with
  | nothing s => exact List.forall_mem_nil _
  | success step files lines chosen reply onward ih =>
    obtain ⟨here, there⟩ := List.forall_mem_cons.1 plain
    simpa using List.forall_mem_append.2 ⟨here, ih there⟩
  | failure step files lines cause chosen reply onward ih =>
    obtain ⟨here, there⟩ := List.forall_mem_cons.1 plain
    have operation : Report.isRefusal (.failure (.operation step.request.activity cause)) = false :=
      rfl
    simpa using List.forall_mem_append.2 ⟨here, List.forall_mem_cons.2 ⟨operation, ih there⟩⟩

end Served

end Engine

/-! ### Refusals -/

/-- Words that are no command are given up. -/
theorem Command.aborts_of_ofWords {ws : List String} {error : CommandError}
    (refused : ofWords ws = .error error) : error.aborts := by
  cases error with
  | operation activity cause =>
    -- No branch of the reader speaks of an operation.
    simp only [ofWords, updateOfWords, copyOfWords] at refused
    grind
  | _ => rfl

namespace Session

/-- Why the words of a line are refused as a whole, if they are: they are no command, or the keys of
a copy do not come out even. -/
def refusal? (ws : List String) : Option CommandError :=
  match Command.ofWords ws with
  | .error error => some error
  | .ok (.copy _ source target _) =>
    let sources := (Field.read source).value.length
    let targets := (Field.read target).value.length
    if sources = targets then none else some (.keyCountMismatch sources targets)
  | .ok _ => none

variable {engine : Engine σ} {s : σ}

theorem not_isRefusal_execute (engine : Engine σ) (s : σ) (command : Command) :
    ∀ r ∈ (execute engine s command).transcript.reports, r.isRefusal = false := by
  obtain ⟨first, steps⟩ := command.forall_reports_plan (p := (·.isRefusal = false))
    (fun _ => rfl) (fun _ => rfl) (fun _ _ => rfl) (fun _ _ => rfl) (fun _ => rfl) (fun _ => rfl)
  rw [execute, Plan.run]
  simp only [Transcript.reports_append, Transcript.reports_map_report]
  exact List.forall_mem_append.2 ⟨first, (Step.served_runAll s _).not_isRefusal steps⟩

/-- What a line comes down to: its command is executed, if it is one, and what is refused is
reported. -/
theorem process_eq (ws : List String) :
    process engine s ws =
      match Command.ofWords ws with
      | .error error =>
        { state := s, transcript := [.report (.failure error)], continues := true }
      | .ok command =>
        { state := (execute engine s command).state
          transcript := (execute engine s command).transcript ++
            (refusal? ws).toList.map fun error => .report (.failure error)
          continues := command != .exit } := by
  rw [process, refusal?]
  cases Command.ofWords ws with
  | error error => rfl
  | ok command =>
    cases command with
    | copy keyColumn source target scope =>
      simp only [execute, Command.plan, Plan.ofCopy]
      by_cases even : (Field.read source).value.length = (Field.read target).value.length
      · simp [even]
      · simp [even]
    | _ => simp [execute, Command.plan]

/-- Of all reports that are made for a line, only the refusal of the line itself is a refusal. -/
theorem refusals_process (ws : List String) :
    (process engine s ws).transcript.reports.filter Report.isRefusal =
      (refusal? ws).toList.map .failure := by
  have reported (error : CommandError) :
      Transcript.reports [.report (.failure error)] = [.failure error] := rfl
  rw [process_eq, refusal?]
  cases read : Command.ofWords ws with
  | error error =>
    have aborts : Report.isRefusal (.failure error) := Command.aborts_of_ofWords read
    simp [reported, aborts]
  | ok command =>
    have plain := List.filter_eq_nil_iff.2 fun r member =>
      Bool.eq_false_iff.1 (not_isRefusal_execute engine s command r member)
    cases command with
    | copy keyColumn source target scope =>
      simp only [Transcript.reports_append, List.filter_append, plain]
      split
      next => rfl
      next => rfl
    | _ => simpa [refusal?, read] using plain

/-- A command serves its items one after the other, in any state of any engine. A search has an item
for each field, with the warning of the field and the search in front of the request; an update is
one item, announced after the warnings of both chunks. A copy first warns of both fields. If the
keys come out even, it has an item for each pair of keys, and otherwise it is refused without any
request. Whatever requests fail, the session goes on, and a line is refused in one more report just
if it is no command or its keys do not come out even. -/
theorem every_item_is_served (engine : Engine σ) (s : σ) :
    (∀ fields scope,
      let done := execute engine s (.get fields scope)
      done.result = .ok true ∧
        done.transcript.requests.map Prod.fst =
          fields.map (fun field => .search (Chunk.read field).value) ∧
        Served engine s
          (fields.map fun field =>
            { reports := (Chunk.read field).warning?.toList.map .warning ++
                [.searching (Chunk.read field).value]
              request := .search (Chunk.read field).value
              scope })
          done.transcript done.state) ∧
      (∀ old new scope,
        let done := execute engine s (.update old new scope)
        done.result = .ok true ∧
          Served engine s
            [{ reports := (Chunk.read old).warning?.toList.map .warning ++
                (Chunk.read new).warning?.toList.map .warning ++
                [.updating (Chunk.read old).value (Chunk.read new).value]
               request := .update (Chunk.read old).value (Chunk.read new).value
               scope }]
            done.transcript done.state) ∧
      (∀ keyColumn source target scope,
        let sources := Field.read source
        let targets := Field.read target
        let warnings : Transcript :=
          (sources.warning?.toList ++ targets.warning?.toList).map fun w => .report (.warning w)
        let done := execute engine s (.copy keyColumn source target scope)
        if sources.value.length = targets.value.length then
          done.result = .ok true ∧
            done.transcript.requests.map Prod.fst =
              (sources.value.zip targets.value).map (fun keys => .copy keyColumn keys.1 keys.2) ∧
            ∃ served, done.transcript = warnings ++ served ∧
              Served engine s
                ((sources.value.zip targets.value).map fun keys =>
                  { reports := [.copying keys.1 keys.2]
                    request := .copy keyColumn keys.1 keys.2
                    scope })
                served done.state
        else
          done =
            { state := s
              transcript := warnings
              result :=
                .error (.keyCountMismatch sources.value.length targets.value.length) }) ∧
      ∀ ws,
        let turn := process engine s ws
        turn.transcript.reports.filter Report.isRefusal = (refusal? ws).toList.map .failure ∧
          match Command.ofWords ws with
          | .error error =>
            turn = { state := s, transcript := [.report (.failure error)], continues := true }
          | .ok command =>
            let done := execute engine s command
            turn =
              { state := done.state
                transcript := done.transcript ++
                  (refusal? ws).toList.map fun error => .report (.failure error)
                continues := command != .exit } := by
  refine ⟨?_, ?_, ?_, ?_⟩
  · intro fields scope done
    have served : Served engine s _ _ _ :=
      Step.served_runAll s (fields.map (Plan.searchStep scope))
    simp only [← Warned.reports_eq]
    exact ⟨rfl, served.requests.trans List.map_map, served⟩
  · intro old new scope done
    simp only [← Warned.reports_eq]
    exact ⟨rfl, Step.served_runAll s [Plan.updateStep scope old new]⟩
  · intro keyColumn source target scope sources targets warnings done
    have warned : warnings = (sources.reports ++ targets.reports).map .report := by
      simp only [warnings, Warned.reports_eq, List.map_append, List.map_map, Function.comp_def]
    rw [warned]
    split
    next even =>
      have served : Served engine s _ _ _ :=
        Step.served_runAll s (Plan.copySteps scope keyColumn (sources.value.zip targets.value))
      simp only [done, execute, Command.plan, Plan.ofCopy_of_even even, Plan.run,
        Transcript.requests_append, Transcript.requests_map_report, List.nil_append]
      exact ⟨rfl, served.requests.trans List.map_map, _, rfl, served⟩
    next uneven =>
      simp only [done, execute, Command.plan, Plan.ofCopy_of_uneven uneven, Plan.run, Step.runAll,
        List.append_nil, sources, targets]
  · intro ws turn
    refine ⟨refusals_process ws, ?_⟩
    cases read : Command.ofWords ws with
    | error error => simp only [turn, process_eq, read]
    | ok command => simp only [turn, process_eq, read]

end Session

end TableShell
