import Mathlib.Data.List.Forall2
import TableShell.Session

/-!
# Coupled runs

Two runs go alike if they do so step by step: related steps lead from related states to related
states, and what happens on the way is related as well. This is said about single steps
(`Coupling`) and holds of all steps of a command (`Coupling.runAll`), of the plan and the execution
of a command (`Coupling.Plans.run`, `Coupling.Plans.execute`) and of a line (`Coupling.process`).

## Main definitions

- `Coupling`: relations of states, of steps and of transcripts that each step keeps
- `Coupling.ofEq`: runs on which the same happens
- `Coupling.Plans`: plans with related steps
-/

namespace TableShell

variable {σ τ : Type}

/-- Relations of the states, the steps and the transcripts of two runs with engines of their own.
In related states, related steps lead to related states with related transcripts. -/
structure Coupling (one : Engine σ) (two : Engine τ) where
  states : σ → τ → Prop
  steps : Step → Step → Prop
  transcripts : Transcript → Transcript → Prop
  nil : transcripts [] []
  append : ∀ {first first' second second'}, transcripts first first' →
    transcripts second second' → transcripts (first ++ second) (first' ++ second')
  run : ∀ {step step' s t}, steps step step' → states s t →
    states (step.run one s).1 (step'.run two t).1 ∧
      transcripts (step.run one s).2 (step'.run two t).2

namespace Coupling

variable {one : Engine σ} {two : Engine τ} {s : σ} {t : τ}

/-- Runs on which the same happens. -/
def ofEq (states : σ → τ → Prop) (steps : Step → Step → Prop)
    (run : ∀ {step step' s t}, steps step step' → states s t →
      states (step.run one s).1 (step'.run two t).1 ∧
        (step.run one s).2 = (step'.run two t).2) : Coupling one two where
  states := states
  steps := steps
  transcripts := Eq
  nil := rfl
  append := congrArg₂ (· ++ ·)
  run := run

/-- What each step keeps is kept by all of them. -/
theorem runAll (coupling : Coupling one two) {steps steps' : List Step}
    (related : List.Forall₂ coupling.steps steps steps') (start : coupling.states s t) :
    coupling.states (Step.runAll one s steps).1 (Step.runAll two t steps').1 ∧
      coupling.transcripts (Step.runAll one s steps).2 (Step.runAll two t steps').2 := by
  induction related generalizing s t with
  | nil => exact ⟨start, coupling.nil⟩
  | cons first _ ih =>
    obtain ⟨after, now⟩ := coupling.run first start
    obtain ⟨atEnd, later⟩ := ih after
    exact ⟨atEnd, coupling.append now later⟩

/-- Two plans with related steps, which are refused alike. -/
structure Plans (coupling : Coupling one two) (plan plan' : Plan) : Prop where
  reports : coupling.transcripts (plan.reports.map .report) (plan'.reports.map .report)
  steps : List.Forall₂ coupling.steps plan.steps plan'.steps
  refusal? : plan.refusal? = plan'.refusal?

variable {coupling : Coupling one two} {command command' : Command}

theorem Plans.run {plan plan' : Plan} (plans : coupling.Plans plan plan')
    (start : coupling.states s t) :
    coupling.states (plan.run one s).1 (plan'.run two t).1 ∧
      coupling.transcripts (plan.run one s).2 (plan'.run two t).2 := by
  obtain ⟨atEnd, told⟩ := coupling.runAll plans.steps start
  exact ⟨atEnd, coupling.append plans.reports told⟩

theorem Plans.execute (plans : coupling.Plans command.plan command'.plan)
    (going : (command != .exit) = (command' != .exit)) (start : coupling.states s t) :
    let done := Session.execute one s command
    let done' := Session.execute two t command'
    coupling.states done.state done'.state ∧
      coupling.transcripts done.transcript done'.transcript ∧ done.result = done'.result := by
  intro done done'
  obtain ⟨atEnd, told⟩ := plans.run start
  refine ⟨atEnd, told, ?_⟩
  simp only [done, done', Session.execute, plans.refusal?, going]

/-- One line in two sessions, if all reports are related to themselves and so are the steps of its
command. -/
theorem process (tells : ∀ r, coupling.transcripts [.report r] [.report r]) (ws : List String)
    (each : ∀ command, Command.ofWords ws = .ok command →
      ∀ step ∈ command.plan.steps, coupling.steps step step)
    (start : coupling.states s t) :
    let turn := Session.process one s ws
    let turn' := Session.process two t ws
    coupling.states turn.state turn'.state ∧
      coupling.transcripts turn.transcript turn'.transcript ∧
        turn.continues = turn'.continues := by
  have reports (rs : List Report) :
      coupling.transcripts (rs.map .report) (rs.map .report) := by
    induction rs with
    | nil => exact coupling.nil
    | cons r rs ih => exact coupling.append (tells r) ih
  intro turn turn'
  simp only [turn, turn', Session.process]
  cases read : Command.ofWords ws with
  | error error => exact ⟨start, tells _, rfl⟩
  | ok command =>
    have plans : coupling.Plans command.plan command.plan :=
      ⟨reports _, List.forall₂_same.2 (each command read), rfl⟩
    obtain ⟨atEnd, told, same⟩ := plans.execute rfl start
    simp only [same]
    cases (Session.execute two t command).result with
    | error error => exact ⟨atEnd, coupling.append told (tells _), rfl⟩
    | ok continues => exact ⟨atEnd, told, rfl⟩

end Coupling

end TableShell
