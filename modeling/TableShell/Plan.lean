import TableShell.Report

/-!
# Plans

A command is carried out by following its plan: reports to begin with, and then requests
one after the other. The plan depends on the command alone, neither on the engine nor on
how earlier requests went, so a request that fails neither skips nor repeats a later one.

## Main definitions

- `Step`, `Plan`: what a command comes down to
- `Command.plan`: the plan of a command
- `Step.run`, `Plan.run`: following a plan with an engine
-/

namespace TableShell

/-- One request, with the reports in front of it. -/
structure Step where
  /-- What the user is told before the request. -/
  reports : List Report
  request : Request
  /-- The text that says on which files. -/
  scope : String
deriving DecidableEq, Repr

/-- What a command comes down to. -/
structure Plan where
  /-- What the user is told before anything else. -/
  reports : List Report := []
  steps : List Step := []
  /-- Why the command is refused, if it is. -/
  refusal? : Option CommandError := none
deriving DecidableEq, Repr

namespace Plan

/-- The search for the values of one field. -/
def searchStep (scope field : String) : Step :=
  let target := Chunk.read field
  { reports := target.reports ++ [.searching target.value]
    request := .search target.value
    scope }

/-- An update; the old chunk is read before the new one. -/
def updateStep (scope oldText newText : String) : Step :=
  let old := Chunk.read oldText
  let new := Chunk.read newText
  { reports := old.reports ++ new.reports ++ [.updating old.value new.value]
    request := .update old.value new.value
    scope }

/-- The copy of one row. -/
def copyStep (scope keyColumn source target : String) : Step :=
  { reports := [.copying source target]
    request := .copy keyColumn source target
    scope }

/-- The copies of rows, source and target keys taken in pairs. It is refused if the keys do
not come out even. -/
def ofCopy (scope keyColumn sourceText targetText : String) : Plan :=
  let sources := Field.read sourceText
  let targets := Field.read targetText
  let reports := sources.reports ++ targets.reports
  if sources.value.length = targets.value.length then
    { reports, steps := List.zipWith (copyStep scope keyColumn) sources.value targets.value }
  else
    { reports
      refusal? := some (.keyCountMismatch sources.value.length targets.value.length) }

end Plan

/-- What a command comes down to. -/
def Command.plan : Command → Plan
  | blank => {}
  | exit => {}
  | clean => { reports := [.clear] }
  | help => { reports := [.help] }
  | get fields scope => { steps := fields.map (Plan.searchStep scope) }
  | update old new scope => { steps := [Plan.updateStep scope old new] }
  | copy keyColumn source target scope => Plan.ofCopy scope keyColumn source target

variable {σ : Type}

/-- Make the reports of a step and then its request. -/
def Step.run (engine : Engine σ) (s : σ) (step : Step) : σ × Transcript :=
  let files := engine.select s step.scope
  let reply := engine.perform s step.request files
  let failure := reply.failure?.map fun cause =>
    Entry.report (.failure (.operation step.request.activity cause))
  (reply.state,
    step.reports.map .report ++ [.request step.request files] ++ reply.lines.map .line
      ++ failure.toList)

/-- Run steps one after the other. -/
def Step.runAll (engine : Engine σ) (s : σ) : List Step → σ × Transcript
  | [] => (s, [])
  | step :: steps =>
    let now := step.run engine s
    let later := runAll engine now.1 steps
    (later.1, now.2 ++ later.2)

/-- Make the reports of a plan and then run its steps. -/
def Plan.run (engine : Engine σ) (s : σ) (plan : Plan) : σ × Transcript :=
  let done := Step.runAll engine s plan.steps
  (done.1, plan.reports.map .report ++ done.2)

end TableShell
