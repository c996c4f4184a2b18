import TableShell.Proofs.Command.Places
import TableShell.Proofs.Session.Steps

/-!
# Reachable stores

A store is used by processing lines, by direct requests and look-ups, by putting tables into it,
and by choosing its key column. Whatever is done to the store of an accepted workbook, in whatever
order, its tables stay rectangular, and nothing that is done to it looks up a cell, a row, a value,
a word or a key column that is not there.

## Main definitions

- `Store.Action`, `Store.after`, `Store.afterAll`: what can be done to a store
- `Store.Reachable`: the stores that come of an accepted workbook
- `Store.visits`, `Store.faults`: the requests of a command and the faults of an action
-/

namespace TableShell.Store

/-- Something that is done to a store. -/
inductive Action where
  | process (ws : List String)
  /-- Make a request on any files. -/
  | request (request : Request) (files : List String)
  | findRows (file : String) (target : Chunk)
  /-- Put a table into the store; one that is not rectangular is refused. -/
  | insertTable (name : String) (t : Table)
  /-- Choose the key column, and whether notes are kept back. -/
  | configure (keyColumn? : Option String) (quiet : Bool)

/-- The store after an action. -/
def after (store : Store) : Action → Store
  | .process ws => (Session.process engine store ws).state
  | .request request files => (store.perform request files).store
  | .findRows _ _ => store
  | .insertTable name t =>
    match store.insertTable name t with
    | .ok next => next
    | .error _ => store
  | .configure keyColumn? quiet => { store with keyColumn?, quiet }

/-- The store after one action after the other. -/
def afterAll (store : Store) (actions : List Action) : Store :=
  actions.foldl after store

/-- The stores that come of an accepted workbook by any actions. -/
def Reachable (store : Store) : Prop :=
  ∃ book start actions, ofWorkbook book = .ok start ∧ start.afterAll actions = store

/-- A workbook of two files, the second of which has a key twice. -/
def ledger : Workbook where
  entries :=
    [("a", { columns := ["id", "name"], rows := [["1", "x"], ["2", "y"]] }),
      ("b", { columns := ["id"], rows := [["2"], ["2"]] })]
  sorted := by decide

theorem ofWorkbook_ledger : ofWorkbook ledger = .ok { book := ledger } := by
  decide

theorem reachable_ledger : Reachable { book := ledger } :=
  ⟨ledger, _, [], ofWorkbook_ledger, rfl⟩

/-- A request that is made while a command is followed. -/
structure Visit where
  store : Store
  request : Request
  files : List String

/-- What comes of the request. -/
def Visit.outcome (visit : Visit) : Outcome :=
  visit.store.perform visit.request visit.files

/-- The requests of steps that are taken one after the other. -/
def visits (store : Store) : List Step → List Visit
  | [] => []
  | step :: steps =>
    let visit : Visit := ⟨store, step.request, store.select step.scope⟩
    visit :: visits visit.outcome.store steps

/-- The requests that are made while a line is processed. -/
def visitsOfLine (store : Store) (ws : List String) : List Visit :=
  match Command.ofWords ws with
  | .error _ => []
  | .ok command => store.visits command.plan.steps

/-- The faults that are met in an action. -/
def faults (store : Store) : Action → List Fault
  | .process ws => (store.visitsOfLine ws).flatMap fun visit => visit.outcome.faults
  | .request request files => (store.perform request files).faults
  | .findRows file target =>
    match store.findRows file target with
    | .ok _ => []
    | .error fault => [fault]
  | .insertTable _ _ => []
  | .configure _ _ => []

variable {store : Store}

/-! ### The requests of a line -/

private theorem requests_runAll (store : Store) (steps : List Step) :
    (Step.runAll engine store steps).2.requests =
      (store.visits steps).map fun visit => (visit.request, visit.files) := by
  induction steps generalizing store with
  | nil => rfl
  | cons step steps ih =>
    rw [Step.runAll, Transcript.requests_append, Step.requests_run, ih]
    rfl

/-- The requests of a line are those in its transcript. -/
theorem requests_process (store : Store) (ws : List String) :
    (Session.process engine store ws).transcript.requests =
      (store.visitsOfLine ws).map fun visit => (visit.request, visit.files) := by
  rw [Session.process, visitsOfLine]
  cases Command.ofWords ws with
  | error _ => rfl
  | ok command =>
    have made : ((command.plan.run engine store).2).requests =
        (store.visits command.plan.steps).map fun visit => (visit.request, visit.files) := by
      rw [Plan.run, Transcript.requests_append, Transcript.requests_map_report, requests_runAll]
      rfl
    simp only [Session.execute]
    cases command.plan.refusal? with
    | none => exact made
    | some error =>
      simp only [Transcript.requests_append, made]
      exact List.append_nil _

private theorem rectangular_of_mem_visits (shape : store.book.Rectangular) {steps : List Step}
    {visit : Visit} (member : visit ∈ store.visits steps) : visit.store.book.Rectangular := by
  induction steps generalizing store with
  | nil => cases member
  | cons step steps ih =>
    rcases List.mem_cons.1 member with rfl | later
    · exact shape
    · exact ih (rectangular_perform shape step.request _) later

theorem rectangular_of_mem_visitsOfLine (shape : store.book.Rectangular) {ws : List String}
    {visit : Visit} (member : visit ∈ store.visitsOfLine ws) : visit.store.book.Rectangular := by
  rw [visitsOfLine] at member
  split at member
  · cases member
  · exact rectangular_of_mem_visits shape member

/-! ### What every action keeps -/

theorem rectangular_ofWorkbook {book : Workbook} (accepted : ofWorkbook book = .ok store) :
    store.book.Rectangular := by
  rw [ofWorkbook] at accepted
  split at accepted
  next => cases accepted
  next sound =>
    cases accepted
    exact Workbook.shapeFault?_eq_none_iff.1 sound

theorem rectangular_after (shape : store.book.Rectangular) (action : Action) :
    (store.after action).book.Rectangular := by
  cases action with
  | process ws =>
    refine Session.process_induction (p := fun s : Store => s.book.Rectangular) ?_ shape ws
    intro s request scope sound
    exact rectangular_perform sound request _
  | request request files => exact rectangular_perform shape request files
  | findRows file target => exact shape
  | insertTable name t =>
    rw [after, insertTable]
    cases fault : t.shapeFault? with
    | some _ => exact shape
    | none => exact shape.insert (Table.shapeFault?_eq_none_iff.1 fault)
  | configure keyColumn? quiet => exact shape

theorem rectangular_afterAll (shape : store.book.Rectangular) (actions : List Action) :
    (store.afterAll actions).book.Rectangular := by
  induction actions generalizing store with
  | nil => exact shape
  | cons action actions ih => exact ih (rectangular_after shape action)

theorem Reachable.rectangular (reached : store.Reachable) : store.book.Rectangular := by
  obtain ⟨book, start, actions, accepted, rfl⟩ := reached
  exact rectangular_afterAll (rectangular_ofWorkbook accepted) actions

theorem isDefect_of_mem_faults_action (shape : store.book.Rectangular) {action : Action}
    {fault : Fault} (met : fault ∈ store.faults action) : fault.isDefect = false := by
  cases action with
  | process ws =>
    obtain ⟨visit, member, there⟩ := List.mem_flatMap.1 met
    exact isDefect_of_mem_faults (rectangular_of_mem_visitsOfLine shape member) there
  | request request files => exact isDefect_of_mem_faults shape met
  | findRows file target =>
    rw [faults] at met
    split at met
    next => cases met
    next failed =>
      obtain rfl := List.mem_singleton.1 met
      exact isDefect_of_findRows shape failed
  | insertTable name t => cases met
  | configure keyColumn? quiet => cases met

/-- Nothing that can be done to the store goes wrong for lack of a cell, a row, a value or a key
column. -/
structure Safe (store : Store) : Prop where
  /-- Each table has a column, and each of its rows has a cell for each column. -/
  rectangular : ∀ ⦃name t⦄, store.book.get? name = some t → t.Rectangular
  /-- The requests of a line, as they are looked at here, are those in its transcript. -/
  visits : ∀ ws, (Session.process engine store ws).transcript.requests =
    (store.visitsOfLine ws).map fun visit => (visit.request, visit.files)
  /-- The tables are rectangular before each request of a line as well. -/
  within : ∀ ws, ∀ visit ∈ store.visitsOfLine ws, visit.store.book.Rectangular
  /-- No action meets a defect. -/
  faults : ∀ action, ∀ fault ∈ store.faults action, fault.isDefect = false

/-- Whatever is done to the store of an accepted workbook, the store stays safe, and no line is
read by looking up a word that is not there. -/
theorem safe_afterAll {book : Workbook} {start : Store} (accepted : ofWorkbook book = .ok start)
    (actions : List Action) :
    (start.afterAll actions).Safe ∧
      ∀ ws, Command.ofWordsByPlace? ws = some (Command.ofWords ws) := by
  have shape := rectangular_afterAll (rectangular_ofWorkbook accepted) actions
  refine ⟨⟨shape, requests_process _, ?_, ?_⟩, Command.ofWordsByPlace?_eq_some⟩
  · intro ws visit member
    exact rectangular_of_mem_visitsOfLine shape member
  · intro action fault met
    exact isDefect_of_mem_faults_action shape met

theorem safe_afterAll_ledger :
    let actions : List Action :=
      [.insertTable "c" { columns := ["id", "id"], rows := [["1"]] },
        .request (.update ⟨none, ["1", "2"]⟩ ⟨some "name", ["z"]⟩) ["a", "c", "a"],
        .process ["copy", "id", "1-3", "to", "0-2", "in", "a", "b"]]
    let store := ({ book := ledger } : Store).afterAll actions
    ofWorkbook ledger = .ok { book := ledger } ∧
      store.book.get? "a" = some
        { columns := ["id", "name"], rows := [["1", "z"], ["2", "z"], ["0", "z"]] } ∧
      store.Safe ∧ ∀ ws, Command.ofWordsByPlace? ws = some (Command.ofWords ws) := by
  intro actions store
  refine ⟨ofWorkbook_ledger, ?_, safe_afterAll ofWorkbook_ledger actions⟩
  decide +kernel

end TableShell.Store
