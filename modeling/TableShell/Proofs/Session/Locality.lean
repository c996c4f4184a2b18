import TableShell.Proofs.Session.Coupling
import TableShell.Proofs.Session.Frame

/-!
# Lines with disjoint scopes commute

What a line does and reports depends on the tables of its scope alone (`AgreeOn.process`), and it
leaves all other tables as they are (`agreeOn_process`). So of two lines whose scopes have no file
in common it does not matter which comes first (`process_comm_of_disjoint`).

## Main definitions

- `Command.scope?`, `Store.filesOf`: the scope of a command and the files of a line
- `Store.agreement`: a line in two stores that agree on its files
-/

namespace TableShell

namespace Command

/-- The text that says on which files a command works, if it works on any. -/
def scope? : Command → Option String
  | get _ scope => some scope
  | update _ _ scope => some scope
  | copy _ _ _ scope => some scope
  | _ => none

/-- All requests of a command are made on its scope. -/
theorem scope?_eq_some_of_mem {command : Command} {step : Step}
    (member : step ∈ command.plan.steps) : command.scope? = some step.scope := by
  cases command with
  | blank | exit | clean | help => cases member
  | get fields scope =>
    obtain ⟨field, -, rfl⟩ := List.mem_map.1 member
    rfl
  | update old new scope =>
    obtain rfl := List.mem_singleton.1 member
    rfl
  | copy keyColumn source target scope =>
    obtain ⟨source, target, -, rfl⟩ := Plan.exists_copyStep_of_mem member
    rfl

end Command

namespace Store

variable {store s t : Store} {files others ws : List String}

/-- The files that a line works on. A line that is no command, or whose command has no scope, works
on none. -/
def filesOf (store : Store) (ws : List String) : List String :=
  match Command.ofWords ws with
  | .error _ => []
  | .ok command => (command.scope?.map store.select).getD []

theorem select_eq_filesOf {command : Command} {step : Step}
    (read : Command.ofWords ws = .ok command) (member : step ∈ command.plan.steps) :
    store.select step.scope = store.filesOf ws := by
  rw [filesOf, read]
  simp only [Command.scope?_eq_some_of_mem member, Option.map_some, Option.getD_some]

theorem AgreeOn.filesOf_eq (agree : AgreeOn files s t) (ws : List String) :
    s.filesOf ws = t.filesOf ws := by
  have select_eq : s.select = t.select := funext agree.select_eq
  rw [filesOf, filesOf, select_eq]

/-! ### Stores that agree on the files of a line -/

theorem AgreeOn.run {step : Step} (agree : AgreeOn files s t) (sound : s.book.Rectangular)
    (sound' : t.book.Rectangular) (within : s.select step.scope ⊆ files) :
    AgreeOn files (step.run engine s).1 (step.run engine t).1 ∧
      (step.run engine s).2 = (step.run engine t).2 := by
  obtain ⟨after, notes, failure⟩ := agree.perform sound sound' step.request within
  have lines : (s.perform step.request (s.select step.scope)).lines =
      (t.perform step.request (s.select step.scope)).lines := by
    rw [Outcome.lines, Outcome.lines, after.quiet, notes]
  have selected : s.select step.scope = t.select step.scope := agree.select_eq step.scope
  refine ⟨?_, ?_⟩
  · simpa only [Step.run, engine, Outcome.reply, ← selected] using after
  · simp only [Step.run, engine, Outcome.reply, ← selected, lines, failure]

/-- A step keeps the names of the files, so the files of a line are the same before and after. -/
theorem filesOf_run (sound : store.book.Rectangular) (step : Step) (ws : List String) :
    (step.run engine store).1.filesOf ws = store.filesOf ws := by
  have select_eq : (step.run engine store).1.select = store.select :=
    funext (select_perform sound step.request _)
  rw [filesOf, filesOf, select_eq]

/-- The steps of a line are coupled in stores that agree on its files. -/
def agreement (files ws : List String) : Coupling engine engine :=
  .ofEq
    (fun s t => AgreeOn files s t ∧ s.book.Rectangular ∧ t.book.Rectangular ∧ s.filesOf ws ⊆ files)
    (fun step step' =>
      step = step' ∧ ∃ command, Command.ofWords ws = .ok command ∧ step ∈ command.plan.steps) <| by
    rintro step _ s t ⟨rfl, command, read, member⟩ ⟨agree, sound, sound', within⟩
    have here : s.select step.scope ⊆ files := select_eq_filesOf read member ▸ within
    obtain ⟨after, now⟩ := agree.run sound sound' here
    have within' : (step.run engine s).1.filesOf ws ⊆ files := filesOf_run sound step ws ▸ within
    exact ⟨⟨after, rectangular_perform sound step.request _,
      rectangular_perform sound' step.request _, within'⟩, now⟩

/-- A line does and reports the same in two stores that agree on its files. -/
theorem AgreeOn.process (agree : AgreeOn files s t) (sound : s.book.Rectangular)
    (sound' : t.book.Rectangular) (within : s.filesOf ws ⊆ files) :
    AgreeOn files (Session.process engine s ws).state (Session.process engine t ws).state ∧
      (Session.process engine s ws).transcript = (Session.process engine t ws).transcript := by
  obtain ⟨⟨after, -⟩, same, -⟩ := (agreement files ws).process (fun _ => rfl) ws
    (fun command read step member => ⟨rfl, command, read, member⟩) ⟨agree, sound, sound', within⟩
  exact ⟨after, same⟩

/-- A line leaves the tables outside its scope as they are. -/
theorem agreeOn_process (shape : store.book.Rectangular)
    (outside : ∀ name ∈ others, name ∉ store.filesOf ws) :
    AgreeOn others (Session.process engine store ws).state store := by
  rw [Session.state_process]
  cases read : Command.ofWords ws with
  | error error => exact .refl others store
  | ok command =>
    apply agreeOn_runAll shape
    intro step member name listed
    rw [select_eq_filesOf read member]
    exact outside name listed

/-- Two lines that have no file in common can change places: the tables are the same in the end, and
with each line the same happens in either order, that is, it makes the same reports and the same
requests, and the same is printed. -/
theorem process_comm_of_disjoint (reached : store.Reachable) {one two : List String}
    (apart : (store.filesOf one).Disjoint (store.filesOf two)) :
    let oneFirst := Session.process engine store one
    let twoSecond := Session.process engine oneFirst.state two
    let twoFirst := Session.process engine store two
    let oneSecond := Session.process engine twoFirst.state one
    twoSecond.state = oneSecond.state ∧ oneSecond.transcript = oneFirst.transcript ∧
      twoSecond.transcript = twoFirst.transcript := by
  intro oneFirst twoSecond twoFirst oneSecond
  have shape := reached.rectangular
  have shape_one : oneFirst.state.book.Rectangular := rectangular_after shape (.process one)
  have shape_two : twoFirst.state.book.Rectangular := rectangular_after shape (.process two)
  -- Neither line touches a file of the other one, so each finds its files as they were.
  have before_two : AgreeOn (store.filesOf two) oneFirst.state store :=
    agreeOn_process shape fun name listed there => apart there listed
  have before_one : AgreeOn (store.filesOf one) twoFirst.state store :=
    agreeOn_process shape fun name listed there => apart listed there
  have files_two : oneFirst.state.filesOf two = store.filesOf two := before_two.filesOf_eq two
  have files_one : twoFirst.state.filesOf one = store.filesOf one := before_one.filesOf_eq one
  have within_two : oneFirst.state.filesOf two ⊆ store.filesOf two := by simp [files_two]
  have within_one : twoFirst.state.filesOf one ⊆ store.filesOf one := by simp [files_one]
  obtain ⟨after_two, same_two⟩ := before_two.process shape_one shape within_two
  obtain ⟨after_one, same_one⟩ := before_one.process shape_two shape within_one
  refine ⟨eq_of_agreeOn fun name => ?_, same_one, same_two⟩
  have second_two (outside : name ∉ store.filesOf two) :
      AgreeOn [name] twoSecond.state oneFirst.state :=
    agreeOn_process shape_one (by simpa [files_two] using outside)
  have second_one (outside : name ∉ store.filesOf one) :
      AgreeOn [name] oneSecond.state twoFirst.state :=
    agreeOn_process shape_two (by simpa [files_one] using outside)
  by_cases in_one : name ∈ store.filesOf one
  · have outside : name ∉ store.filesOf two := fun in_two => apart in_one in_two
    exact (second_two outside).trans (after_one.mono (by simpa using in_one)).symm
  · by_cases in_two : name ∈ store.filesOf two
    · exact (after_two.mono (by simpa using in_two)).trans (second_one in_one).symm
    · -- A file of neither line is as it was from the start.
      have first_one : AgreeOn [name] oneFirst.state store :=
        agreeOn_process shape (by simpa using in_one)
      have first_two : AgreeOn [name] twoFirst.state store :=
        agreeOn_process shape (by simpa using in_two)
      exact ((second_two in_two).trans first_one).trans
        ((second_one in_one).trans first_two).symm

theorem process_comm_of_disjoint_ledger :
    let start : Store := { book := ledger }
    let one := ["copy", "id", "1-2", "to", "5-6", "in", "b"]
    let two := ["update", "1", "to", "9", "except", "b"]
    let oneFirst := Session.process engine start one
    let twoFirst := Session.process engine start two
    let twoSecond := Session.process engine oneFirst.state two
    let oneSecond := Session.process engine twoFirst.state one
    start.Reachable ∧ start.filesOf one = ["b"] ∧ start.filesOf two = ["a"] ∧
      twoSecond.state = oneSecond.state ∧ oneSecond.transcript = oneFirst.transcript ∧
      twoSecond.transcript = twoFirst.transcript ∧
      oneSecond.transcript.reports = [.copying "1" "5",
        .failure (.operation "行のコピー" (Fault.noSourceRows "1").message), .copying "2" "6"] ∧
      oneSecond.state.book.get? "a" =
        some { columns := ["id", "name"], rows := [["9", "x"], ["2", "y"]] } ∧
      oneSecond.state.book.get? "b" =
        some { columns := ["id"], rows := [["2"], ["2"], ["6"]] } := by
  intro start one two oneFirst twoFirst twoSecond oneSecond
  have files_one : start.filesOf one = ["b"] := by decide +kernel
  have files_two : start.filesOf two = ["a"] := by decide +kernel
  have apart : (start.filesOf one).Disjoint (start.filesOf two) := by
    simp [files_one, files_two]
  obtain ⟨states, ones, twos⟩ := process_comm_of_disjoint reachable_ledger apart
  refine ⟨reachable_ledger, files_one, files_two, states, ones, twos, ?_, ?_, ?_⟩
  · decide +kernel
  · decide +kernel
  · decide +kernel

end Store

end TableShell
