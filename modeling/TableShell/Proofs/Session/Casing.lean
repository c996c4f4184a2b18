import TableShell.Proofs.Command.Casing
import TableShell.Proofs.Session.Locality
import TableShell.Proofs.Store.Scope

/-!
# Sessions and the casing of keywords

The casing of the keywords in a line does not matter (`casing_of_keywords_changes_nothing`). Two
lines that differ in it come to the same plan, but for the text of the scope; this text selects the
same files in every store, since there too the marker is recognised in any casing
(`select_of_isRecasing`).

## Main definitions

- `Step.withScope`, `Plan.withScope`: the same on the files of another scope text
-/

namespace TableShell

open Command (EditVerb IsRecasing ReadAlike Recased)
open Text (unwords words)

/-! ### Plans with another scope -/

def Step.withScope (scope : String) (step : Step) : Step :=
  { step with scope }

def Plan.withScope (scope : String) (plan : Plan) : Plan :=
  { plan with steps := plan.steps.map (Step.withScope scope) }

theorem Command.plan_update_withScope (old new scope scope' : String) :
    (Command.update old new scope').plan = (Command.update old new scope).plan.withScope scope' :=
  rfl

theorem Command.plan_copy_withScope (keyColumn source target scope scope' : String) :
    (Command.copy keyColumn source target scope').plan =
      (Command.copy keyColumn source target scope).plan.withScope scope' := by
  rw [plan, plan]
  by_cases even : (Field.read source).value.length = (Field.read target).value.length
  · simp only [Plan.ofCopy_of_even even, Plan.withScope, Plan.copySteps, List.map_map]
    rfl
  · simp only [Plan.ofCopy_of_uneven even, Plan.withScope, List.map_nil]

section Engine

variable {σ : Type} {engine : Engine σ} {scope scope' : String}

theorem Step.run_withScope {s : σ} {step : Step}
    (same : engine.select s scope' = engine.select s step.scope) :
    (step.withScope scope').run engine s = step.run engine s := by
  simp only [run, withScope, same]

/-- Steps are coupled if they do the same in every state. -/
def Coupling.same (engine : Engine σ) : Coupling engine engine :=
  .ofEq Eq (fun step step' => ∀ s, step.run engine s = step'.run engine s) <| by
    rintro step step' s _ alike rfl
    exact Prod.ext_iff.1 (alike s)

/-- A command does the same with another scope text that always selects the same files. -/
theorem Session.execute_withScope (engine : Engine σ) {command command' : Command}
    (plans : command'.plan = command.plan.withScope scope')
    (going : (command' != .exit) = (command != .exit))
    (scopes : command.scope? = some scope)
    (same : ∀ s, engine.select s scope' = engine.select s scope) (s : σ) :
    execute engine s command' = execute engine s command := by
  have alike : (Coupling.same engine).Plans command'.plan command.plan := by
    rw [plans]
    refine ⟨rfl, ?_, rfl⟩
    rw [Plan.withScope, List.forall₂_map_left_iff, List.forall₂_same]
    intro step member s
    apply Step.run_withScope
    rw [same, Option.some.inj (scopes.symm.trans (Command.scope?_eq_some_of_mem member))]
  obtain ⟨states, transcripts, results⟩ := alike.execute going (rfl : s = s)
  exact (Execution.mk.injEq ..).mpr ⟨states, transcripts, results⟩

end Engine

namespace Store

variable {marker marker' : String} {ws ws' : List String}

/-- A scope text selects the same files whatever the casing of its marker is. -/
theorem select_of_isRecasing (recasing : IsRecasing Command.scopeMarkers marker marker')
    (files : List String) (store : Store) :
    store.select (unwords (marker' :: files)) = store.select (unwords (marker :: files)) := by
  rcases recasing with rfl | ⟨keyword, key, lower, lower'⟩
  · rfl
  · have solid : ∀ keyword ∈ Command.scopeMarkers, Text.IsWord keyword := by decide
    have spelled {w : String} (folded : w.toLower = keyword) :
        words (unwords (w :: files)) = w :: files.flatMap words := by
      have word : Text.IsWord w := Text.isWord_of_toLower (folded ▸ solid keyword key)
      rw [Text.words_unwords, List.flatMap_cons, Text.words_of_isWord word, List.singleton_append]
    rw [select_eq, select_eq, spelled lower, spelled lower']
    obtain rfl | rfl : keyword = "in" ∨ keyword = "except" := by
      simpa [Command.scopeMarkers] using key
    · rw [Scope.ofWords_in lower, Scope.ofWords_in lower']
    · rw [Scope.ofWords_except lower, Scope.ofWords_except lower']

/-- Words that are read alike are processed alike. -/
theorem process_of_readAlike (alike : ReadAlike (Command.ofWords ws) (Command.ofWords ws'))
    (store : Store) : Session.process engine store ws' = Session.process engine store ws := by
  rw [Session.process, Session.process]
  generalize Command.ofWords ws = result at alike ⊢
  generalize Command.ofWords ws' = result' at alike ⊢
  cases alike with
  | same result => rfl
  | @update old new marker marker' files marks =>
    have plans := Command.plan_update_withScope old new (unwords (marker :: files))
      (unwords (marker' :: files))
    have selects := select_of_isRecasing marks files
    simp only [Session.execute_withScope engine plans rfl rfl selects]
  | @copy keyColumn source target marker marker' files marks =>
    have plans := Command.plan_copy_withScope keyColumn source target (unwords (marker :: files))
      (unwords (marker' :: files))
    have selects := select_of_isRecasing marks files
    simp only [Session.execute_withScope engine plans rfl rfl selects]

/-- Let two lines of words begin with a casing of `update` or `copy` and be the same but for the
casing of the verb, of the separator and of the marker, each at its place. Then they are processed
alike: the state, all that is reported, requested and printed, and whether the session goes on are
the same. -/
theorem casing_of_keywords_changes_nothing (store : Store) {verb : EditVerb}
    (said : ∃ w ∈ ws.head?, w.toLower = verb.word) (recased : Recased verb.keywordsAt 0 ws ws') :
    Session.process engine store ws' = Session.process engine store ws :=
  process_of_readAlike (Command.readAlike_of_recased said recased) store

/-- An update, and a copy that is accepted for its marker alone. -/
theorem casing_of_keywords_changes_nothing_ledger :
    let start : Store := { book := ledger }
    let update := ["update", "2", "to", "9", "except", "b", "IN"]
    let update' := ["upDATE", "2", "To", "9", "EXCEPT", "b", "IN"]
    let copy := ["Copy", "id", "2", "as", "5", "in", "b"]
    let copy' := ["COPY", "id", "2", "as", "5", "iN", "b"]
    (∃ w ∈ update.head?, w.toLower = EditVerb.update.word) ∧
      Recased EditVerb.update.keywordsAt 0 update update' ∧
      Session.process engine start update' = Session.process engine start update ∧
      (Session.process engine start update').state.book.get? "a" =
        some { columns := ["id", "name"], rows := [["1", "x"], ["9", "y"]] } ∧
      (∃ w ∈ copy.head?, w.toLower = EditVerb.copy.word) ∧
      Recased EditVerb.copy.keywordsAt 0 copy copy' ∧
      Session.process engine start copy' = Session.process engine start copy ∧
      (Session.process engine start copy').transcript.reports = [.copying "2" "5"] ∧
      (Session.process engine start copy').state.book.get? "b" =
        some { columns := ["id"], rows := [["2"], ["2"], ["5"]] } := by
  intro start update update' copy copy'
  have said : ∃ w ∈ update.head?, w.toLower = EditVerb.update.word := by decide +kernel
  have said' : ∃ w ∈ copy.head?, w.toLower = EditVerb.copy.word := by decide +kernel
  have recased : Recased EditVerb.update.keywordsAt 0 update update' :=
    .cons (.inr ⟨"update", by decide +kernel⟩) <| .cons (.inl rfl) <|
      .cons (.inr ⟨"to", by decide +kernel⟩) <| .cons (.inl rfl) <|
        .cons (.inr ⟨"except", by decide +kernel⟩) <| .cons (.inl rfl) <| .cons (.inl rfl) .nil
  have recased' : Recased EditVerb.copy.keywordsAt 0 copy copy' :=
    .cons (.inr ⟨"copy", by decide +kernel⟩) <| .cons (.inl rfl) <| .cons (.inl rfl) <|
      .cons (.inl rfl) <| .cons (.inl rfl) <| .cons (.inr ⟨"in", by decide +kernel⟩) <|
        .cons (.inl rfl) .nil
  refine ⟨said, recased, casing_of_keywords_changes_nothing start said recased, ?_, said', recased',
    casing_of_keywords_changes_nothing start said' recased', ?_, ?_⟩
  · decide +kernel
  · decide +kernel
  · decide +kernel

end Store

end TableShell
