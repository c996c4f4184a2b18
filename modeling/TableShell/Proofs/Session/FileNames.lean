import TableShell.Proofs.Session.Locality
import TableShell.Proofs.Session.Script
import TableShell.Proofs.Store.Scope

/-!
# File names in a line

The words that name the files of a command are joined to one text, and whoever is asked to carry the
command out cuts this text into words again. No name is lost or changed on the way
(`file_names_survive`): the scope that is read from the text has the names that stood in the line,
and a rehearsal writes the text down as it was.

## Main definitions

- `Scope.Carries`: what is read from a text of the given words
- `Session.CarriesFiles`: what becomes of the words that name the files of a command
-/

namespace TableShell

open Text (IsWord unwords words)

/-- The words of a text are the given ones, and the scope that is read from it is the one that the
first word announces for the others. -/
structure Scope.Carries (text : String) (ws : List String) : Prop where
  words : Text.words text = ws
  all : ws.head? = some allWord → read? text = some .all
  only : ∀ marker files, ws = marker :: files → marker.toLower = "in" →
    read? text = some (.restricted .only files)
  except : ∀ marker files, ws = marker :: files → marker.toLower = "except" →
    read? text = some (.restricted .except files)
  unmarked : ∀ word files, ws = word :: files → word ≠ allWord → word.toLower ≠ "in" →
    word.toLower ≠ "except" → read? text = none

theorem Scope.carries_unwords {ws : List String} (spoken : ∀ w ∈ ws, IsWord w) :
    Carries (unwords ws) ws := by
  have read : read? (unwords ws) = ofWords? ws := by
    rw [read?, Text.words_unwords_of_isWord spoken]
  refine ⟨Text.words_unwords_of_isWord spoken, ?_, ?_, ?_, ?_⟩
  · intro first
    obtain ⟨files, rfl⟩ := List.head?_eq_some_iff.1 first
    rw [read, ofWords?, if_pos rfl]
  · rintro marker files rfl folded
    rw [read, ofWords?, if_neg (ne_allWord (.inl folded)), ofMarker?_in folded, Option.map_some]
  · rintro marker files rfl folded
    rw [read, ofWords?, if_neg (ne_allWord (.inr folded)), ofMarker?_except folded, Option.map_some]
  · rintro word files rfl ne other other'
    rw [read, ofWords?, if_neg ne, ofMarker?_eq_none ⟨other, other'⟩, Option.map_none]

/-! ### Scopes of commands -/

namespace Command

variable {ws fields : List String} {scope : String}

private theorem scope_of_update {old new : String}
    (read : ofWords ws = .ok (.update old new scope)) :
    scope = unwords (ws.drop 4) := by
  cases ofWords_eq_ok_iff.1 read with
  | verb plain shape =>
    cases shape with
    | update => rfl

private theorem scope_of_copy {keyColumn source target : String}
    (read : ofWords ws = .ok (.copy keyColumn source target scope)) :
    scope = unwords (ws.drop 5) := by
  cases ofWords_eq_ok_iff.1 read with
  | verb plain shape =>
    cases shape with
    | copy => rfl

/-- With a marker among its words a search has at least two words, and the last two are its
scope. -/
theorem exists_scope_of_get (read : ofWords ws = .ok (.get fields scope))
    (marked : ∃ w ∈ ws, w ∈ scopeMarkers) :
    ∃ front first last, ws = front ++ [first, last] ∧ scope = unwords [first, last] := by
  cases ofWords_eq_ok_iff.1 read with
  | verb plain shape =>
    cases shape with
    | @getAll verb fields cased unmarked =>
      have unmarked : ∀ w ∈ verb :: fields, w ∉ scopeMarkers :=
        List.forall_mem_cons.2 ⟨not_marker_of_get cased, unmarked⟩
      obtain ⟨w, member, marks⟩ := marked
      exact absurd marks (unmarked w member)
    | @getBare verb marker => exact ⟨[], verb, marker, rfl, rfl⟩
    | @getIn verb fields first last => exact ⟨verb :: fields, first, last, rfl, rfl⟩

end Command

/-! ### Rehearsals -/

/-- The description of a request ends in its files. -/
theorem Request.exists_describe_eq (request : Request) (files : List String) :
    ∃ front, request.describe files = front ++ "[" ++ unwords files ++ "]" := by
  have cut (front : String) : front ++ (" [" ++ " ".intercalate files ++ "]") =
      front ++ " " ++ "[" ++ unwords files ++ "]" := by
    simp only [String.append_assoc, unwords]
    rfl
  cases request with
  | search target => exact ⟨_, cut _⟩
  | update old new => exact ⟨_, cut _⟩
  | copy keyColumn source target => exact ⟨_, cut _⟩

namespace Rehearsal

/-- In a rehearsal the words of the scope of a step are taken for its files. -/
theorem requests_runAll (rehearsal : Rehearsal) (steps : List Step) :
    (Step.runAll engine rehearsal steps).2.requests =
      steps.map fun step => (step.request, words step.scope) := by
  induction steps generalizing rehearsal with
  | nil => rfl
  | cons step steps ih =>
    rw [Step.runAll, Transcript.requests_append, Step.requests_run, ih]
    rfl

private theorem recorded_runAll_eq (rehearsal : Rehearsal) (steps : List Step) :
    (Step.runAll engine rehearsal steps).1.recorded =
      rehearsal.recorded ++ steps.map fun step => step.request.describe (words step.scope) := by
  rw [recorded_runAll, requests_runAll, entries, List.map_map]
  rfl

end Rehearsal

namespace Session

/-- The given words of a line arrive as the files of its command: in the scope of the command, and
at the end of each of the entries, one for each step, that a rehearsal adds to its own. -/
structure CarriesFiles (line : String) (command : Command) (scope : String) (ws : List String) :
    Prop extends Scope.Carries scope ws where
  recorded : ∀ rehearsal : Rehearsal, ∃ entries,
    (takeLine Rehearsal.engine rehearsal line).state.recorded = rehearsal.recorded ++ entries ∧
      entries.length = command.plan.steps.length ∧
      ∀ entry ∈ entries, ∃ front, entry = front ++ "[" ++ scope ++ "]"

private theorem state_takeLine {σ : Type} {engine : Engine σ} {s : σ} {line : String}
    {command : Command}
    (read : Command.ofWords (words line) = .ok command) :
    (takeLine engine s line).state = (Step.runAll engine s command.plan.steps).1 := by
  by_cases spoken : Text.hasWords line
  · rw [takeLine_of_hasWords spoken]
    simp only [state_process, read]
  · have none : words line = [] := by simpa [Text.hasWords] using spoken
    rw [none] at read
    cases read
    rw [takeLine_of_blank spoken]
    rfl

theorem carriesFiles {line scope : String} {command : Command} {ws : List String}
    (read : Command.ofWords (words line) = .ok command) (scopes : command.scope? = some scope)
    (joined : scope = unwords ws) (within : ws ⊆ words line) :
    CarriesFiles line command scope ws := by
  have spoken : ∀ w ∈ ws, IsWord w := fun w member => Text.isWord_of_mem_words (within member)
  subst joined
  refine ⟨Scope.carries_unwords spoken, fun rehearsal => ?_⟩
  refine ⟨command.plan.steps.map fun step => step.request.describe (words step.scope), ?_,
    List.length_map _, ?_⟩
  · rw [state_takeLine read, Rehearsal.recorded_runAll_eq]
  · intro entry member
    obtain ⟨step, listed, rfl⟩ := List.mem_map.1 member
    have scope_eq := scopes.symm.trans (Command.scope?_eq_some_of_mem listed)
    obtain ⟨front, described⟩ := step.request.exists_describe_eq ws
    refine ⟨front, ?_⟩
    rw [← Option.some.inj scope_eq, Text.words_unwords_of_isWord spoken, described]

/-- The words of a line are words, and they are those of their join. Those that name the files of a
command, which are all from the fifth one on for an update and all from the sixth one on for a copy,
and the last two for a search with a marker, arrive as the files of the command. -/
theorem file_names_survive (line : String) :
    let ws := words line
    (∀ w ∈ ws, IsWord w) ∧ words (unwords ws) = ws ∧
      (∀ old new scope, Command.ofWords ws = .ok (.update old new scope) →
        CarriesFiles line (.update old new scope) scope (ws.drop 4)) ∧
      (∀ keyColumn source target scope,
        Command.ofWords ws = .ok (.copy keyColumn source target scope) →
          CarriesFiles line (.copy keyColumn source target scope) scope (ws.drop 5)) ∧
      ∀ fields scope, Command.ofWords ws = .ok (.get fields scope) →
        (∃ w ∈ ws, w ∈ Command.scopeMarkers) →
          ∃ front first last, ws = front ++ [first, last] ∧
            CarriesFiles line (.get fields scope) scope [first, last] := by
  intro ws
  have spoken : ∀ w ∈ ws, IsWord w := fun _ member => Text.isWord_of_mem_words member
  refine ⟨spoken, Text.words_unwords_of_isWord spoken, ?_, ?_, ?_⟩
  · intro old new scope read
    exact carriesFiles read rfl (Command.scope_of_update read) (List.drop_subset 4 ws)
  · intro keyColumn source target scope read
    exact carriesFiles read rfl (Command.scope_of_copy read) (List.drop_subset 5 ws)
  · intro fields scope read marked
    obtain ⟨front, first, last, split, joined⟩ := Command.exists_scope_of_get read marked
    have within : [first, last] ⊆ ws := split ▸ List.subset_append_right front [first, last]
    exact ⟨front, first, last, split, carriesFiles read rfl joined within⟩

/-- An update with blanks of several kinds, a copy without a marker, and a search whose marker is
none of the last two words. -/
theorem file_names_survive_of_three_lines :
    let update := "update\ta to\u3000b  IN x\u2003in\n"
    let copy := "copy id 1-2 to 5-6 ALL x"
    let search := "get 1 in x y"
    let rehearsed := (takeLine Rehearsal.engine {} copy).state.recorded
    words update = ["update", "a", "to", "b", "IN", "x", "in"] ∧
      Command.ofWords (words update) = .ok (.update "a" "b" "IN x in") ∧
      Scope.read? "IN x in" = some (.restricted .only ["x", "in"]) ∧
      Command.ofWords (words copy) = .ok (.copy "id" "1-2" "5-6" "ALL x") ∧
      Scope.read? "ALL x" = some .all ∧ rehearsed.length = 2 ∧
      (∀ entry ∈ rehearsed, ∃ front, entry = front ++ "[" ++ "ALL x" ++ "]") ∧
      Command.ofWords (words search) = .ok (.get ["1", "in"] "x y") ∧
      (∃ w ∈ words search, w ∈ Command.scopeMarkers) ∧ Scope.read? "x y" = none := by
  intro update copy search rehearsed
  have spelled : words update = ["update", "a", "to", "b", "IN", "x", "in"] := by decide +kernel
  have readUpdate : Command.ofWords (words update) = .ok (.update "a" "b" "IN x in") := by
    decide +kernel
  have readCopy : Command.ofWords (words copy) = .ok (.copy "id" "1-2" "5-6" "ALL x") := by
    decide +kernel
  have readSearch : Command.ofWords (words search) = .ok (.get ["1", "in"] "x y") := by
    decide +kernel
  have marked : ∃ w ∈ words search, w ∈ Command.scopeMarkers := by decide +kernel
  obtain ⟨-, -, updates, -, -⟩ := file_names_survive update
  obtain ⟨-, -, -, copies, -⟩ := file_names_survive copy
  obtain ⟨-, -, -, -, searches⟩ := file_names_survive search
  have updated := updates "a" "b" "IN x in" readUpdate
  have copied := copies "id" "1-2" "5-6" "ALL x" readCopy
  obtain ⟨front, first, last, split, searched⟩ := searches ["1", "in"] "x y" readSearch marked
  obtain ⟨entries, recorded, number, endings⟩ := copied.recorded {}
  have same : rehearsed = entries := recorded
  have names : [first, last] = ["x", "y"] :=
    searched.words.symm.trans (by decide +kernel)
  refine ⟨spelled, readUpdate, ?_, readCopy, ?_, ?_, ?_, readSearch, marked, ?_⟩
  · exact updated.only "IN" ["x", "in"] (by rw [spelled]; rfl) (by decide +kernel)
  · exact copied.all (by decide +kernel)
  · rw [same, number]
    decide +kernel
  · rw [same]
    exact endings
  · exact searched.unmarked "x" ["y"] names (by decide) (by decide +kernel) (by decide +kernel)

end Session

end TableShell
