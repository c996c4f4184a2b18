import TableShell.Engine.Rehearsal
import TableShell.Proofs.Command.Form
import TableShell.Proofs.Text.Lines
import TableShell.Session

/-!
# Sessions line by line

A line stops a session if and only if it has an exit word, and such a line does nothing else
(`takeLine_of_endsSession`). Lines without words change nothing, and of the other lines only their
words matter (`runLines_eq_of_words`). A session over two lists of lines is a session over the first
one, followed by a session over the second one unless the first was stopped (`runLines_append`).

## Main definitions

- `Session.HasExitWord`, `Session.endsSession`: that a line has an exit word, and whether it has one
- `Session.taken`: the lines that a session takes
-/

namespace TableShell

namespace Session

variable {σ : Type} {engine : Engine σ} {s : σ} {line : String}

/-- One of the words of a line is an exit word. -/
def HasExitWord (line : String) : Prop :=
  ∃ w ∈ Text.words line, w = "q" ∨ w = "exit"

instance (line : String) : Decidable (HasExitWord line) :=
  inferInstanceAs (Decidable (∃ w ∈ Text.words line, w = "q" ∨ w = "exit"))

/-- Whether a line has an exit word. -/
def endsSession (line : String) : Bool :=
  (Text.words line).any Command.exitWords.contains

theorem endsSession_iff : endsSession line ↔ HasExitWord line := by
  simp [endsSession, HasExitWord, Command.exitWords]

theorem hasWords_of_endsSession (ends : endsSession line) : Text.hasWords line := by
  obtain ⟨w, member, -⟩ := endsSession_iff.1 ends
  simp [Text.hasWords, List.ne_nil_of_mem member]

/-! ### One line -/

theorem process_of_exit {ws : List String} (exits : ws.any Command.exitWords.contains) :
    process engine s ws = { state := s, transcript := [], continues := false } := by
  rw [process, Command.ofWords_eq_exit_iff.2 exits]
  rfl

/-- Whatever becomes of a line without exit words, the session goes on. -/
theorem continues_process {ws : List String} (stays : ¬ws.any Command.exitWords.contains) :
    (process engine s ws).continues = true := by
  rw [process]
  split
  next => rfl
  next command read =>
    have other : command ≠ .exit := by
      rintro rfl
      exact stays (Command.ofWords_eq_exit_iff.1 read)
    simp only [execute]
    cases command.plan.refusal? with
    | none => simp [other]
    | some _ => rfl

private theorem takeLine_congr {other : String} (same : Text.words line = Text.words other) :
    takeLine engine s line = takeLine engine s other := by
  rw [takeLine, same, takeLine]

theorem takeLine_of_blank (blank : ¬Text.hasWords line) : takeLine engine s line = .start s := by
  have none : Text.words line = [] := by simpa [Text.hasWords] using blank
  rw [takeLine, none]

theorem takeLine_of_hasWords (spoken : Text.hasWords line) :
    takeLine engine s line =
      let turn := process engine s (Text.words line)
      { state := turn.state
        transcript := turn.transcript
        summary := { commands := 1, stopped := !turn.continues } } := by
  obtain ⟨w, ws, split_words⟩ : ∃ w ws, Text.words line = w :: ws :=
    List.exists_cons_of_ne_nil (by simpa [Text.hasWords] using spoken)
  rw [takeLine, split_words]

/-- A line with an exit word is counted and stops the session, and it does nothing else. -/
theorem takeLine_of_endsSession (ends : endsSession line) :
    takeLine engine s line =
      { state := s, transcript := [], summary := { commands := 1, stopped := true } } := by
  rw [takeLine_of_hasWords (hasWords_of_endsSession ends), process_of_exit ends]
  rfl

theorem stopped_takeLine (line : String) :
    (takeLine engine s line).summary.stopped = endsSession line := by
  cases ends : endsSession line with
  | true => rw [takeLine_of_endsSession ends]
  | false =>
    by_cases spoken : Text.hasWords line
    · have stays : ¬(Text.words line).any Command.exitWords.contains := by
        rw [← endsSession, ends]
        exact Bool.false_ne_true
      rw [takeLine_of_hasWords spoken]
      simp only [continues_process stays, Bool.not_true]
    · rw [takeLine_of_blank spoken]
      rfl

theorem commands_takeLine (line : String) :
    (takeLine engine s line).summary.commands = if Text.hasWords line then 1 else 0 := by
  split
  next spoken => rw [takeLine_of_hasWords spoken]
  next blank =>
    rw [takeLine_of_blank blank]
    rfl

/-! ### Parts of a session -/

@[simp] theorem start_followedBy (outcome : Outcome σ) :
    (Outcome.start s).followedBy outcome = outcome := by
  simp [Outcome.start, Outcome.followedBy]

theorem followedBy_assoc (first second third : Outcome σ) :
    (first.followedBy second).followedBy third = first.followedBy (second.followedBy third) := by
  simp [Outcome.followedBy, Nat.add_assoc]

theorem runLines_of_endsSession (ends : endsSession line) (rest : List String) :
    runLines engine s (line :: rest) =
      { state := s, transcript := [], summary := { commands := 1, stopped := true } } := by
  rw [runLines, takeLine_of_endsSession ends]
  rfl

theorem runLines_of_not_endsSession (stays : ¬endsSession line) (rest : List String) :
    runLines engine s (line :: rest) =
      (takeLine engine s line).followedBy
        (runLines engine (takeLine engine s line).state rest) := by
  rw [runLines]
  simp only [stopped_takeLine, if_neg stays]

theorem runLines_of_blank (blank : ¬Text.hasWords line) (rest : List String) :
    runLines engine s (line :: rest) = runLines engine s rest := by
  have stays : ¬endsSession line := fun ends => blank (hasWords_of_endsSession ends)
  rw [runLines_of_not_endsSession stays, takeLine_of_blank blank, start_followedBy]
  rfl

theorem runLines_filter_hasWords (lines : List String) :
    runLines engine s (lines.filter Text.hasWords) = runLines engine s lines := by
  induction lines generalizing s with
  | nil => rfl
  | cons line rest ih =>
    by_cases spoken : Text.hasWords line
    · rw [List.filter_cons_of_pos spoken, runLines, runLines, ih]
    · rw [List.filter_cons_of_neg spoken, ih, runLines_of_blank spoken]

theorem runLines_congr {xs ys : List String} (same : xs.map Text.words = ys.map Text.words) :
    runLines engine s xs = runLines engine s ys := by
  induction xs generalizing s ys with
  | nil =>
    obtain rfl : ys = [] := by simpa using same.symm
    rfl
  | cons x xs ih =>
    obtain ⟨y, ys, rfl⟩ : ∃ y rest, ys = y :: rest := by
      cases ys with
      | nil => cases same
      | cons y ys => exact ⟨y, ys, rfl⟩
    rw [List.map_cons, List.map_cons, List.cons.injEq] at same
    rw [runLines, runLines, takeLine_congr same.1, ih same.2]

/-- Lines with the same words, those without words apart, make the same session. -/
theorem runLines_eq_of_words {xs ys : List String}
    (same : (xs.filter Text.hasWords).map Text.words = (ys.filter Text.hasWords).map Text.words) :
    runLines engine s xs = runLines engine s ys := by
  rw [← runLines_filter_hasWords xs, runLines_congr same, runLines_filter_hasWords]

/-- A session over two lists of lines is one over the first, and one over the second from where it
ended unless it was stopped. -/
theorem runLines_append (xs ys : List String) :
    runLines engine s (xs ++ ys) =
      if (runLines engine s xs).summary.stopped then runLines engine s xs
      else (runLines engine s xs).followedBy
        (runLines engine (runLines engine s xs).state ys) := by
  induction xs generalizing s with
  | nil =>
    rw [List.nil_append]
    exact (start_followedBy _).symm
  | cons line rest ih =>
    -- The induction is on what is left of the first list, so that a stop is met at its head.
    by_cases ends : endsSession line
    · simp only [List.cons_append, runLines_of_endsSession ends, if_true]
    · simp only [List.cons_append, runLines_of_not_endsSession ends, ih]
      split
      next stopped => simp only [Outcome.followedBy, stopped, if_true]
      next goes_on =>
        rw [followedBy_assoc]
        exact (if_neg goes_on).symm

/-! ### The end of a session -/

/-- The lines up to the first one with an exit word, and this one. -/
def taken (lines : List String) : List String :=
  lines.take (lines.findIdx endsSession + 1)

theorem taken_of_endsSession (ends : endsSession line) (rest : List String) :
    taken (line :: rest) = [line] := by
  simp [taken, List.findIdx_cons, ends]

theorem taken_of_not_endsSession (stays : ¬endsSession line) (rest : List String) :
    taken (line :: rest) = line :: taken rest := by
  simp [taken, List.findIdx_cons, stays]

private theorem taken_of_forall_not {lines : List String}
    (stay : ∀ line ∈ lines, ¬endsSession line) :
    taken lines = lines := by
  induction lines with
  | nil => rfl
  | cons line rest ih =>
    obtain ⟨stays, rest_stay⟩ := List.forall_mem_cons.1 stay
    rw [taken_of_not_endsSession stays, ih rest_stay]

theorem stopped_runLines (lines : List String) :
    (runLines engine s lines).summary.stopped = lines.any endsSession := by
  induction lines generalizing s with
  | nil => rfl
  | cons line rest ih =>
    by_cases ends : endsSession line
    · rw [runLines_of_endsSession ends, List.any_cons, ends, Bool.true_or]
    · rw [runLines_of_not_endsSession ends, List.any_cons, Bool.of_not_eq_true ends,
        Bool.false_or]
      exact ih

/-- Every line that is taken and has words is counted. -/
theorem commands_runLines (lines : List String) :
    (runLines engine s lines).summary.commands = (taken lines).countP Text.hasWords := by
  induction lines generalizing s with
  | nil => rfl
  | cons line rest ih =>
    by_cases ends : endsSession line
    · rw [runLines_of_endsSession ends, taken_of_endsSession ends, List.countP_singleton,
        if_pos (hasWords_of_endsSession ends)]
    · rw [runLines_of_not_endsSession ends, taken_of_not_endsSession ends, List.countP_cons,
        ← commands_takeLine, ← ih, Nat.add_comm]
      rfl

/-- Nothing happens from the first line with an exit word on, except that this line is counted. -/
theorem runLines_append_cons {before : List String}
    (stays : ∀ earlier ∈ before, ¬endsSession earlier) (ends : endsSession line)
    (after : List String) :
    runLines engine s (before ++ line :: after) =
      { runLines engine s before with
        summary := { commands := (before ++ [line]).countP Text.hasWords, stopped := true } } := by
  have not_stopped : (runLines engine s before).summary.stopped = false := by
    rw [stopped_runLines, List.any_eq_false]
    exact stays
  have counted : (before ++ [line]).countP Text.hasWords = before.countP Text.hasWords + 1 := by
    rw [List.countP_append, List.countP_singleton, if_pos (hasWords_of_endsSession ends)]
  rw [runLines_append, not_stopped, runLines_of_endsSession ends, counted]
  simp only [Bool.false_eq_true, if_false, Outcome.followedBy, List.append_nil, commands_runLines,
    taken_of_forall_not stays]

/-- Only an exit word stops a session, and it stops it at once. Up to there, or to the end, each
line with words is counted, and nothing comes of the line with the exit word or of a later one. A
session over two lists of lines is one over the first and, unless that was stopped, one over the
second from where the first ended. -/
theorem only_exit_words_stop (engine : Engine σ) (s : σ) (xs : List String) :
    let done := runLines engine s xs
    (done.summary.stopped ↔ ∃ line ∈ xs, HasExitWord line) ∧
      (∀ before line after, xs = before ++ line :: after →
        (∀ earlier ∈ before, ¬HasExitWord earlier) → HasExitWord line →
        done.state = (runLines engine s before).state ∧
          done.transcript = (runLines engine s before).transcript ∧
          done.summary.commands = (before ++ [line]).countP Text.hasWords) ∧
      ((∀ line ∈ xs, ¬HasExitWord line) → done.summary.commands = xs.countP Text.hasWords) ∧
      ∀ ys, runLines engine s (xs ++ ys) =
        if done.summary.stopped then done else done.followedBy (runLines engine done.state ys) := by
  intro done
  refine ⟨?_, ?_, ?_, runLines_append xs⟩
  · simp only [done, stopped_runLines, List.any_eq_true, endsSession_iff]
  · rintro before line after rfl stays ends
    have earlier_stay : ∀ earlier ∈ before, ¬endsSession earlier := by
      intro earlier member ends
      exact stays earlier member (endsSession_iff.1 ends)
    have cut : done = _ := runLines_append_cons earlier_stay (endsSession_iff.2 ends) after
    rw [cut]
    exact ⟨rfl, rfl, rfl⟩
  · intro stays
    have none_ends : ∀ line ∈ xs, ¬endsSession line := by
      intro line member ends
      exact stays line member (endsSession_iff.1 ends)
    rw [commands_runLines, taken_of_forall_not none_ends]

theorem only_exit_words_stop_rehearsal :
    let start : Rehearsal := { quiet := true }
    let before := ["get 1", ""]
    let done := runLines Rehearsal.engine start ["get 1", "", "get exit in a", "get 2"]
    (∀ earlier ∈ before, ¬HasExitWord earlier) ∧ HasExitWord "get exit in a" ∧
      done.summary.stopped ∧ done.summary.commands = 2 ∧
      done.state.recorded = ["search <key>=1 [ALL]"] ∧
      done.transcript = (runLines Rehearsal.engine start before).transcript ∧
      (runLines Rehearsal.engine start before).summary.commands = 1 := by
  intro start before done
  have stays : ∀ earlier ∈ before, ¬HasExitWord earlier := by decide +kernel
  have ends : HasExitWord "get exit in a" := by decide +kernel
  obtain ⟨stops, effects, -⟩ := only_exit_words_stop Rehearsal.engine start
    ["get 1", "", "get exit in a", "get 2"]
  obtain ⟨state, transcript, commands⟩ := effects before _ ["get 2"] rfl stays ends
  have counted := (only_exit_words_stop Rehearsal.engine start before).2.2.1 stays
  refine ⟨stays, ends, stops.2 ⟨_, by simp, ends⟩, commands, ?_, transcript, counted⟩
  rw [state]
  decide +kernel

end Session

end TableShell
