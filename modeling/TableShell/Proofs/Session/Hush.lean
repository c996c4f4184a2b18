import TableShell.Console
import TableShell.Proofs.Session.Coupling
import TableShell.Proofs.Session.Dialogue

/-!
# Sessions with a hushed engine

An engine can be hushed: it then does the same and prints nothing. A session with a hushed engine
goes like the session with the same engine before, the lines of the engine left out
(`runLines_hush`, `interact_hush`). Of what is left a quiet console shows the prompts, the help and
the clearing of the screen and nothing else, so that the lines of a session alone say what it shows
(`stdout_runLines`, `stdout_interactLines`), whatever text clears the screen.

## Main definitions

- `Transcript.withoutLines`: what happens besides the printing of lines
- `Engine.HushedBy`: that a map of the states hushes an engine
- `Engine.HushedBy.coupling`: the steps of a hushed engine and those of the engine as it was
- `Session.quietAnswer`: what a quiet console shows of a line
-/

namespace TableShell

/-- Whether an entry is a line that is printed. -/
def Entry.isLine : Entry → Bool
  | line _ => true
  | _ => false

namespace Transcript

variable {transcript : Transcript}

/-- All that happens besides the printing of lines. -/
def withoutLines (transcript : Transcript) : Transcript :=
  transcript.filter (! ·.isLine)

@[simp] theorem withoutLines_append (first second : Transcript) :
    withoutLines (first ++ second) = first.withoutLines ++ second.withoutLines :=
  List.filter_append first second

@[simp] theorem withoutLines_map_line (texts : List String) :
    withoutLines (texts.map .line) = [] := by
  simp [withoutLines, Entry.isLine]

@[simp] theorem withoutLines_map_report (rs : List Report) :
    withoutLines (rs.map .report) = rs.map .report := by
  simp [withoutLines, Entry.isLine]

theorem stdout_cons (console : Console) (clearing : String) (entry : Entry) (rest : Transcript) :
    stdout console (entry :: rest) clearing =
      entry.stdout console clearing ++ rest.stdout console clearing := by
  rw [stdout, List.map_cons, String.join_cons]
  rfl

theorem stdout_append (console : Console) (clearing : String) (first second : Transcript) :
    stdout console (first ++ second) clearing =
      first.stdout console clearing ++ second.stdout console clearing := by
  rw [stdout, List.map_append, String.join_append]
  rfl

theorem stderr_cons (console : Console) (entry : Entry) (rest : Transcript) :
    stderr console (entry :: rest) = entry.stderr console ++ rest.stderr console := by
  rw [stderr, List.map_cons, String.join_cons]
  rfl

theorem stderr_withoutLines (console : Console) (transcript : Transcript) :
    transcript.withoutLines.stderr console = transcript.stderr console := by
  induction transcript with
  | nil => rfl
  | cons entry rest ih =>
    rw [stderr_cons, ← ih]
    cases entry with
    | line text => exact String.empty_append.symm
    | _ => exact stderr_cons console _ _

/-- What goes to standard error is the same whether progress is shown or not. -/
theorem stderr_quiet (transcript : Transcript) :
    transcript.stderr .quiet = transcript.stderr .verbose := by
  have same (entry : Entry) : entry.stderr .quiet = entry.stderr .verbose := by
    cases entry with
    | report r => cases r <;> rfl
    | _ => rfl
  rw [stderr, stderr, List.map_congr_left fun entry _ => same entry]

/-- A quiet console shows nothing of a transcript, whatever clears the screen. -/
def Mute (transcript : Transcript) : Prop :=
  ∀ entry ∈ transcript, ∀ clearing, entry.stdout .quiet clearing = ""

theorem Mute.append {first second : Transcript} (one : first.Mute) (two : second.Mute) :
    Mute (first ++ second) :=
  List.forall_mem_append.2 ⟨one, two⟩

theorem Mute.stdout_eq (mute : transcript.Mute) (clearing : String) :
    transcript.stdout .quiet clearing = "" := by
  induction transcript with
  | nil => rfl
  | cons entry rest ih =>
    obtain ⟨here, later⟩ := List.forall_mem_cons.1 mute
    rw [stdout_cons, here, ih later]
    rfl

theorem mute_report {r : Report} (mute : ∀ clearing, r.stdout .quiet clearing = "") :
    Mute [.report r] :=
  List.forall_mem_singleton.2 mute

end Transcript

variable {σ τ : Type} {engine : Engine σ} {hush : σ → σ} {s : σ}

/-- In a hushed state the engine does the same as in the state before, and prints nothing. -/
structure Engine.HushedBy (engine : Engine σ) (hush : σ → σ) : Prop where
  select : ∀ s scope, engine.select (hush s) scope = engine.select s scope
  perform : ∀ s request files, engine.perform (hush s) request files =
    { state := hush (engine.perform s request files).state
      failure? := (engine.perform s request files).failure? }

theorem Engine.HushedBy.sum {other : Engine τ} {hush' : τ → τ} (left : engine.HushedBy hush)
    (right : other.HushedBy hush') : (engine.sum other).HushedBy (Sum.map hush hush') where
  select := by
    rintro (s | s) scope
    · exact left.select s scope
    · exact right.select s scope
  perform := by
    rintro (s | s) request files
    · simp only [Engine.sum, Sum.map_inl, left.perform, Reply.map]
    · simp only [Engine.sum, Sum.map_inr, right.perform, Reply.map]

/-! ### What an engine is asked -/

theorem Step.run_hush (hushes : engine.HushedBy hush) (s : σ) (step : Step) :
    step.run engine (hush s) =
      (hush (step.run engine s).1, (step.run engine s).2.withoutLines) := by
  simp only [run, hushes.select, hushes.perform, Transcript.withoutLines_append,
    Transcript.withoutLines_map_line, Transcript.withoutLines_map_report]
  cases (engine.perform s step.request (engine.select s step.scope)).failure? with
  | none => rfl
  | some cause => rfl

/-- A step with a hushed engine is coupled with the same step before. -/
def Engine.HushedBy.coupling (hushes : engine.HushedBy hush) : Coupling engine engine where
  states hushed s := hushed = hush s
  steps := Eq
  transcripts hushed transcript := hushed = transcript.withoutLines
  nil := List.filter_nil.symm
  append := by
    rintro _ first _ second rfl rfl
    exact (Transcript.withoutLines_append first second).symm
  run := by
    rintro step _ _ s rfl rfl
    exact Prod.ext_iff.1 (step.run_hush hushes s)

namespace Session

variable {line : String}

/-- An outcome with a hushed state and without lines. -/
def Outcome.hushed (hush : σ → σ) (outcome : Outcome σ) : Outcome σ :=
  { state := hush outcome.state
    transcript := outcome.transcript.withoutLines
    summary := outcome.summary }

theorem process_hush (hushes : engine.HushedBy hush) (s : σ) (ws : List String) :
    process engine (hush s) ws =
      { state := hush (process engine s ws).state
        transcript := (process engine s ws).transcript.withoutLines
        continues := (process engine s ws).continues } := by
  obtain ⟨states, transcripts, continues⟩ :=
    hushes.coupling.process (fun _ => rfl) ws (fun _ _ _ _ => rfl) (rfl : hush s = hush s)
  rw [← states, ← transcripts, ← continues]

theorem takeLine_hush (hushes : engine.HushedBy hush) (s : σ) (line : String) :
    takeLine engine (hush s) line = (takeLine engine s line).hushed hush := by
  rw [takeLine, takeLine]
  split
  next => rfl
  next => simp only [process_hush hushes, Outcome.hushed]

theorem Outcome.hushed_followedBy (first second : Outcome σ) :
    (first.followedBy second).hushed hush =
      (first.hushed hush).followedBy (second.hushed hush) := by
  simp only [hushed, followedBy, Transcript.withoutLines_append]

theorem Outcome.hushed_after (text : String) (outcome : Outcome σ) :
    (outcome.after text).hushed hush = (outcome.hushed hush).after text := rfl

/-- A session with a hushed engine goes like the one with the engine as it was, without lines. -/
theorem runLines_hush (hushes : engine.HushedBy hush) (s : σ) (lines : List String) :
    runLines engine (hush s) lines = (runLines engine s lines).hushed hush := by
  induction lines generalizing s with
  | nil => rfl
  | cons line rest ih =>
    by_cases ends : endsSession line
    · rw [runLines_of_endsSession ends, runLines_of_endsSession ends]
      rfl
    · rw [runLines_of_not_endsSession ends, runLines_of_not_endsSession ends,
        takeLine_hush hushes, Outcome.hushed_followedBy, ← ih]
      rfl

theorem interactLines_hush (hushes : engine.HushedBy hush) (prompt : String) (s : σ)
    (lines : List (List UInt8)) :
    interactLines engine prompt (hush s) lines =
      (interactLines engine prompt s lines).hushed hush := by
  induction lines generalizing s with
  | nil => rfl
  | cons line rest ih =>
    by_cases ends : endsSession (Utf8.decodeLossy line)
    · rw [interactLines_of_endsSession ends, interactLines_of_endsSession ends,
        takeLine_hush hushes, Outcome.hushed_after]
    · rw [interactLines_of_not_endsSession ends, interactLines_of_not_endsSession ends,
        takeLine_hush hushes, Outcome.hushed_followedBy, Outcome.hushed_after, ← ih]
      rfl

/-- A dialogue with a hushed engine goes like the one with the engine as it was, without lines. -/
theorem interact_hush (hushes : engine.HushedBy hush) (prompt : String) (s : σ)
    (input : List UInt8) :
    interact engine prompt (hush s) input = (interact engine prompt s input).hushed hush :=
  interactLines_hush hushes prompt s (Utf8.lines input)

end Session

/-! ### What a quiet console shows -/

/-- A quiet console shows none of the reports, whatever clears the screen. -/
def Report.Mute (rs : List Report) : Prop :=
  ∀ r ∈ rs, ∀ clearing, r.stdout .quiet clearing = ""

theorem Report.Mute.map_report {rs : List Report} (mute : Report.Mute rs) :
    Transcript.Mute (rs.map .report) := by
  intro entry member
  obtain ⟨r, there, rfl⟩ := List.mem_map.1 member
  exact mute r there

namespace Command

/-- What a quiet console shows of a command. -/
def quietAnswer (clearing : String) : Command → String
  | help => "\n" ++ helpText ++ "\n"
  | clean => clearing
  | _ => ""

/-- Only `help` and `clean` tell the user something that a quiet console shows. -/
theorem mute_plan {command : Command} (no_help : command ≠ .help)
    (no_clean : command ≠ .clean) :
    Report.Mute command.plan.reports ∧ ∀ step ∈ command.plan.steps, Report.Mute step.reports :=
  forall_reports_plan (fun _ _ => rfl) (fun _ _ => rfl) (fun _ _ _ => rfl) (fun _ _ _ => rfl)
    (fun help => absurd help no_help) (fun clean => absurd clean no_clean)

end Command

theorem Step.mute_runAll {steps : List Step} (mute : ∀ step ∈ steps, Report.Mute step.reports)
    (s : σ) : (Step.runAll engine s steps).2.withoutLines.Mute := by
  have shown : ∀ entry ∈ (Step.runAll engine s steps).2,
      entry.isLine = false → ∀ clearing, entry.stdout .quiet clearing = "" := by
    refine Step.forall_mem_runAll (fun step member => ?_) s
    refine Step.forall_mem_run (fun r there _ => mute step member r there) (fun _ _ _ => rfl) ?_
      (fun _ _ _ => rfl)
    intro text line
    cases line
  intro entry member
  obtain ⟨there, kept⟩ := List.mem_filter.1 member
  exact shown entry there (by simpa using kept)

theorem Command.stdout_run_plan (clearing : String) (s : σ) (command : Command) :
    (command.plan.run engine s).2.withoutLines.stdout .quiet clearing =
      command.quietAnswer clearing := by
  by_cases asks : command = .help ∨ command = .clean
  · rcases asks with rfl | rfl
    · exact (Transcript.stdout_cons .quiet clearing (.report .help) []).trans String.append_empty
    · exact (Transcript.stdout_cons .quiet clearing (.report .clear) []).trans String.append_empty
  · obtain ⟨no_help, no_clean⟩ := not_or.1 asks
    have silent : command.quietAnswer clearing = "" := by
      cases command with
      | help => exact absurd rfl no_help
      | clean => exact absurd rfl no_clean
      | _ => rfl
    obtain ⟨opening, told⟩ := mute_plan no_help no_clean
    rw [silent, Plan.run, Transcript.withoutLines_append, Transcript.withoutLines_map_report]
    exact (opening.map_report.append (Step.mute_runAll told s)).stdout_eq clearing

namespace Session

/-- What a quiet console shows of a line: the help or the clearing of the screen if the line asks
for it, and nothing of any other line. -/
def quietAnswer (clearing line : String) : String :=
  match Command.ofWords (Text.words line) with
  | .ok command => command.quietAnswer clearing
  | .error _ => ""

variable (clearing : String)

theorem quietAnswer_of_endsSession (ends : endsSession line) : quietAnswer clearing line = "" := by
  rw [quietAnswer, Command.ofWords_eq_exit_iff.2 ends]
  rfl

theorem stdout_takeLine (s : σ) (line : String) :
    (takeLine engine s line).transcript.withoutLines.stdout .quiet clearing =
      quietAnswer clearing line := by
  have failure (error : CommandError) : Transcript.Mute [.report (.failure error)] :=
    Transcript.mute_report fun _ => rfl
  rw [quietAnswer]
  by_cases spoken : Text.hasWords line
  · rw [takeLine_of_hasWords spoken, process]
    cases Command.ofWords (Text.words line) with
    | error error => exact (failure error).stdout_eq clearing
    | ok command =>
      simp only [execute]
      cases command.plan.refusal? with
      | none => exact command.stdout_run_plan clearing s
      | some error =>
        rw [Transcript.withoutLines_append, Transcript.stdout_append,
          command.stdout_run_plan clearing s]
        have silent := (failure error).stdout_eq clearing
        exact (congrArg (command.quietAnswer clearing ++ ·) silent).trans String.append_empty
  · have none : Text.words line = [] := by simpa [Text.hasWords] using spoken
    rw [takeLine_of_blank spoken, none]
    rfl

/-- A quiet console shows the answers to the lines that are taken. -/
theorem stdout_runLines (s : σ) (lines : List String) :
    (runLines engine s lines).transcript.withoutLines.stdout .quiet clearing =
      String.join ((taken lines).map (quietAnswer clearing)) := by
  induction lines generalizing s with
  | nil => rfl
  | cons line rest ih =>
    by_cases ends : endsSession line
    · rw [runLines_of_endsSession ends, taken_of_endsSession ends, List.map_singleton,
        quietAnswer_of_endsSession clearing ends]
      rfl
    · rw [runLines_of_not_endsSession ends, taken_of_not_endsSession ends, List.map_cons,
        String.join_cons, ← ih, ← stdout_takeLine clearing s line, ← Transcript.stdout_append,
        ← Transcript.withoutLines_append]
      rfl

/-- A quiet console shows a prompt in front of each line that is taken and the answer to it, and a
prompt and a newline at the end of the input if no line has stopped the dialogue. -/
theorem stdout_interactLines (prompt : String) (s : σ) (lines : List (List UInt8)) :
    let texts := lines.map Utf8.decodeLossy
    (interactLines engine prompt s lines).transcript.withoutLines.stdout .quiet clearing =
      String.join ((taken texts).map fun line => prompt ++ quietAnswer clearing line) ++
        if texts.any endsSession then "" else prompt ++ "\n" := by
  have prompted (outcome : Outcome σ) :
      (outcome.after prompt).transcript.withoutLines.stdout .quiet clearing =
        prompt ++ outcome.transcript.withoutLines.stdout .quiet clearing :=
    Transcript.stdout_cons .quiet clearing (.prompt prompt) _
  induction lines generalizing s with
  | nil =>
    have ended :
        ((Outcome.start s).after "\n").transcript.withoutLines.stdout .quiet clearing = "\n" :=
      (Transcript.stdout_cons .quiet clearing (.prompt "\n") []).trans String.append_empty
    rw [interactLines, answer, prompted, ended]
    simp [taken]
  | cons line rest ih =>
    simp only [List.map_cons]
    by_cases ends : endsSession (Utf8.decodeLossy line)
    · rw [interactLines_of_endsSession ends, prompted, stdout_takeLine, taken_of_endsSession ends,
        List.any_cons, ends]
      simp
    · rw [interactLines_of_not_endsSession ends, Outcome.followedBy,
        Transcript.withoutLines_append, Transcript.stdout_append, prompted, stdout_takeLine, ih,
        taken_of_not_endsSession ends, List.any_cons, Bool.of_not_eq_true ends]
      simp [String.append_assoc]

end Session

end TableShell
