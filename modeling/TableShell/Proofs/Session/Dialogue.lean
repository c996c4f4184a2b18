import TableShell.Proofs.Session.Lines
import TableShell.Proofs.Session.Steps

/-!
# Dialogues

A dialogue over a sequence of bytes is the session over the lines of the text that the bytes stand
for, with a prompt in front of each line that is taken and, if no line has stopped it, a prompt and
a newline at the end (`interact_agrees_with_runLines`).

## Main definitions

- `Entry.isPrompt`, `Transcript.withoutPrompts`: what happens besides the prompts
- `Transcript.PromptFree`: that there are no prompts
-/

namespace TableShell

/-- Whether an entry is text of the dialogue. -/
def Entry.isPrompt : Entry → Bool
  | prompt _ => true
  | _ => false

namespace Transcript

variable {first second : Transcript}

/-- All that happens besides the text of the dialogue. -/
def withoutPrompts (transcript : Transcript) : Transcript :=
  transcript.filter (! ·.isPrompt)

/-- There is no text of a dialogue. -/
def PromptFree (transcript : Transcript) : Prop :=
  ∀ entry ∈ transcript, entry.isPrompt = false

theorem PromptFree.append (one : first.PromptFree) (two : second.PromptFree) :
    PromptFree (first ++ second) :=
  List.forall_mem_append.2 ⟨one, two⟩

theorem PromptFree.withoutPrompts_eq (free : first.PromptFree) : first.withoutPrompts = first := by
  rw [withoutPrompts, List.filter_eq_self]
  intro entry member
  rw [free entry member, Bool.not_false]

theorem PromptFree.prompts_eq (free : first.PromptFree) : first.prompts = "" := by
  rw [prompts, List.filterMap_eq_nil_iff.2]
  · rfl
  · intro entry member
    cases entry with
    | prompt text => cases free _ member
    | _ => rfl

private theorem promptFree_map_report (rs : List Report) : PromptFree (rs.map .report) := by
  simp [PromptFree, Entry.isPrompt]

theorem withoutPrompts_append (first second : Transcript) :
    withoutPrompts (first ++ second) = first.withoutPrompts ++ second.withoutPrompts :=
  List.filter_append first second

theorem prompts_append (first second : Transcript) :
    prompts (first ++ second) = first.prompts ++ second.prompts := by
  rw [prompts, List.filterMap_append, String.join_append]
  rfl

end Transcript

variable {σ : Type} {engine : Engine σ}

/-! ### What an engine is asked never prompts -/

theorem Step.promptFree_runAll (s : σ) (steps : List Step) :
    (Step.runAll engine s steps).2.PromptFree :=
  Step.forall_mem_runAll (fun _ _ => Step.forall_mem_run (fun _ _ => rfl) (fun _ => rfl)
    (fun _ => rfl) (fun _ => rfl)) s

theorem Plan.promptFree_run (s : σ) (plan : Plan) : (plan.run engine s).2.PromptFree :=
  (Transcript.promptFree_map_report _).append (Step.promptFree_runAll s plan.steps)

namespace Session

variable {prompt : String} {s : σ}

/-- An outcome without the text of the dialogue. -/
def Outcome.withoutPrompts (outcome : Outcome σ) : Outcome σ :=
  { outcome with transcript := outcome.transcript.withoutPrompts }

theorem promptFree_process (s : σ) (ws : List String) :
    (process engine s ws).transcript.PromptFree := by
  have failure (error : CommandError) : Transcript.PromptFree [.report (.failure error)] := by
    simp [Transcript.PromptFree, Entry.isPrompt]
  rw [process]
  split
  next error _ => exact failure error
  next command _ =>
    simp only [execute]
    split
    next error _ => exact (Plan.promptFree_run s _).append (failure _)
    next => exact Plan.promptFree_run s _

theorem promptFree_takeLine (s : σ) (line : String) :
    (takeLine engine s line).transcript.PromptFree := by
  by_cases spoken : Text.hasWords line
  · rw [takeLine_of_hasWords spoken]
    exact promptFree_process s _
  · rw [takeLine_of_blank spoken]
    exact List.forall_mem_nil _

theorem Outcome.withoutPrompts_takeLine (line : String) :
    (takeLine engine s line).withoutPrompts = takeLine engine s line := by
  rw [withoutPrompts, (promptFree_takeLine s line).withoutPrompts_eq]

theorem Outcome.withoutPrompts_after (text : String) (outcome : Outcome σ) :
    (outcome.after text).withoutPrompts = outcome.withoutPrompts := rfl

theorem Outcome.withoutPrompts_followedBy (first second : Outcome σ) :
    (first.followedBy second).withoutPrompts =
      first.withoutPrompts.followedBy second.withoutPrompts := by
  rw [withoutPrompts, followedBy, Transcript.withoutPrompts_append]
  rfl

/-! ### The lines of a dialogue -/

theorem interactLines_of_endsSession {line : List UInt8}
    (ends : endsSession (Utf8.decodeLossy line)) (rest : List (List UInt8)) :
    interactLines engine prompt s (line :: rest) =
      (takeLine engine s (Utf8.decodeLossy line)).after prompt := by
  rw [interactLines, answer, takeLine_of_endsSession ends]
  rfl

theorem interactLines_of_not_endsSession {line : List UInt8}
    (stays : ¬endsSession (Utf8.decodeLossy line)) (rest : List (List UInt8)) :
    interactLines engine prompt s (line :: rest) =
      ((takeLine engine s (Utf8.decodeLossy line)).after prompt).followedBy
        (interactLines engine prompt (takeLine engine s (Utf8.decodeLossy line)).state rest) := by
  rw [interactLines]
  simp only [answer, Outcome.after, stopped_takeLine, if_neg stays]

/-- The prompts apart, a dialogue is a session over the texts of its lines. -/
theorem withoutPrompts_interactLines (lines : List (List UInt8)) :
    (interactLines engine prompt s lines).withoutPrompts =
      runLines engine s (lines.map Utf8.decodeLossy) := by
  induction lines generalizing s with
  | nil => rfl
  | cons line rest ih =>
    by_cases ends : endsSession (Utf8.decodeLossy line)
    · rw [interactLines_of_endsSession ends, Outcome.withoutPrompts_after,
        Outcome.withoutPrompts_takeLine, List.map_cons, runLines_of_endsSession ends,
        takeLine_of_endsSession ends]
    · rw [interactLines_of_not_endsSession ends, Outcome.withoutPrompts_followedBy,
        Outcome.withoutPrompts_after, Outcome.withoutPrompts_takeLine, ih, List.map_cons,
        runLines_of_not_endsSession ends]

theorem prompts_after (text : String) (outcome : Outcome σ) :
    (outcome.after text).transcript.prompts = text ++ outcome.transcript.prompts :=
  String.join_cons

/-- There is a prompt in front of each line that is taken. If none of them stops the dialogue, the
end of the input comes after one more prompt and is answered with a newline. -/
theorem prompts_interactLines (lines : List (List UInt8)) :
    let texts := lines.map Utf8.decodeLossy
    (interactLines engine prompt s lines).transcript.prompts =
      String.join (List.replicate (taken texts).length prompt) ++
        if texts.any endsSession then "" else prompt ++ "\n" := by
  induction lines generalizing s with
  | nil =>
    have silent : (Outcome.start s).transcript.prompts = "" := rfl
    rw [interactLines, answer, prompts_after, prompts_after, silent]
    simp [taken]
  | cons line rest ih =>
    have silent : (takeLine engine s (Utf8.decodeLossy line)).transcript.prompts = "" :=
      (promptFree_takeLine s _).prompts_eq
    simp only [List.map_cons]
    by_cases ends : endsSession (Utf8.decodeLossy line)
    · rw [interactLines_of_endsSession ends, prompts_after, silent, taken_of_endsSession ends,
        List.any_cons, ends]
      simp
    · rw [interactLines_of_not_endsSession ends, Outcome.followedBy, Transcript.prompts_append,
        prompts_after, silent, ih, taken_of_not_endsSession ends, List.any_cons,
        Bool.of_not_eq_true ends]
      simp [List.replicate_succ, String.append_assoc]

/-- A dialogue over bytes goes like the session over the lines of their text: they end alike, and
what happens in the one besides the prompts happens in the other. The prompts are those in front of
the lines up to the first one with an exit word and, if there is none, a prompt and a newline at the
end of the input. -/
theorem interact_agrees_with_runLines (engine : Engine σ) (prompt : String) (s : σ)
    (input : List UInt8) :
    let dialogue := interact engine prompt s input
    let session := runLines engine s (Text.lines (Utf8.decodeLossy input))
    dialogue.summary = session.summary ∧ dialogue.state = session.state ∧
      dialogue.transcript.withoutPrompts = session.transcript ∧
      dialogue.transcript.prompts =
        String.join (List.replicate
          (taken ((Utf8.lines input).map Utf8.decodeLossy)).length prompt) ++
          if dialogue.summary.stopped then "" else prompt ++ "\n" := by
  intro dialogue session
  -- The lines of bytes need not be the lines of the text, but they have the same words.
  have lines_alike : runLines engine s ((Utf8.lines input).map Utf8.decodeLossy) = session :=
    runLines_eq_of_words (Utf8.words_lines_decodeLossy input)
  have alike : dialogue.withoutPrompts = session :=
    (withoutPrompts_interactLines (Utf8.lines input)).trans lines_alike
  rw [← alike]
  refine ⟨rfl, rfl, rfl, ?_⟩
  have stopped : dialogue.summary.stopped = session.summary.stopped := by
    rw [← alike]
    rfl
  rw [stopped, ← lines_alike, stopped_runLines]
  exact prompts_interactLines (Utf8.lines input)

end Session

end TableShell
