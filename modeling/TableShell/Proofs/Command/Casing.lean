import TableShell.Proofs.Command.Form

/-!
# Casings of keywords

In the lines of `update` and `copy` there are three places where a keyword is recognised in any
casing: that of the verb, that of the separator, and that of the marker in front of the files. Lines
that differ in the casing of these keywords are refused for the same reason or stand for the same
command, up to the casing of the marker in the text of the scope (`readAlike_of_recased`).

## Main definitions

- `Command.EditVerb`, `Command.EditVerb.keywordsAt`: the verbs and the places of the keywords
- `Command.IsRecasing`, `Command.Recased`: words and lines that differ in casings only
- `Command.ReadAlike`: what such lines are read as
-/

namespace TableShell.Command

open Text (isCasingOf unwords)

/-- The verbs of the commands that change tables. -/
inductive EditVerb where
  | update
  | copy
deriving DecidableEq, Repr

namespace EditVerb

def word : EditVerb → String
  | update => "update"
  | copy => "copy"

/-- The keywords that are recognised, in any casing, at a place of a line with the verb. -/
def keywordsAt : EditVerb → Nat → List String
  | update, 0 => ["update"]
  | update, 2 => ["to"]
  | update, 4 => scopeMarkers
  | copy, 0 => ["copy"]
  | copy, 3 => ["to"]
  | copy, 5 => scopeMarkers
  | _, _ => []

/-- How the words of a line with the verb are read, if none of them is a control word. -/
def read : EditVerb → List String → Except CommandError Command
  | update => updateOfWords
  | copy => copyOfWords

end EditVerb

/-- The same word, or another casing of the same one of some keywords. -/
def IsRecasing (keywords : List String) (w w' : String) : Prop :=
  w' = w ∨ ∃ keyword ∈ keywords, w.toLower = keyword ∧ w'.toLower = keyword

/-- The same words from a place on, up to the casing of the keywords at their places. -/
inductive Recased (keywords : Nat → List String) : Nat → List String → List String → Prop
  | nil {place} : Recased keywords place [] []
  | cons {place w w' ws ws'} (word : IsRecasing (keywords place) w w')
      (rest : Recased keywords (place + 1) ws ws') : Recased keywords place (w :: ws) (w' :: ws')

/-- The same refusal, or the same command up to the casing of the marker in front of its files. -/
inductive ReadAlike : Except CommandError Command → Except CommandError Command → Prop
  | same (result) : ReadAlike result result
  | update {old new marker marker' files} (marks : IsRecasing scopeMarkers marker marker') :
      ReadAlike (.ok (.update old new (unwords (marker :: files))))
        (.ok (.update old new (unwords (marker' :: files))))
  | copy {keyColumn source target marker marker' files}
      (marks : IsRecasing scopeMarkers marker marker') :
      ReadAlike (.ok (.copy keyColumn source target (unwords (marker :: files))))
        (.ok (.copy keyColumn source target (unwords (marker' :: files))))

variable {w w' c : String} {ws ws' : List String}

/-! ### Words -/

theorem isRecasing_nil : IsRecasing [] w w' ↔ w' = w := by
  simp [IsRecasing]

theorem IsRecasing.isCasingOf_iff {keyword : String} {keywords : List String}
    (recasing : IsRecasing keywords w w') : isCasingOf keyword w' = isCasingOf keyword w := by
  rcases recasing with rfl | ⟨_, -, lower, lower'⟩
  · rfl
  · rw [isCasingOf, isCasingOf, lower, lower']

theorem IsRecasing.isSeparator_eq {keywords : List String} (recasing : IsRecasing keywords w w') :
    isSeparator w' = isSeparator w :=
  recasing.isCasingOf_iff

theorem IsRecasing.isMarker_eq {keywords : List String} (recasing : IsRecasing keywords w w') :
    isMarker w' = isMarker w := by
  simp only [isMarker, recasing.isCasingOf_iff]

theorem keywordsAt_update_behind (n : Nat) : EditVerb.update.keywordsAt (5 + n) = [] := by
  rw [Nat.add_comm]
  rfl

theorem keywordsAt_copy_behind (n : Nat) : EditVerb.copy.keywordsAt (6 + n) = [] := by
  rw [Nat.add_comm]
  rfl

/-- No keyword is a control word, in whatever casing. -/
theorem toLower_ne_of_mem_keywordsAt (verb : EditVerb) (place : Nat) :
    ∀ keyword ∈ verb.keywordsAt place, ∀ c ∈ controlWords, c.toLower ≠ keyword := by
  unfold EditVerb.keywordsAt
  split <;> decide +kernel

/-! ### Lines -/

namespace Recased

variable {keywords : Nat → List String} {place : Nat}

/-- Behind the last keyword the words are the same. -/
theorem eq_of_no_keywords (recased : Recased keywords place ws ws')
    (none : ∀ n, keywords (place + n) = []) : ws' = ws := by
  induction recased with
  | nil => rfl
  | @cons place w w' ws ws' word rest ih =>
    have here : w' = w := isRecasing_nil.1 (none 0 ▸ word)
    have later : ws' = ws := ih fun n => by rw [Nat.add_assoc, none]
    rw [here, later]

/-- Words that are no casing of a keyword are the same at all places. -/
theorem mem_iff (recased : Recased keywords place ws ws')
    (apart : ∀ place, ∀ keyword ∈ keywords place, c.toLower ≠ keyword) : c ∈ ws' ↔ c ∈ ws := by
  induction recased with
  | nil => exact Iff.rfl
  | @cons place w w' ws ws' word rest ih =>
    rw [List.mem_cons, List.mem_cons, ih]
    refine or_congr_left ?_
    rcases word with rfl | ⟨keyword, key, lower, lower'⟩
    · exact Iff.rfl
    · constructor
      · rintro rfl
        exact absurd lower' (apart place keyword key)
      · rintro rfl
        exact absurd lower (apart place keyword key)

theorem mem_iff_of_control {verb : EditVerb} (recased : Recased verb.keywordsAt place ws ws')
    (control : c ∈ controlWords) : c ∈ ws' ↔ c ∈ ws :=
  recased.mem_iff fun place keyword key =>
    toLower_ne_of_mem_keywordsAt verb place keyword key c control

end Recased

/-- The words behind the verb are looked at only if there is no control word. -/
theorem ofWords_of_editVerb {verb : EditVerb} (cased : isCasingOf verb.word w) (ws : List String) :
    ofWords (w :: ws) =
      if ∃ c ∈ w :: ws, c ∈ exitWords then .ok .exit
      else if cleanWord ∈ w :: ws then .ok .clean
      else if helpWord ∈ w :: ws then .ok .help
      else verb.read (w :: ws) := by
  rw [ofWords_cons]
  cases verb with
  | update =>
    have cased : isCasingOf "update" w := cased
    have other := not_isCasingOf_of_ne cased (show "update" ≠ "get" by decide)
    rw [other, if_neg Bool.false_ne_true, if_pos cased]
    rfl
  | copy =>
    have cased : isCasingOf "copy" w := cased
    have other := not_isCasingOf_of_ne cased (show "copy" ≠ "get" by decide)
    have another := not_isCasingOf_of_ne cased (show "copy" ≠ "update" by decide)
    rw [other, if_neg Bool.false_ne_true, another, if_neg Bool.false_ne_true, if_pos cased]
    rfl

/-- Both the separator and the marker are recognised in any casing, and all words but these and the
verb are the same. -/
theorem readAlike_updateOfWords (recased : Recased EditVerb.update.keywordsAt 0 ws ws') :
    ReadAlike (updateOfWords ws) (updateOfWords ws') := by
  rcases recased with _ | ⟨-, _ | ⟨old, _ | ⟨separates, _ | ⟨new, _ | ⟨marks, rest⟩⟩⟩⟩⟩
  iterate 5 exact .same _
  obtain rfl := isRecasing_nil.1 old
  obtain rfl := isRecasing_nil.1 new
  obtain rfl := rest.eq_of_no_keywords keywordsAt_update_behind
  rw [updateOfWords, updateOfWords, separates.isSeparator_eq, marks.isMarker_eq]
  split
  · exact .update marks
  · exact .same _

theorem readAlike_copyOfWords (recased : Recased EditVerb.copy.keywordsAt 0 ws ws') :
    ReadAlike (copyOfWords ws) (copyOfWords ws') := by
  rcases recased with
    _ | ⟨-, _ | ⟨keyColumn, _ | ⟨source, _ | ⟨separates, _ | ⟨target, _ | ⟨marks, rest⟩⟩⟩⟩⟩⟩
  iterate 6 exact .same _
  obtain rfl := isRecasing_nil.1 keyColumn
  obtain rfl := isRecasing_nil.1 source
  obtain rfl := isRecasing_nil.1 target
  obtain rfl := rest.eq_of_no_keywords keywordsAt_copy_behind
  rw [copyOfWords, copyOfWords, separates.isSeparator_eq, marks.isMarker_eq]
  split
  · exact .copy marks
  · exact .same _

/-- Lines with the same words, up to the casing of their keywords, are read alike. -/
theorem readAlike_of_recased {verb : EditVerb} (said : ∃ w ∈ ws.head?, w.toLower = verb.word)
    (recased : Recased verb.keywordsAt 0 ws ws') : ReadAlike (ofWords ws) (ofWords ws') := by
  have edits : ReadAlike (verb.read ws) (verb.read ws') := by
    cases verb with
    | update => exact readAlike_updateOfWords recased
    | copy => exact readAlike_copyOfWords recased
  have exits : (∃ c ∈ ws', c ∈ exitWords) ↔ ∃ c ∈ ws, c ∈ exitWords := by
    refine exists_congr fun c => and_congr_left fun exits => ?_
    exact recased.mem_iff_of_control (List.mem_append_left _ exits)
  have cleans : cleanWord ∈ ws' ↔ cleanWord ∈ ws := recased.mem_iff_of_control (by decide)
  have helps : helpWord ∈ ws' ↔ helpWord ∈ ws := recased.mem_iff_of_control (by decide)
  cases recased with
  | nil => exact .same _
  | @cons _ w w' ws ws' word rest =>
    have cased : isCasingOf verb.word w := by simpa [isCasingOf] using said
    have cased' : isCasingOf verb.word w' := word.isCasingOf_iff.trans cased
    simp only [ofWords_of_editVerb cased, ofWords_of_editVerb cased', exits, cleans, helps]
    split_ifs
    · exact .same _
    · exact .same _
    · exact .same _
    · exact edits

end TableShell.Command
