import Mathlib.Data.List.Basic
import TableShell.Command.Reader

/-!
# The forms of a command

Control words are obeyed wherever they stand. Without one of them the verb decides which shape
the words have to have, and each shape is spelled out by one constructor of `Shape`. A list of words
is read as a command exactly if it has one of the forms of that command (`ofWords_eq_ok_iff`).

## Main definitions

- `Command.controlWords`: the words that are obeyed wherever they stand
- `Command.Shape`, `Command.Form`: the words that stand for a command
-/

namespace TableShell.Command

open Text (unwords isCasingOf)

/-- The words that are obeyed wherever they stand. -/
def controlWords : List String := exitWords ++ [cleanWord, helpWord]

/-- The shapes of the commands that begin with a verb. -/
inductive Shape : List String → Command → Prop
  | getAll {verb fields} (cased : isCasingOf "get" verb)
      (unmarked : ∀ w ∈ fields, w ∉ scopeMarkers) :
      Shape (verb :: fields) (.get fields Scope.allWord)
  /-- A marker directly behind the verb and nothing else: the scope begins with the verb. -/
  | getBare {verb marker} (cased : isCasingOf "get" verb) (marked : marker ∈ scopeMarkers) :
      Shape [verb, marker] (.get [] (unwords [verb, marker]))
  | getIn {verb fields first last} (cased : isCasingOf "get" verb)
      (marked : ∃ w ∈ fields ++ [first, last], w ∈ scopeMarkers) :
      Shape (verb :: (fields ++ [first, last])) (.get fields (unwords [first, last]))
  | update {verb old separator new marker files} (cased : isCasingOf "update" verb)
      (placed : isSeparator separator ∨ isMarker marker) :
      Shape (verb :: old :: separator :: new :: marker :: files)
        (.update old new (unwords (marker :: files)))
  | copy {verb keyColumn source separator target marker files} (cased : isCasingOf "copy" verb)
      (placed : isSeparator separator ∨ isMarker marker) :
      Shape (verb :: keyColumn :: source :: separator :: target :: marker :: files)
        (.copy keyColumn source target (unwords (marker :: files)))

/-- The forms of all commands. Among the control words those that end the session come first, then
the one that clears the screen. -/
inductive Form (ws : List String) : Command → Prop
  | blank (empty : ws = []) : Form ws .blank
  | exit (said : ∃ w ∈ ws, w ∈ exitWords) : Form ws .exit
  | clean (stays : ∀ w ∈ ws, w ∉ exitWords) (said : cleanWord ∈ ws) : Form ws .clean
  | help (stays : ∀ w ∈ ws, w ∉ exitWords) (unclean : cleanWord ∉ ws) (said : helpWord ∈ ws) :
      Form ws .help
  | verb {command : Command} (plain : ∀ w ∈ ws, w ∉ controlWords) (shape : Shape ws command) :
      Form ws command

variable {verb marker : String} {ws fields : List String} {command : Command}

theorem forall_not_control_iff :
    (∀ w ∈ ws, w ∉ controlWords) ↔
      (∀ w ∈ ws, w ∉ exitWords) ∧ cleanWord ∉ ws ∧ helpWord ∉ ws := by
  constructor
  · intro plain
    have clean : cleanWord ∈ controlWords := by decide
    have help : helpWord ∈ controlWords := by decide
    exact ⟨fun w member exits => plain w member (List.mem_append_left _ exits),
      fun said => plain _ said clean, fun said => plain _ said help⟩
  · rintro ⟨stays, unclean, helpless⟩ w member control
    obtain exits | others := List.mem_append.1 control
    · exact stays w member exits
    · obtain rfl | rfl : w = cleanWord ∨ w = helpWord := by simpa using others
      · exact unclean member
      · exact helpless member

/-- Two keywords are not casings of the same word. -/
theorem not_isCasingOf_of_ne {keyword other word : String} (cased : isCasingOf keyword word)
    (ne : keyword ≠ other) : isCasingOf other word = false := by
  have folded : word.toLower = keyword := by simpa [isCasingOf] using cased
  simpa [isCasingOf, folded] using ne

theorem not_marker_of_get (cased : isCasingOf "get" verb) : verb ∉ scopeMarkers := by
  intro marked
  obtain rfl | rfl : verb = "in" ∨ verb = "except" := by simpa [scopeMarkers] using marked
  · exact absurd cased (by decide +kernel)
  · exact absurd cased (by decide +kernel)

theorem any_marker_iff : ws.any scopeMarkers.contains ↔ ∃ w ∈ ws, w ∈ scopeMarkers := by
  simp only [List.any_eq_true, List.contains_iff_mem]

theorem getOfWords_of_unmarked (unmarked : ∀ w ∈ verb :: fields, w ∉ scopeMarkers) :
    getOfWords (verb :: fields) = .get fields Scope.allWord := by
  have silent : ¬ (verb :: fields).any scopeMarkers.contains := by
    rw [any_marker_iff]
    rintro ⟨w, member, marked⟩
    exact unmarked w member marked
  rw [getOfWords, if_neg silent, List.drop_one, List.tail_cons]

private theorem getOfWords_pair (marked : marker ∈ scopeMarkers) :
    getOfWords [verb, marker] = .get [] (unwords [verb, marker]) := by
  have heard : [verb, marker].any scopeMarkers.contains :=
    any_marker_iff.2 ⟨marker, by simp, marked⟩
  rw [getOfWords, if_pos heard]
  rfl

theorem getOfWords_scoped {first last : String}
    (marked : ∃ w ∈ fields ++ [first, last], w ∈ scopeMarkers) :
    getOfWords (verb :: (fields ++ [first, last])) = .get fields (unwords [first, last]) := by
  obtain ⟨w, member, marks⟩ := marked
  have heard : (verb :: (fields ++ [first, last])).any scopeMarkers.contains :=
    any_marker_iff.2 ⟨w, List.mem_cons_of_mem _ member, marks⟩
  have front : (verb :: (fields ++ [first, last])).dropLast.dropLast = verb :: fields := by
    rw [← List.cons_append, show [first, last] = [first] ++ [last] from rfl, ← List.append_assoc,
      List.dropLast_concat, List.dropLast_concat]
  rw [getOfWords, if_pos heard, front]
  simp

/-- A search always has one of its shapes. The last two words are the scope, so with a marker and
less than two words behind the verb the scope reaches back to the verb. -/
theorem shape_getOfWords (cased : isCasingOf "get" verb) (fields : List String) :
    Shape (verb :: fields) (getOfWords (verb :: fields)) := by
  have verb_unmarked := not_marker_of_get cased
  by_cases marked : ∃ w ∈ fields, w ∈ scopeMarkers
  · obtain rfl | ⟨front, last, rfl⟩ := fields.eq_nil_or_concat'
    · simp at marked
    obtain rfl | ⟨front, first, rfl⟩ := front.eq_nil_or_concat'
    · have mark : last ∈ scopeMarkers := by simpa using marked
      rw [List.nil_append, getOfWords_pair mark]
      exact .getBare cased mark
    · rw [List.append_assoc, List.singleton_append] at marked ⊢
      rw [getOfWords_scoped marked]
      exact .getIn cased marked
  · have unmarked : ∀ w ∈ fields, w ∉ scopeMarkers := fun w member mark => marked ⟨w, member, mark⟩
    rw [getOfWords_of_unmarked (List.forall_mem_cons.2 ⟨verb_unmarked, unmarked⟩)]
    exact .getAll cased unmarked

private theorem shape_of_update (cased : isCasingOf "update" verb)
    (read : updateOfWords (verb :: fields) = .ok command) : Shape (verb :: fields) command := by
  unfold updateOfWords at read
  split at read
  next separator _ marker _ words =>
    obtain ⟨rfl, rfl⟩ := List.cons.inj words
    split at read
    next placed =>
      cases read
      exact .update cased (by simpa using placed)
    next => cases read
  next => cases read

private theorem shape_of_copy (cased : isCasingOf "copy" verb)
    (read : copyOfWords (verb :: fields) = .ok command) : Shape (verb :: fields) command := by
  unfold copyOfWords at read
  split at read
  next separator _ marker _ words =>
    obtain ⟨rfl, rfl⟩ := List.cons.inj words
    split at read
    next placed =>
      cases read
      exact .copy cased (by simpa using placed)
    next => cases read
  next => cases read

theorem ofWords_cons (verb : String) (fields : List String) :
    ofWords (verb :: fields) =
      if ∃ w ∈ verb :: fields, w ∈ exitWords then .ok .exit
      else if cleanWord ∈ verb :: fields then .ok .clean
      else if helpWord ∈ verb :: fields then .ok .help
      else if isCasingOf "get" verb then .ok (getOfWords (verb :: fields))
      else if isCasingOf "update" verb then updateOfWords (verb :: fields)
      else if isCasingOf "copy" verb then copyOfWords (verb :: fields)
      else .error (.unrecognized verb) := by
  simp only [ofWords, List.any_eq_true, List.contains_iff_mem]

theorem ofWords_of_shape (plain : ∀ w ∈ ws, w ∉ controlWords) (shape : Shape ws command) :
    ofWords ws = .ok command := by
  obtain ⟨stays, unclean, helpless⟩ := forall_not_control_iff.1 plain
  have silent : ¬∃ w ∈ ws, w ∈ exitWords := fun ⟨w, member, exits⟩ => stays w member exits
  cases shape with
  | @getAll verb fields cased unmarked =>
    have unmarked : ∀ w ∈ verb :: fields, w ∉ scopeMarkers :=
      List.forall_mem_cons.2 ⟨not_marker_of_get cased, unmarked⟩
    rw [ofWords_cons, if_neg silent, if_neg unclean, if_neg helpless, if_pos cased,
      getOfWords_of_unmarked unmarked]
  | getBare cased marked =>
    rw [ofWords_cons, if_neg silent, if_neg unclean, if_neg helpless, if_pos cased,
      getOfWords_pair marked]
  | getIn cased marked =>
    rw [ofWords_cons, if_neg silent, if_neg unclean, if_neg helpless, if_pos cased,
      getOfWords_scoped marked]
  | update cased placed =>
    -- The verbs are asked for in turn, so those in front of this one have to be ruled out.
    have other := not_isCasingOf_of_ne cased (show "update" ≠ "get" by decide)
    rw [ofWords_cons, if_neg silent, if_neg unclean, if_neg helpless, other,
      if_neg Bool.false_ne_true, if_pos cased, updateOfWords, if_pos (by simpa using placed)]
  | copy cased placed =>
    have other := not_isCasingOf_of_ne cased (show "copy" ≠ "get" by decide)
    have another := not_isCasingOf_of_ne cased (show "copy" ≠ "update" by decide)
    rw [ofWords_cons, if_neg silent, if_neg unclean, if_neg helpless, other,
      if_neg Bool.false_ne_true, another, if_neg Bool.false_ne_true, if_pos cased, copyOfWords,
      if_pos (by simpa using placed)]

theorem form_of_ofWords (read : ofWords ws = .ok command) : Form ws command := by
  cases ws with
  | nil =>
    cases read
    exact .blank rfl
  | cons verb fields =>
    rw [ofWords_cons] at read
    split_ifs at read with exits cleans helps get update copy
    · cases read
      exact .exit exits
    all_goals have stays : ∀ w ∈ verb :: fields, w ∉ exitWords := by simpa using exits
    · cases read
      exact .clean stays cleans
    · cases read
      exact .help stays cleans helps
    all_goals have plain := forall_not_control_iff.2 ⟨stays, cleans, helps⟩
    · cases read
      exact .verb plain (shape_getOfWords get fields)
    · exact .verb plain (shape_of_update update read)
    · exact .verb plain (shape_of_copy copy read)

/-- Words are read as a command exactly if they have one of its forms. -/
theorem ofWords_eq_ok_iff : ofWords ws = .ok command ↔ Form ws command := by
  refine ⟨form_of_ofWords, fun form => ?_⟩
  cases form with
  | blank empty => rw [empty, ofWords]
  | exit said =>
    have nonempty := List.ne_nil_of_mem said.choose_spec.1
    obtain ⟨verb, fields, rfl⟩ := List.exists_cons_of_ne_nil nonempty
    rw [ofWords_cons, if_pos said]
  | clean stays said =>
    obtain ⟨verb, fields, rfl⟩ := List.exists_cons_of_ne_nil (List.ne_nil_of_mem said)
    rw [ofWords_cons, if_neg (by simpa using stays), if_pos said]
  | help stays unclean said =>
    obtain ⟨verb, fields, rfl⟩ := List.exists_cons_of_ne_nil (List.ne_nil_of_mem said)
    rw [ofWords_cons, if_neg (by simpa using stays), if_neg unclean, if_pos said]
  | verb plain shape => exact ofWords_of_shape plain shape

/-- Words are read as `exit` if and only if one of them is an exit word. -/
theorem ofWords_eq_exit_iff : ofWords ws = .ok .exit ↔ ws.any exitWords.contains := by
  rw [ofWords_eq_ok_iff, List.any_eq_true]
  simp only [List.contains_iff_mem]
  constructor
  · intro form
    cases form with
    | exit said => exact said
    | verb _ shape => cases shape
  · exact .exit

end TableShell.Command
