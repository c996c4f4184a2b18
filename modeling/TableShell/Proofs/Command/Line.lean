import TableShell.Command.Printer
import TableShell.Proofs.Command.Form
import TableShell.Proofs.Text.Words

/-!
# Reading back canonical lines

The canonical line of a command is read as that command, whatever the words were that the command
was read from (`ofWords_words_line`). The scope of a command is itself a text of several words, so
its words reappear behind the other ones, and a canonical line has no word that is neither a keyword
nor one of the words that were read.

## Main definitions

- `Command.keywords`: the words that canonical lines add
-/

namespace TableShell.Command

open Text (IsWord isCasingOf unwords words)

variable {ws : List String} {command : Command}

/-- The words of canonical lines that do not stem from the words that were read. -/
def keywords : List String := ["get", "update", "copy", "to"]

private theorem isWord_of_mem_keywords {w : String} (key : w ∈ keywords) : IsWord w := by
  revert w
  decide

private theorem not_control_of_mem_keywords {w : String} (key : w ∈ keywords) :
    w ∉ controlWords := by
  revert w
  decide

/-- A scope of two words is not that of a search of every file. -/
theorem unwords_pair_ne_allWord (first last : String) : unwords [first, last] ≠ Scope.allWord := by
  intro same
  have spaced : ' ' ∈ (unwords [first, last]).toList := by simp [unwords]
  rw [same] at spaced
  exact absurd spaced (by decide)

/-- The canonical line ends in a text of words. Together with the words in front of it they have a
shape of the same command, and all of them are keywords or words that were read. -/
theorem Shape.exists_line_eq (shape : Shape ws command) :
    ∃ front rest, command.line = unwords (front ++ [unwords rest]) ∧
      Shape (front ++ rest) command ∧ ∀ w ∈ front ++ rest, w ∈ keywords ∨ w ∈ ws := by
  have get : isCasingOf "get" "get" := by decide +kernel
  have update : isCasingOf "update" "update" := by decide +kernel
  have copy : isCasingOf "copy" "copy" := by decide +kernel
  have separates : isSeparator "to" := by decide +kernel
  cases shape with
  | @getAll verb fields cased unmarked =>
    refine ⟨[], "get" :: fields, ?_, .getAll get unmarked, ?_⟩
    · rw [line, if_pos rfl, List.nil_append]
      rfl
    · grind [keywords]
  | @getBare verb marker cased marked =>
    refine ⟨["get"], [verb, marker], ?_, .getIn get ⟨marker, by simp, marked⟩, ?_⟩
    · rw [line, if_neg (unwords_pair_ne_allWord verb marker), List.singleton_append]
    · grind [keywords]
  | @getIn verb fields first last cased marked =>
    refine ⟨"get" :: fields, [first, last], ?_, .getIn get marked, ?_⟩
    · rw [line, if_neg (unwords_pair_ne_allWord first last)]
    · grind [keywords]
  | @update verb old separator new marker files cased placed =>
    refine ⟨["update", old, "to", new], marker :: files, rfl, .update update (.inl separates), ?_⟩
    grind [keywords]
  | @copy verb keyColumn source separator target marker files cased placed =>
    refine ⟨["copy", keyColumn, source, "to", target], marker :: files, rfl,
      .copy copy (.inl separates), ?_⟩
    grind [keywords]

/-- The canonical line of a command that begins with a verb is read as that command. -/
theorem form_words_line_of_shape (plain : ∀ w ∈ ws, w ∉ controlWords) (shape : Shape ws command)
    (spoken : ∀ w ∈ ws, IsWord w) : Form (words command.line) command := by
  obtain ⟨front, rest, line_eq, canonical, origin⟩ := shape.exists_line_eq
  have spoken : ∀ w ∈ front ++ rest, IsWord w := fun w member =>
    (origin w member).elim isWord_of_mem_keywords (spoken w)
  have plain : ∀ w ∈ front ++ rest, w ∉ controlWords := fun w member =>
    (origin w member).elim not_control_of_mem_keywords (plain w)
  rw [line_eq, Text.words_unwords_concat spoken]
  exact .verb plain canonical

/-- Words that are read as a command may be replaced by the words of its canonical line. -/
theorem ofWords_words_line (spoken : ∀ w ∈ ws, IsWord w) (read : ofWords ws = .ok command) :
    ofWords (words command.line) = .ok command := by
  rw [ofWords_eq_ok_iff] at read ⊢
  cases read with
  | blank => exact .blank Text.words_empty
  | exit =>
    rw [line, Text.words_of_isWord (by decide)]
    exact .exit (by decide)
  | clean =>
    rw [line, Text.words_of_isWord (by decide)]
    exact .clean (by decide) (by decide)
  | help =>
    rw [line, Text.words_of_isWord (by decide)]
    exact .help (by decide) (by decide) (by decide)
  | verb plain shape => exact form_words_line_of_shape plain shape spoken

/-- A search whose scope reaches back to the verb, and an update without a separator. -/
theorem ofWords_words_line_of_marker :
    (∀ w ∈ ["GET", "in"], IsWord w) ∧
      ofWords ["GET", "in"] = .ok (.get [] "GET in") ∧
      ofWords (words (line (.get [] "GET in"))) = .ok (.get [] "GET in") ∧
      (∀ w ∈ ["Update", "a", "into", "b", "IN", "x", "y"], IsWord w) ∧
      ofWords ["Update", "a", "into", "b", "IN", "x", "y"] = .ok (.update "a" "b" "IN x y") ∧
      ofWords (words (line (.update "a" "b" "IN x y"))) = .ok (.update "a" "b" "IN x y") := by
  have search : ∀ w ∈ ["GET", "in"], IsWord w := by decide
  have searched : ofWords ["GET", "in"] = .ok (.get [] "GET in") := by decide +kernel
  have update : ∀ w ∈ ["Update", "a", "into", "b", "IN", "x", "y"], IsWord w := by decide
  have updated : ofWords ["Update", "a", "into", "b", "IN", "x", "y"] =
      .ok (.update "a" "b" "IN x y") := by decide +kernel
  exact ⟨search, searched, ofWords_words_line search searched, update, updated,
    ofWords_words_line update updated⟩

end TableShell.Command
