import TableShell.Text.Blank

/-!
# Words

A line is read as the list of its words: the longest pieces without a blank. Words
are written back with one space between neighbours.

## Main definitions

- `words`: the words of a text, from left to right
- `unwords`: the text that consists of the given words
-/

namespace TableShell.Text

/-- The words of a text: what stands between blanks, empty pieces left out. -/
def words (text : String) : List String :=
  ((text.toList.splitOnP isBlank).filter (! ·.isEmpty)).map String.ofList

/-- The words with one space between neighbours. -/
def unwords (ws : List String) : String :=
  " ".intercalate ws

/-- A word is not empty and has no blank. -/
def IsWord (w : String) : Prop :=
  w ≠ "" ∧ ∀ c ∈ w.toList, isBlank c = false

@[simp] theorem words_empty : words "" = [] := by
  simp [words, List.splitOnP_nil]

@[simp] theorem unwords_nil : unwords [] = "" := rfl

end TableShell.Text
