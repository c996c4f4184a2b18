import TableShell.Text.Words

/-!
# Words of joined texts

A blank keeps the words on its two sides apart, so the words of texts that are joined by spaces are
the words of the texts, one text after the other (`words_unwords`). A list of words is the list of
words of its join (`words_unwords_of_isWord`), and the words of any text are such a list
(`isWord_of_mem_words`).
-/

namespace TableShell.Text

variable {w : String} {ws : List String}

-- The characters of the word are looked at, not all characters that there are.
instance (w : String) : Decidable (IsWord w) :=
  decidable_of_iff (w ≠ "" ∧ w.toList.all (! isBlank ·)) (by simp [IsWord])

/-- A blank keeps the words in front of it apart from those behind it. -/
theorem words_append_blank {c : Char} (blank : isBlank c) (front rest : List Char) :
    words (String.ofList (front ++ c :: rest)) =
      words (String.ofList front) ++ words (String.ofList rest) := by
  simp only [words, String.toList_ofList, List.splitOnP_append_cons front rest blank,
    List.filter_append, List.map_append]

theorem words_append_space (front rest : String) :
    words (front ++ " " ++ rest) = words front ++ words rest := by
  have space : isBlank ' ' := by decide
  have cut : front ++ " " ++ rest = String.ofList (front.toList ++ ' ' :: rest.toList) := by
    simp [← String.toList_inj]
  rw [cut, words_append_blank space, String.ofList_toList, String.ofList_toList]

/-- No piece of a list that is cut at some elements has such an element. -/
theorem forall_not_of_mem_splitOnP {α : Type} {p : α → Bool} {xs piece : List α}
    (member : piece ∈ xs.splitOnP p) : ∀ x ∈ piece, p x = false := by
  induction xs generalizing piece with
  | nil =>
    obtain rfl : piece = [] := by simpa [List.splitOnP_nil] using member
    exact List.forall_mem_nil _
  | cons x xs ih =>
    rw [List.splitOnP_cons_eq_if_modifyHead] at member
    split at member
    next cut =>
      rcases List.mem_cons.1 member with rfl | later
      · exact List.forall_mem_nil _
      · exact ih later
    next uncut =>
      -- The element is put in front of the first piece of the rest.
      obtain ⟨first, others, pieces⟩ := List.exists_cons_of_ne_nil (List.splitOnP_ne_nil p xs)
      rw [pieces] at ih member
      rcases List.mem_cons.1 member with rfl | later
      · exact List.forall_mem_cons.2 ⟨Bool.eq_false_iff.2 uncut, ih List.mem_cons_self⟩
      · exact ih (List.mem_cons_of_mem first later)

theorem isWord_of_mem_words {text : String} (member : w ∈ words text) : IsWord w := by
  obtain ⟨piece, kept, rfl⟩ := List.mem_map.1 member
  obtain ⟨cut, nonempty⟩ := List.mem_filter.1 kept
  constructor
  · rw [ne_eq, String.ofList_eq_empty_iff]
    simpa using nonempty
  · rw [String.toList_ofList]
    exact forall_not_of_mem_splitOnP cut

theorem words_of_isWord (word : IsWord w) : words w = [w] := by
  obtain ⟨nonempty, solid⟩ := word
  rw [words, List.splitOnP_eq_singleton solid]
  simp [nonempty]

theorem words_unwords (texts : List String) : words (unwords texts) = texts.flatMap words := by
  induction texts with
  | nil => rw [unwords_nil, words_empty, List.flatMap_nil]
  | cons text rest ih =>
    cases rest with
    | nil => simp [unwords]
    | cons next rest =>
      rw [unwords, String.intercalate_cons_cons, words_append_space, List.flatMap_cons, ← ih,
        unwords]

private theorem flatMap_words (spoken : ∀ w ∈ ws, IsWord w) : ws.flatMap words = ws := by
  induction ws with
  | nil => rfl
  | cons w ws ih =>
    obtain ⟨here, later⟩ := List.forall_mem_cons.1 spoken
    rw [List.flatMap_cons, words_of_isWord here, ih later, List.singleton_append]

theorem words_unwords_of_isWord (spoken : ∀ w ∈ ws, IsWord w) : words (unwords ws) = ws := by
  rw [words_unwords, flatMap_words spoken]

/-- Words in front of a text of words are its first words. -/
theorem words_unwords_concat {front rest : List String} (spoken : ∀ w ∈ front ++ rest, IsWord w) :
    words (unwords (front ++ [unwords rest])) = front ++ rest := by
  obtain ⟨before, behind⟩ := List.forall_mem_append.1 spoken
  rw [words_unwords, List.flatMap_append, flatMap_words before, List.flatMap_singleton,
    words_unwords_of_isWord behind]

/-! ### Casings -/

private theorem toLower_of_isBlank {c : Char} (blank : isBlank c) : c.toLower = c := by
  refine dif_neg ?_
  rintro ⟨ge, le⟩
  have ge : 65 ≤ c.toNat := UInt32.le_iff_toNat_le.1 ge
  have le : c.toNat ≤ 90 := UInt32.le_iff_toNat_le.1 le
  simp only [isBlank, blankRanges, List.any_cons, List.any_nil, Bool.or_eq_true, Bool.and_eq_true,
    decide_eq_true_eq, Bool.false_eq_true, or_false] at blank
  omega

/-- A casing of a word is a word. -/
theorem isWord_of_toLower (word : IsWord w.toLower) : IsWord w := by
  obtain ⟨nonempty, solid⟩ := word
  constructor
  · rintro rfl
    exact nonempty (by decide +kernel)
  · intro c member
    have spelled : w.toLower.toList = w.toList.map Char.toLower := String.toList_map
    have folded : c.toLower ∈ w.toLower.toList := spelled ▸ List.mem_map_of_mem member
    cases blank : isBlank c with
    | false => rfl
    | true =>
      have unblank := solid _ folded
      rw [toLower_of_isBlank blank, blank] at unblank
      cases unblank

end TableShell.Text
