import Mathlib.Data.List.Perm.Basic
import TableShell.Proofs.Text.ByteOrder
import TableShell.Proofs.Text.Words
import TableShell.Proofs.Workbook.Modify
import TableShell.Store.Engine

/-!
# The files of a scope

Every text is a scope, since a text that begins with neither a marker nor the word for all files is
one that lists the files that it means (`select_eq`). So what a text stands for is a part of the
known files, in their order, and it depends on nothing but the first word and on which words follow
(`scopes_select_known_files`).

## Main definitions

- `Scope.ofWords`: the scope of any list of words
-/

namespace TableShell

open Text (IsWord unwords words)

namespace Scope

variable {marker word file : String} {ws ws' : List String}

/-- The scope that a list of words stands for. Words that begin with neither `allWord` nor a marker
are files themselves. -/
def ofWords (ws : List String) : Scope :=
  (ofWords? ws).getD (restricted .only ws)

theorem ofWords_nil : ofWords [] = restricted .only [] := rfl

theorem ofWords_all (ws : List String) : ofWords (allWord :: ws) = all := by
  rw [ofWords, ofWords?, if_pos rfl, Option.getD_some]

theorem ne_allWord (folded : marker.toLower = "in" ∨ marker.toLower = "except") :
    marker ≠ allWord := by
  rintro rfl
  exact absurd folded (by decide +kernel)

theorem ofMarker?_in (folded : marker.toLower = "in") : Mode.ofMarker? marker = some .only := by
  simp [Mode.ofMarker?, Text.isCasingOf, folded]

theorem ofMarker?_except (folded : marker.toLower = "except") :
    Mode.ofMarker? marker = some .except := by
  simp [Mode.ofMarker?, Text.isCasingOf, folded]

theorem ofMarker?_eq_none (other : word.toLower ≠ "in" ∧ word.toLower ≠ "except") :
    Mode.ofMarker? word = none := by
  simp [Mode.ofMarker?, Text.isCasingOf, other]

/-- The words behind the first one matter if that is a marker, and all words if it is an ordinary
one. -/
theorem ofWords_cons (ne : word ≠ allWord) (ws : List String) :
    ofWords (word :: ws) =
      match Mode.ofMarker? word with
      | some mode => restricted mode ws
      | none => restricted .only (word :: ws) := by
  rw [ofWords, ofWords?, if_neg ne]
  cases Mode.ofMarker? word with
  | none => rfl
  | some mode => rfl

theorem ofWords_in (folded : marker.toLower = "in") (ws : List String) :
    ofWords (marker :: ws) = restricted .only ws := by
  rw [ofWords_cons (ne_allWord (.inl folded)), ofMarker?_in folded]

theorem ofWords_except (folded : marker.toLower = "except") (ws : List String) :
    ofWords (marker :: ws) = restricted .except ws := by
  rw [ofWords_cons (ne_allWord (.inr folded)), ofMarker?_except folded]

/-- To put a marker in front of ordinary words changes nothing. -/
theorem ofWords_of_unmarked
    (unmarked : ∀ word, ws.head? = some word →
      word ≠ allWord ∧ word.toLower ≠ "in" ∧ word.toLower ≠ "except") :
    ofWords ws = restricted .only ws := by
  cases ws with
  | nil => exact ofWords_nil
  | cons word ws =>
    obtain ⟨ne, other⟩ := unmarked word rfl
    rw [ofWords_cons ne, ofMarker?_eq_none other]

private theorem includes_restricted_congr (mode : Mode) (same : ∀ word, word ∈ ws ↔ word ∈ ws')
    (file : String) :
    (restricted mode ws).includes file = (restricted mode ws').includes file := by
  have listed : ws.contains file = ws'.contains file := by
    rw [Bool.eq_iff_iff, List.contains_iff_mem, List.contains_iff_mem, same]
  cases mode with
  | only => exact listed
  | except => exact congrArg (! ·) listed

/-- What a scope includes depends on the first word and the set of the other words only. -/
theorem includes_ofWords_congr (first : ws.head? = ws'.head?)
    (rest : ∀ word, word ∈ ws.tail ↔ word ∈ ws'.tail) (file : String) :
    (ofWords ws).includes file = (ofWords ws').includes file := by
  cases ws with
  | nil =>
    have nothing : ws' = [] := List.head?_eq_none_iff.1 first.symm
    rw [nothing]
  | cons word ws =>
    obtain ⟨ws', rfl⟩ := List.head?_eq_some_iff.1 first.symm
    by_cases eq : word = allWord
    · rw [eq, ofWords_all, ofWords_all]
    · rw [ofWords_cons eq, ofWords_cons eq]
      cases Mode.ofMarker? word with
      | some mode => exact includes_restricted_congr mode rest file
      | none =>
        refine includes_restricted_congr .only (fun other => ?_) file
        rw [List.mem_cons, List.mem_cons]
        exact or_congr_right (rest other)

end Scope

namespace Store

variable {store : Store} {text text' name : String} {ws : List String}

/-- What a text stands for is what the scope of its words selects. -/
theorem select_eq (store : Store) (text : String) :
    store.select text = (Scope.ofWords (words text)).select store.book.names := by
  rw [select, Workbook.select, Scope.read?, Scope.ofWords]
  cases Scope.ofWords? (words text) with
  | some scope => rfl
  | none => rfl

theorem mem_select_iff : name ∈ store.select text ↔
    name ∈ store.book.names ∧ (Scope.ofWords (words text)).includes name := by
  rw [select_eq, Scope.select, List.mem_filter]

theorem pairwise_select (store : Store) (text : String) :
    (store.select text).Pairwise (· < ·) := by
  rw [select_eq]
  exact store.book.pairwise_names.filter _

theorem select_congr (first : (words text).head? = (words text').head?)
    (rest : ∀ word, word ∈ (words text).tail ↔ word ∈ (words text').tail) :
    store.select text = store.select text' := by
  rw [select_eq, select_eq]
  exact List.filter_congr fun file _ => Scope.includes_ofWords_congr first rest file

theorem select_of_unmarked
    (unmarked : ∀ word, (words text).head? = some word →
      word ≠ Scope.allWord ∧ word.toLower ≠ "in" ∧ word.toLower ≠ "except") :
    store.select text = store.select ("in " ++ text) := by
  have marked : words ("in " ++ text) = "in" :: words text := by
    have split : "in " ++ text = "in" ++ " " ++ text := rfl
    rw [split, Text.words_append_space, Text.words_of_isWord (by decide)]
    rfl
  rw [select_eq, select_eq, marked, Scope.ofWords_of_unmarked unmarked,
    Scope.ofWords_in (by decide +kernel)]

/-- The listed files and the others are the known files, each of them once. -/
theorem select_append_perm (store : Store) {marker marker' : String} (only : marker.toLower = "in")
    (except : marker'.toLower = "except") (spoken : ∀ w ∈ ws, IsWord w) :
    let listed := store.select (unwords (marker :: ws))
    let others := store.select (unwords (marker' :: ws))
    (listed ++ others).Perm store.book.names ∧
      ∀ name, name ∈ listed ↔ name ∈ store.book.names ∧ name ∈ ws := by
  intro listed others
  have word : IsWord marker := Text.isWord_of_toLower (only ▸ (by decide))
  have word' : IsWord marker' := Text.isWord_of_toLower (except ▸ (by decide))
  have listed_eq : listed = store.book.names.filter ws.contains := by
    simp only [listed, select_eq,
      Text.words_unwords_of_isWord (List.forall_mem_cons.2 ⟨word, spoken⟩), Scope.ofWords_in only]
    rfl
  have others_eq : others = store.book.names.filter (! ws.contains ·) := by
    simp only [others, select_eq,
      Text.words_unwords_of_isWord (List.forall_mem_cons.2 ⟨word', spoken⟩),
      Scope.ofWords_except except]
    rfl
  constructor
  · rw [listed_eq, others_eq]
    exact List.filter_append_perm _ _
  · intro name
    rw [listed_eq, List.mem_filter, List.contains_iff_mem]

/-- A text stands for known files, without repetitions and in the order of their bytes: for all of
them if its first word is the word for that; for the listed ones behind the one marker and for the
others behind the other one, which together are all of them, each once; for the same as behind the
first marker if it begins with neither of these words. Apart from the first word it matters only
which words there are. -/
theorem scopes_select_known_files (store : Store) :
    (∀ text,
      (store.select text).Pairwise (fun a b => a.toUTF8.data.toList < b.toUTF8.data.toList) ∧
        (store.select text).Nodup ∧ store.select text ⊆ store.book.names) ∧
      (∀ text, (words text).head? = some Scope.allWord → store.select text = store.book.names) ∧
      (∀ marker marker' ws, marker.toLower = "in" → marker'.toLower = "except" →
        (∀ w ∈ ws, IsWord w) →
          let listed := store.select (unwords (marker :: ws))
          let others := store.select (unwords (marker' :: ws))
          listed.Disjoint others ∧
            (∀ name ∈ store.book.names, (listed ++ others).count name = 1) ∧
            ∀ name, name ∈ listed ↔ name ∈ store.book.names ∧ name ∈ ws) ∧
      (∀ text, (∀ word, (words text).head? = some word →
          word ≠ Scope.allWord ∧ word.toLower ≠ "in" ∧ word.toLower ≠ "except") →
        store.select text = store.select ("in " ++ text)) ∧
      ∀ text text', (words text).head? = (words text').head? →
        (∀ word, word ∈ (words text).tail ↔ word ∈ (words text').tail) →
          store.select text = store.select text' := by
  refine ⟨?_, ?_, ?_, fun text => select_of_unmarked, fun text text' => select_congr⟩
  · intro text
    refine ⟨(store.pairwise_select text).imp Utf8.bytes_lt,
      Workbook.nodup_select store.book text, ?_⟩
    intro name member
    exact (mem_select_iff.1 member).1
  · intro text first
    obtain ⟨ws, spelled⟩ := List.head?_eq_some_iff.1 first
    rw [select_eq, spelled, Scope.ofWords_all]
    exact List.filter_eq_self.2 fun _ _ => rfl
  · intro marker marker' ws only except spoken listed others
    obtain ⟨parts, inside⟩ := store.select_append_perm only except spoken
    have distinct : (listed ++ others).Nodup := parts.nodup_iff.2 store.book.nodup_names
    refine ⟨?_, ?_, inside⟩
    · intro name here there
      exact (List.nodup_append.1 distinct).2.2 name here name there rfl
    · intro name known
      rw [distinct.count, if_pos (parts.mem_iff.2 known)]

theorem scopes_select_known_files_of_two :
    let start : Store := { book := Workbook.ofList [("b", default), ("a", default)] }
    let listed := start.select "iN b z b"
    let others := start.select "EXCEPT b z b"
    ((words "ALL\u3000b").head? = some Scope.allWord ∧
        start.select "ALL\u3000b" = start.book.names) ∧
      (listed.Disjoint others ∧ (∀ name ∈ start.book.names, (listed ++ others).count name = 1) ∧
        ∀ name, name ∈ listed ↔ name ∈ start.book.names ∧ name ∈ ["b", "z", "b"]) ∧
      listed = ["b"] ∧ others = ["a"] ∧
      start.select "z b a" = start.select "in z b a" ∧
      start.select "eXcept b z" = start.select "\teXcept  z\nb z " := by
  intro start listed others
  obtain ⟨-, everything, parts, unmarked, order⟩ := scopes_select_known_files start
  have spoken : ∀ w ∈ ["b", "z", "b"], IsWord w := by decide
  have first : (words "ALL\u3000b").head? = some Scope.allWord := by decide +kernel
  refine ⟨⟨first, everything _ first⟩, ?_, by decide +kernel, by decide +kernel, ?_, ?_⟩
  · exact parts "iN" "EXCEPT" ["b", "z", "b"] (by decide +kernel) (by decide +kernel) spoken
  · refine unmarked "z b a" fun word said => ?_
    have spelled : (words "z b a").head? = some "z" := by decide +kernel
    cases said.symm.trans spelled
    decide +kernel
  · have spelled : words "eXcept b z" = ["eXcept", "b", "z"] := by decide +kernel
    have spelled' : words "\teXcept  z\nb z " = ["eXcept", "z", "b", "z"] := by decide +kernel
    refine order _ _ (by rw [spelled, spelled']; rfl) fun word => ?_
    rw [spelled, spelled']
    simp only [List.tail_cons, List.mem_cons]
    tauto

end Store

end TableShell
