import TableShell.Proofs.Workbook.Modify
import TableShell.Store

/-!
# Going through files

A request that acts on each file by a function on its table never stops half-way: going through a
list of files applies the function to all of them (`overFiles_eq_modifyAll`). The notes say what
was found in each file when its turn came.
-/

namespace TableShell.Store

open Workbook (modify modifyAll)

variable {f : Table → Table} {note : Workbook → String → Note}

/-- The notes on a list of files, the function being applied to each file after its note. -/
def notesOver (f : Table → Table) (note : Workbook → String → Note) :
    Workbook → List String → List Note
  | _, [] => []
  | book, file :: files => note book file :: notesOver f note (modify f book file) files

/-- To go through files with an action that applies a function is to apply it to all of them. -/
theorem overFiles_eq_modifyAll {act : Store → String → Except Fault (Store × Note)} {store : Store}
    (keeps : ∀ t, t.Rectangular → (f t).Rectangular)
    (acts : ∀ book : Workbook, book.Rectangular → ∀ file,
      act { store with book } file =
        .ok ({ store with book := modify f book file }, note book file))
    (shape : store.book.Rectangular) (files : List String) :
    store.overFiles act files =
      { store := { store with book := modifyAll f store.book files }
        notes := notesOver f note store.book files } := by
  -- The store varies in its tables only, so the induction is on the files over all workbooks.
  suffices from_any : ∀ book : Workbook, book.Rectangular →
      overFiles act { store with book } files =
        { store := { store with book := modifyAll f book files }
          notes := notesOver f note book files } from
    from_any store.book shape
  intro book sound
  induction files generalizing book with
  | nil => rfl
  | cons file files ih =>
    have after : (modify f book file).Rectangular := sound.modifyAll keeps [file]
    rw [overFiles, acts book sound file]
    simp only
    rw [ih (modify f book file) after]
    rfl

theorem notesOver_append (book : Workbook) (xs ys : List String) :
    notesOver f note book (xs ++ ys) =
      notesOver f note book xs ++ notesOver f note (modifyAll f book xs) ys := by
  induction xs generalizing book with
  | nil => rfl
  | cons file xs ih => exact congrArg (note book file :: ·) (ih (modify f book file))

/-- What holds of the note on any file of a rectangular workbook holds of all notes. -/
theorem forall_mem_notesOver {p : Note → Prop} {book : Workbook}
    (keeps : ∀ t, t.Rectangular → (f t).Rectangular)
    (each : ∀ book : Workbook, book.Rectangular → ∀ file, p (note book file))
    (shape : book.Rectangular) (files : List String) :
    ∀ n ∈ notesOver f note book files, p n := by
  induction files generalizing book with
  | nil =>
    intro n member
    cases member
  | cons file files ih =>
    intro n member
    rcases List.mem_cons.1 member with rfl | later
    · exact each book shape file
    · exact ih (shape.modifyAll keeps [file]) n later

/-- A question about the notes whose answer the function does not change can be asked about each
file before the first of them is touched. -/
theorem any_notesOver {p : Note → Bool} (stable : ∀ book file other,
      p (note (modify f book file) other) = p (note book other))
    (book : Workbook) (files : List String) :
    (notesOver f note book files).any p = files.any fun file => p (note book file) := by
  induction files generalizing book with
  | nil => rfl
  | cons file files ih =>
    rw [notesOver, List.any_cons, List.any_cons, ih]
    simp only [stable]

end TableShell.Store
