import TableShell.Proofs.Store.Perform

/-!
# Requests see their files only

What a request does to a file, what it says about it and whether it fails depend on the tables of
its own files and on nothing else in the workbook (`AgreeOn.perform`).

## Main definitions

- `Store.AgreeOn`: two stores that differ at most in the tables of other files
-/

namespace TableShell.Store

variable {s t : Store} {files : List String}

/-- The stores have the same tables in some files and differ at most in those of other files. -/
structure AgreeOn (files : List String) (s t : Store) : Prop where
  keyColumn? : s.keyColumn? = t.keyColumn?
  quiet : s.quiet = t.quiet
  names : s.book.names = t.book.names
  tables : ∀ name ∈ files, s.book.get? name = t.book.get? name

theorem AgreeOn.refl (files : List String) (s : Store) : AgreeOn files s s :=
  ⟨rfl, rfl, rfl, fun _ _ => rfl⟩

theorem AgreeOn.symm (agree : AgreeOn files s t) : AgreeOn files t s :=
  ⟨agree.keyColumn?.symm, agree.quiet.symm, agree.names.symm, fun name member =>
    (agree.tables name member).symm⟩

theorem AgreeOn.trans {u : Store} (first : AgreeOn files s t) (second : AgreeOn files t u) :
    AgreeOn files s u :=
  ⟨first.keyColumn?.trans second.keyColumn?, first.quiet.trans second.quiet,
    first.names.trans second.names, fun name member =>
    (first.tables name member).trans (second.tables name member)⟩

/-- Stores that agree on each file are equal. -/
theorem eq_of_agreeOn (agree : ∀ name, AgreeOn [name] s t) : s = t := by
  have books : s.book = t.book :=
    Workbook.ext_get? fun name => (agree name).tables name List.mem_cons_self
  obtain ⟨key, quiet, -, -⟩ := agree ""
  cases s
  cases t
  simp_all

theorem AgreeOn.select_eq (agree : AgreeOn files s t) (scope : String) :
    s.select scope = t.select scope :=
  Workbook.select_congr agree.names scope

theorem AgreeOn.mono {fewer : List String} (agree : AgreeOn files s t) (part : fewer ⊆ files) :
    AgreeOn fewer s t :=
  ⟨agree.keyColumn?, agree.quiet, agree.names, fun name member =>
    agree.tables name (part member)⟩

/-- A function applied to the same files of both stores leaves them agreeing. -/
theorem AgreeOn.modifyAll (agree : AgreeOn files s t) (f : Table → Table) (on : List String) :
    AgreeOn files { s with book := Workbook.modifyAll f s.book on }
      { t with book := Workbook.modifyAll f t.book on } where
  keyColumn? := agree.keyColumn?
  quiet := agree.quiet
  names := by
    rw [Workbook.names_modifyAll, Workbook.names_modifyAll, agree.names]
  tables := by
    intro name member
    rw [Workbook.get?_modifyAll, Workbook.get?_modifyAll, agree.tables name member]

/-! ### Notes -/

theorem searchFile_congr {target : Chunk} {file : String} (key : s.keyColumn? = t.keyColumn?)
    (same : s.book.get? file = t.book.get? file) :
    s.searchFile target file = t.searchFile target file := by
  have column (u : Table) : s.column? u target.column? = t.column? u target.column? := by
    rw [column?, column?, key]
  have found : s.findRows file target = t.findRows file target := by
    simp only [findRows, same, column]
  rw [searchFile, searchFile, found, same]

/-- Notes that are taken from the table of their own file depend on the tables of the files only. -/
theorem notesOver_congr {f : Table → Table} {note : Workbook → String → Note}
    (reads : ∀ {one two : Workbook} {file : String}, one.get? file = two.get? file →
      note one file = note two file)
    {one two : Workbook} (same : ∀ name ∈ files, one.get? name = two.get? name) :
    notesOver f note one files = notesOver f note two files := by
  induction files generalizing one two with
  | nil => rfl
  | cons file files ih =>
    obtain ⟨here, later⟩ := List.forall_mem_cons.1 same
    rw [notesOver, notesOver, reads here]
    congr 1
    apply ih
    intro name member
    rw [Workbook.get?_modify, Workbook.get?_modify, later name member]

theorem updateNote_congr {keyColumn? : Option String} {old new : Chunk} {one two : Workbook}
    {file : String} (same : one.get? file = two.get? file) :
    updateNote keyColumn? old new one file = updateNote keyColumn? old new two file := by
  rw [updateNote, updateNote, same]

theorem copyNote_congr {keyColumn source target : String} {one two : Workbook} {file : String}
    (same : one.get? file = two.get? file) :
    copyNote keyColumn source target one file = copyNote keyColumn source target two file := by
  rw [copyNote, copyNote, same]

theorem AgreeOn.offersIn_eq (agree : AgreeOn files s t) (keyColumn source : String) :
    s.offersIn files keyColumn source = t.offersIn files keyColumn source := by
  rw [offersIn, offersIn, Bool.eq_iff_iff, List.any_eq_true, List.any_eq_true]
  refine exists_congr fun file => and_congr_right fun member => ?_
  rw [agree.tables file member]

/-! ### Requests -/

/-- A request on files in which two stores agree says the same of both, fails in both or in neither,
and leaves them agreeing. -/
theorem AgreeOn.perform (agree : AgreeOn files s t) (sound : s.book.Rectangular)
    (sound' : t.book.Rectangular) (request : Request) {on : List String} (part : on ⊆ files) :
    AgreeOn files (s.perform request on).store (t.perform request on).store ∧
      (s.perform request on).notes = (t.perform request on).notes ∧
      (s.perform request on).failure? = (t.perform request on).failure? := by
  have here := agree.mono part
  refine ⟨?_, ?_⟩
  · have edits : request.edit s.keyColumn? = request.edit t.keyColumn? := by
      rw [agree.keyColumn?]
    rw [store_perform sound, store_perform sound', edits]
    exact agree.modifyAll _ on
  · cases request with
    | search target =>
      refine ⟨?_, rfl⟩
      apply List.map_congr_left
      intro file member
      exact searchFile_congr agree.keyColumn? (here.tables file member)
    | update old new =>
      rw [Store.perform, Store.perform]
      by_cases balanced : Substitution.isBalanced ⟨old.values, new.values⟩
      · rw [update_eq_modifyAll balanced sound, update_eq_modifyAll balanced sound',
          agree.keyColumn?]
        exact ⟨notesOver_congr updateNote_congr here.tables, rfl⟩
      · rw [update_of_not_balanced balanced, update_of_not_balanced balanced]
        exact ⟨rfl, rfl⟩
    | copy keyColumn source target =>
      rw [Store.perform, Store.perform, copy_eq_modifyAll sound, copy_eq_modifyAll sound']
      refine ⟨notesOver_congr copyNote_congr here.tables, ?_⟩
      simp only [here.offersIn_eq]

end TableShell.Store
