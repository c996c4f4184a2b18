import TableShell.Proofs.Store.Selection

/-!
# Naming the key column

A chunk without a column means the key column. If this is the same column in each file of a request
(`Store.KeyIn`), then to name it in the chunk changes nothing about what comes of the request
(`perform_naming`): the same tables are written, the same is said about each file, those that lack
the column included, and the request fails for the same reason or not at all.

## Main definitions

- `Chunk.naming`, `Request.naming`: a column for a chunk that has none
- `Store.KeyIn`: in some files a chunk without a column means a given one
-/

namespace TableShell

/-- The chunk with the given column, if it has none of its own. -/
def Chunk.naming (column : String) (chunk : Chunk) : Chunk :=
  { chunk with column? := chunk.column?.or (some column) }

/-- The request with the given column for the values that are looked for. The new values of an
update are written to the column of the old ones anyway if they have none of their own. -/
def Request.naming (column : String) : Request → Request
  | .search target => .search (target.naming column)
  | .update old new => .update (old.naming column) new
  | .copy keyColumn source target => .copy keyColumn source target

@[simp] theorem Request.activity_naming (column : String) (request : Request) :
    (request.naming column).activity = request.activity := by
  cases request with
  | search _ => rfl
  | update _ _ => rfl
  | copy _ _ _ => rfl

/-- Where the key column is known it can be named. -/
theorem Chunk.column?_naming_or {key? : Option String} {column : String}
    (key : key? = some column) (chunk : Chunk) :
    (chunk.naming column).column?.or key? = chunk.column?.or key? := by
  rw [naming, key]
  cases chunk.column? with
  | none => rfl
  | some _ => rfl

namespace Table

variable {keyColumn? : Option String} {column : String} {t : Table}

theorem updated_naming (key : keyColumn?.or t.columns.head? = some column) (old new : Chunk) :
    t.updated keyColumn? (old.naming column) new = t.updated keyColumn? old new := by
  have places : t.updatePlaces? keyColumn? (old.naming column) new =
      t.updatePlaces? keyColumn? old new := by
    rw [updatePlaces?, updatePlaces?, Chunk.column?_naming_or key]
  rw [updated, updated, places]
  rfl

end Table

namespace Store

variable {store : Store} {column file : String} {files : List String} {t : Table}

/-- In each of some files a chunk without a column means the given one. -/
def KeyIn (store : Store) (column : String) (files : List String) : Prop :=
  ∀ file ∈ files, ∀ t ∈ store.book.get? file, store.column? t none = some column

theorem column?_none_eq_some_iff :
    store.column? t none = some column ↔ store.keyColumn?.or t.columns.head? = some column := by
  rw [column?_eq_or, Option.none_or]

theorem keyIn_of_keyColumn? (configured : store.keyColumn? = some column) (files : List String) :
    store.KeyIn column files := by
  intro file _ t _
  rw [column?_none_eq_some_iff, configured, Option.some_or]

theorem keyIn_of_head? (unset : store.keyColumn? = none)
    (first : ∀ file ∈ files, ∀ t ∈ store.book.get? file, t.columns.head? = some column) :
    store.KeyIn column files := by
  intro file listed t known
  rw [column?_none_eq_some_iff, unset, Option.none_or]
  exact first file listed t known

/-- No request changes which column is the key column of a file. -/
theorem KeyIn.perform (key : store.KeyIn column files) (shape : store.book.Rectangular)
    (request : Request) (on : List String) :
    (store.perform request on).store.KeyIn column files := by
  rw [store_perform shape]
  intro file listed t known
  have extended := Workbook.rel_modifyAll Table.Extends.refl
    (fun {_ u} before => before.trans (request.extends_edit store.keyColumn? u)) store.book on
  obtain ⟨u, before⟩ : ∃ u, store.book.get? file = some u := by
    rw [← Workbook.mem_names_iff, ← extended.names, Workbook.mem_names_iff]
    exact ⟨t, known⟩
  have columns : t.columns = u.columns := (extended.tables before known).1
  rw [column?_none_eq_some_iff, columns]
  exact column?_none_eq_some_iff.1 (key file listed u before)

theorem searchFile_naming (key : ∀ t ∈ store.book.get? file, store.column? t none = some column)
    (target : Chunk) : store.searchFile (target.naming column) file =
      store.searchFile target file := by
  have found : store.findRows file (target.naming column) = store.findRows file target := by
    rw [findRows, findRows]
    cases known : store.book.get? file with
    | none => rfl
    | some t =>
      have means := column?_none_eq_some_iff.1 (key t known)
      simp only [column?_eq_or, Chunk.column?_naming_or means]
      rfl
  rw [searchFile, searchFile, found]

theorem updateNote_naming (key : ∀ t ∈ store.book.get? file, store.column? t none = some column)
    (old new : Chunk) :
    updateNote store.keyColumn? (old.naming column) new store.book file =
      updateNote store.keyColumn? old new store.book file := by
  rw [updateNote, updateNote]
  cases known : store.book.get? file with
  | none => rfl
  | some t =>
    have means := column?_none_eq_some_iff.1 (key t known)
    simp only [Chunk.column?_naming_or means]
    rfl

theorem update_naming (shape : store.book.Rectangular) (key : store.KeyIn column files)
    (distinct : files.Nodup) (old new : Chunk) :
    store.update (old.naming column) new files = store.update old new files := by
  by_cases balanced : Substitution.isBalanced ⟨old.values, new.values⟩
  · have balanced' : Substitution.isBalanced ⟨(old.naming column).values, new.values⟩ := balanced
    have tables : Workbook.modifyAll (Table.updated store.keyColumn? (old.naming column) new)
        store.book files =
        Workbook.modifyAll (Table.updated store.keyColumn? old new) store.book files := by
      refine Workbook.modifyAll_congr_of_nodup distinct fun file listed t known => ?_
      exact Table.updated_naming (column?_none_eq_some_iff.1 (key file listed t known)) old new
    have notes : files.map (updateNote store.keyColumn? (old.naming column) new store.book) =
        files.map (updateNote store.keyColumn? old new store.book) :=
      List.map_congr_left fun file listed => updateNote_naming (key file listed) old new
    rw [update_eq_modifyAll balanced' shape, update_eq_modifyAll balanced shape, tables,
      notesOver_of_nodup updateNote_congr _ distinct,
      notesOver_of_nodup updateNote_congr _ distinct, notes]
  · have unbalanced : ¬Substitution.isBalanced ⟨(old.naming column).values, new.values⟩ := balanced
    rw [update_of_not_balanced unbalanced, update_of_not_balanced balanced]
    rfl

/-- A request of distinct files comes to the same if it names the column that is their key
column. -/
theorem perform_naming (shape : store.book.Rectangular) (key : store.KeyIn column files)
    (distinct : files.Nodup) (request : Request) :
    store.perform (request.naming column) files = store.perform request files := by
  cases request with
  | search target =>
    have notes : files.map (store.searchFile (target.naming column)) =
        files.map (store.searchFile target) :=
      List.map_congr_left fun file listed => searchFile_naming (key file listed) target
    exact congrArg (Outcome.mk store · none) notes
  | update old new => exact update_naming shape key distinct old new
  | copy keyColumn source target => rfl

end Store

end TableShell
