import TableShell.Proofs.Session.Reachable
import TableShell.Proofs.Store.Succession

/-!
# Repeated requests

A copy that is made again changes nothing, and neither does an update that has a lone new value or
writes to another column than the one that it reads (`repetition_changes_nothing`). This holds
although the second request meets the rows that the first one has written, and although the files of
a request may be repeated themselves.
-/

namespace TableShell

namespace Table

variable {keyColumn? : Option String} {old new : Chunk} {t : Table}

/-- An update that has a lone new value, or that does not write to the cells that it reads, changes
nothing when it is made again. -/
theorem updated_updated_self
    (settles : new.values.length = 1 ∨ ∀ source target,
      t.updatePlaces? keyColumn? old new = some (source, target) → source ≠ target) :
    (t.updated keyColumn? old new).updated keyColumn? old new = t.updated keyColumn? old new := by
  obtain ⟨oldColumn?, vs⟩ := old
  obtain ⟨newColumn?, ws⟩ := new
  refine updated_updated_eq ⟨vs, ws⟩ ⟨vs, ws⟩ ⟨vs, ws⟩ fun source target placed row => ?_
  exact rewriteRow_rewriteRow (settles.imp_right fun apart => apart source target placed) row

end Table

namespace Store

variable {store : Store} {old new : Chunk} {keyColumn source target : String}
  {files : List String}

/-- A request that settles the table of each of its files changes nothing when it is made again. -/
theorem store_perform_perform (shape : store.book.Rectangular) (request : Request)
    (settles : ∀ file ∈ files, ∀ t, store.book.get? file = some t →
      request.edit store.keyColumn? (request.edit store.keyColumn? t) =
        request.edit store.keyColumn? t) :
    ((store.perform request files).store.perform request files).store =
      (store.perform request files).store := by
  rw [store_perform (rectangular_perform shape request files), store_perform shape]
  simp only [Workbook.modifyAll_modifyAll_of_settled settles]

/-- A copy that is made again leaves the same tables, and it fails just if it failed at first. -/
theorem copy_copy (shape : store.book.Rectangular) :
    let once := store.copy keyColumn source target files
    let twice := once.store.copy keyColumn source target files
    twice.store = once.store ∧ twice.failure? = once.failure? := by
  intro once twice
  have shape' : once.store.book.Rectangular :=
    rectangular_perform shape (.copy keyColumn source target) files
  constructor
  · refine store_perform_perform shape (.copy keyColumn source target) ?_
    exact fun _ _ _ _ => Table.copied_copied
  · have offers : once.store.offersIn files keyColumn source =
        store.offersIn files keyColumn source := offersIn_copy_source shape files files
    simp only [twice, once, failure?_copy shape', failure?_copy shape, offers]

/-- An update that settles the tables it is made on leaves the same tables when it is made again,
and it fails just if it failed at first. -/
theorem update_update (shape : store.book.Rectangular)
    (settles : new.values.length = 1 ∨ store.WritesElsewhere old new files) :
    let once := store.update old new files
    let twice := once.store.update old new files
    twice.store = once.store ∧ twice.failure? = once.failure? := by
  intro once twice
  have shape' : once.store.book.Rectangular := rectangular_perform shape (.update old new) files
  constructor
  · refine store_perform_perform shape (.update old new) fun file listed t known => ?_
    rw [Request.edit]
    split
    · refine Table.updated_updated_self (settles.imp_right fun elsewhere => ?_)
      exact fun source target => elsewhere.ne listed known
    · rfl
  · rw [failure?_update shape', failure?_update shape]

/-- A copy that is made again, with the same keys and files, changes nothing and fails just if it
failed at first. The same holds of an update that has a single new value, be it an old one too, or
whose new chunk names another column than the old chunk means. -/
theorem repetition_changes_nothing (reached : store.Reachable) :
    (∀ keyColumn source target files,
      let once := store.copy keyColumn source target files
      let twice := once.store.copy keyColumn source target files
      twice.store = once.store ∧ twice.failure? = once.failure?) ∧
      ∀ old new files,
        new.values.length = 1 ∨ store.WritesElsewhere old new files →
        let once := store.update old new files
        let twice := once.store.update old new files
        twice.store = once.store ∧ twice.failure? = once.failure? := by
  have shape := reached.rectangular
  constructor
  · intro keyColumn source target files
    exact copy_copy shape
  · intro old new files settles
    exact update_update shape settles

theorem repetition_changes_nothing_ledger :
    let start : Store := { book := ledger }
    let copied := start.copy "id" "2" "5" ["b", "z", "b"]
    let old : Chunk := ⟨none, ["1", "2"]⟩
    let lone : Chunk := ⟨none, ["2"]⟩
    let named : Chunk := ⟨some "name", ["2", "1"]⟩
    let merged := start.update old lone ["a", "b"]
    let renamed := start.update old named ["a", "z", "a"]
    start.Reachable ∧
      copied.store.book.get? "b" = some { columns := ["id"], rows := [["2"], ["2"], ["5"]] } ∧
      (copied.store.copy "id" "2" "5" ["b", "z", "b"]).store = copied.store ∧
      lone.values.length = 1 ∧
      merged.store.book.get? "a" =
        some { columns := ["id", "name"], rows := [["2", "x"], ["2", "y"]] } ∧
      (merged.store.update old lone ["a", "b"]).store = merged.store ∧
      start.WritesElsewhere old named ["a", "z", "a"] ∧
      renamed.store.book.get? "a" =
        some { columns := ["id", "name"], rows := [["1", "2"], ["2", "1"]] } ∧
      (renamed.store.update old named ["a", "z", "a"]).store = renamed.store := by
  intro start copied old lone named merged renamed
  have elsewhere : start.WritesElsewhere old named ["a", "z", "a"] := by decide
  obtain ⟨copies, updates⟩ := repetition_changes_nothing reachable_ledger
  refine ⟨reachable_ledger, ?_, (copies "id" "2" "5" ["b", "z", "b"]).1, rfl, ?_,
    (updates old lone ["a", "b"] (.inl rfl)).1, elsewhere, ?_,
    (updates old named ["a", "z", "a"] (.inr elsewhere)).1⟩
  · decide +kernel
  · decide +kernel
  · decide +kernel

end Store

end TableShell
