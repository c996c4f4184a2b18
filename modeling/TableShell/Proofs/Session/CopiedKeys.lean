import Mathlib.Data.List.Nodup
import TableShell.Proofs.Session.Failures
import TableShell.Proofs.Store.Places

/-!
# The keys of copied rows

Whatever rows are copied in whatever order, the key cells of a table stay as they are, and the keys
that are added to them are distinct and new (`Table.AddsKeys`). So a table whose keys are distinct
keeps distinct keys. A copy of a single row is found under its target key, and what is found under
other keys does not change (`findRows_copy`).

## Main definitions

- `Table.AddsKeys`: key cells followed by distinct new keys
- `CopyTexts`, `Store.afterCopies`: the texts of a copy command, and copies one after the other
-/

namespace TableShell

namespace Table

variable {keyColumn source target : String} {targets : List String} {t u v : Table} {key : Nat}

/-- The key cells of the first table come first in the second one, and what is added to them are
distinct keys among the targets, none of which was there. -/
structure AddsKeys (keyColumn : String) (targets : List String) (t u : Table) : Prop where
  columns : u.columns = t.columns
  keyCells : ∀ ⦃key⦄, t.columnIndex? keyColumn = some key → ∃ added : List String,
    u.rows.map (·[key]?) = t.rows.map (·[key]?) ++ added.map some ∧ added.Nodup ∧
      ∀ value ∈ added, value ∈ targets ∧ some value ∉ t.rows.map (·[key]?)

theorem AddsKeys.refl (t : Table) : AddsKeys keyColumn targets t t :=
  ⟨rfl, fun key _ => ⟨[], by simp⟩⟩

theorem AddsKeys.trans (first : AddsKeys keyColumn targets t u)
    (second : AddsKeys keyColumn targets u v) : AddsKeys keyColumn targets t v := by
  refine ⟨second.columns.trans first.columns, ?_⟩
  intro key found
  have found' : u.columnIndex? keyColumn = some key := by
    rw [columnIndex?, first.columns, ← columnIndex?, found]
  obtain ⟨early, cells, distinct, new⟩ := first.keyCells found
  obtain ⟨late, cells', distinct', new'⟩ := second.keyCells found'
  simp only [cells, List.mem_append, not_or] at new'
  refine ⟨early ++ late, ?_, ?_, ?_⟩
  · rw [cells', cells, List.append_assoc, List.map_append]
  · -- A key that is added late is none of those that were added early.
    rw [List.nodup_append]
    refine ⟨distinct, distinct', ?_⟩
    rintro value here _ there rfl
    exact (new' value there).2.2 (List.mem_map_of_mem here)
  · intro value member
    rcases List.mem_append.1 member with here | there
    · exact new value here
    · exact ⟨(new' value there).1, (new' value there).2.1⟩

theorem addsKeys_copied (listed : target ∈ targets) (t : Table) :
    AddsKeys keyColumn targets t (t.copied keyColumn source target) := by
  refine ⟨columns_copied, ?_⟩
  intro key found
  refine ⟨addedKeys key source target t.rows, ?_, nodup_addedKeys, ?_⟩
  · rw [copied_of_some found, keyCells_copyRows]
  · intro value added
    obtain ⟨rfl, new⟩ := fresh_of_mem_addedKeys added
    exact ⟨listed, new⟩

/-- Distinct keys stay distinct. -/
theorem AddsKeys.nodup (adds : AddsKeys keyColumn targets t u)
    (found : t.columnIndex? keyColumn = some key) (distinct : (t.rows.map (·[key]?)).Nodup) :
    (u.rows.map (·[key]?)).Nodup := by
  obtain ⟨added, cells, distinct', new⟩ := adds.keyCells found
  rw [cells, List.nodup_append]
  refine ⟨distinct, List.Nodup.map (Option.some_injective String) distinct', ?_⟩
  rintro _ here _ there rfl
  obtain ⟨value, member, rfl⟩ := List.mem_map.1 there
  exact (new value member).2 here

/-! ### Rows with a key -/

private theorem matchingRows_singleton (t : Table) (key : Nat) (value : String) :
    t.matchingRows key [value] = t.rows.filter (hasKey key value) := by
  have same : (fun row : Row => row[key]?.any [value].contains) = hasKey key value := by
    funext row
    cases read : row[key]? <;> simp [hasKey, read, Bool.beq_eq_decide_eq]
  rw [matchingRows, same]

theorem matchingRows_copied {values : List String} (found : t.columnIndex? keyColumn = some key)
    (other : target ∉ values) :
    (t.copied keyColumn source target).matchingRows key values = t.matchingRows key values := by
  rw [copied_of_some found, matchingRows, matchingRows]
  apply filter_copyRows
  intro row has
  rw [hasKey_iff.1 has]
  simpa using other

/-- The first row with the source key is copied to the target key and is the first one there. -/
theorem matchingRows_copied_target (found : t.columnIndex? keyColumn = some key) {row : Row}
    {rest : List Row} (original : t.matchingRows key [source] = row :: rest) :
    ∃ others, (t.copied keyColumn source target).matchingRows key [target] =
      row.set key target :: others := by
  rw [matchingRows_singleton] at original
  have first : t.rows.find? (hasKey key source) = some row := by
    rw [← List.head?_filter, original, List.head?_cons]
  have made : copyOf? key source target t.rows = some (row.set key target) := by
    rw [copyOf?, first, Option.map_some]
  rw [matchingRows_singleton, copied_of_some found, copyRows_of_some made]
  refine List.head?_eq_some_iff.1 ?_
  rw [List.head?_filter]
  exact find?_placeRow (hasKey_of_copyOf? made)

end Table

/-! ### Copy commands -/

/-- The texts of a copy command, its key column apart. -/
structure CopyTexts where
  source : String
  target : String
  scope : String

namespace CopyTexts

/-- The copy command with a key column. -/
def command (keyColumn : String) (texts : CopyTexts) : Command :=
  .copy keyColumn texts.source texts.target texts.scope

/-- The keys that a copy command copies rows to. -/
def targets (texts : CopyTexts) : List String :=
  (Field.read texts.target).value

end CopyTexts

namespace Store

variable {store : Store} {keyColumn source target file : String} {targets : List String}

/-- The store after copy commands with one key column. -/
def afterCopies (keyColumn : String) (store : Store) (copies : List CopyTexts) : Store :=
  copies.foldl (fun s texts => (Session.execute engine s (texts.command keyColumn)).state) store

theorem addsKeys_execute {texts : CopyTexts} (shape : store.book.Rectangular)
    (listed : ∀ target ∈ texts.targets, target ∈ targets) :
    Workbook.Rel (Table.AddsKeys keyColumn targets) store.book
      (Session.execute engine store (texts.command keyColumn)).state.book := by
  apply rel_runAll
  · exact Table.AddsKeys.refl
  · exact Table.AddsKeys.trans
  · intro step member keyColumn? t
    obtain ⟨source, target, named, rfl⟩ := Plan.exists_copyStep_of_mem member
    exact t.addsKeys_copied (listed target named)
  · exact shape

private theorem rectangular_execute (shape : store.book.Rectangular) (command : Command) :
    (Session.execute engine store command).state.book.Rectangular :=
  Step.runAll_induction (p := fun s : Store => s.book.Rectangular)
    (fun step _ _ sound => rectangular_perform sound step.request _) shape

theorem addsKeys_afterCopies {copies : List CopyTexts} (shape : store.book.Rectangular)
    (listed : ∀ texts ∈ copies, ∀ target ∈ texts.targets, target ∈ targets) :
    Workbook.Rel (Table.AddsKeys keyColumn targets) store.book
      (store.afterCopies keyColumn copies).book := by
  induction copies generalizing store with
  | nil => exact .refl Table.AddsKeys.refl store.book
  | cons texts copies ih =>
    obtain ⟨now, later⟩ := List.forall_mem_cons.1 listed
    exact (addsKeys_execute shape now).trans Table.AddsKeys.trans
      (ih (rectangular_execute shape _) later)

/-! ### Rows that are found -/

private theorem findRows_of_columnIndex? {t : Table} {key : Nat}
    (known : store.book.get? file = some t)
    (found : t.columnIndex? keyColumn = some key) (values : List String) :
    store.findRows file ⟨some keyColumn, values⟩ = .ok (t.matchingRows key values) :=
  findRows_of_place? known found

/-- After a copy that succeeds, the copy is the first row that is found under the target key, and
what is found under other keys has not changed. -/
theorem findRows_copy (shape : store.book.Rectangular)
    (copied : (store.copy keyColumn source target [file]).failure? = none) :
    let done := (store.copy keyColumn source target [file]).store
    ∃ t key row others, store.book.get? file = some t ∧ t.columnIndex? keyColumn = some key ∧
      store.findRows file ⟨some keyColumn, [source]⟩ = .ok (row :: others) ∧
      (∃ others, done.findRows file ⟨some keyColumn, [target]⟩ =
        .ok (row.set key target :: others)) ∧
      ∀ values, target ∉ values →
        done.findRows file ⟨some keyColumn, values⟩ =
          store.findRows file ⟨some keyColumn, values⟩ := by
  intro done
  have offered : store.HasRowToCopy [file] keyColumn source := by
    refine Classical.byContradiction fun nothing => ?_
    have failed : (store.copy keyColumn source target [file]).failure?.isSome :=
      (isSome_failure?_copy shape).2 ⟨List.cons_ne_nil file [], nothing⟩
    rw [copied] at failed
    cases failed
  obtain ⟨other, listed, t, known, key, found, original, member, read⟩ := offered
  obtain rfl : file = other := (List.mem_singleton.1 listed).symm
  obtain ⟨row, others, first⟩ : ∃ row others, t.matchingRows key [source] = row :: others := by
    refine List.exists_cons_of_ne_nil (List.ne_nil_of_mem (a := original) ?_)
    rw [Table.matchingRows_singleton, List.mem_filter]
    exact ⟨member, Table.hasKey_iff.2 read⟩
  have known' : done.book.get? file = some (t.copied keyColumn source target) := by
    simp only [done, copy_eq_modifyAll shape]
    rw [Workbook.get?_modifyAll_of_nodup _ _ (by simp), if_pos listed, known, Option.map_some]
  have found' : (t.copied keyColumn source target).columnIndex? keyColumn = some key := by
    rw [Table.columnIndex?_copied, found]
  refine ⟨t, key, row, others, known, found, ?_, ?_, ?_⟩
  · rw [findRows_of_columnIndex? known found, first]
  · obtain ⟨others, at_target⟩ : ∃ others,
        (t.copied keyColumn source target).matchingRows key [target] =
          row.set key target :: others := Table.matchingRows_copied_target found first
    exact ⟨others, by rw [findRows_of_columnIndex? known' found', at_target]⟩
  · intro values other
    rw [findRows_of_columnIndex? known found, findRows_of_columnIndex? known' found',
      Table.matchingRows_copied found other]

/-- Copy commands with one key column, whatever rows, keys and files they name, leave the key cells
of every table in front and add to them distinct keys among their targets, none of which was there;
so distinct keys stay distinct. After a copy of a single row that succeeds, the copy is the first
row that is found under its target key, and what is found under other keys has not changed. -/
theorem copies_keep_keys_apart (reached : store.Reachable) (keyColumn : String) :
    (∀ copies : List CopyTexts,
      let book := (store.afterCopies keyColumn copies).book
      Workbook.Rel (Table.AddsKeys keyColumn (copies.flatMap CopyTexts.targets)) store.book book ∧
        ∀ name t key, store.book.get? name = some t → t.columnIndex? keyColumn = some key →
          (t.rows.map (·[key]?)).Nodup →
            ∃ u, book.get? name = some u ∧ (u.rows.map (·[key]?)).Nodup) ∧
      ∀ source target file, (store.copy keyColumn source target [file]).failure? = none →
        let done := (store.copy keyColumn source target [file]).store
        ∃ t key row others, store.book.get? file = some t ∧ t.columnIndex? keyColumn = some key ∧
          store.findRows file ⟨some keyColumn, [source]⟩ = .ok (row :: others) ∧
          (∃ others, done.findRows file ⟨some keyColumn, [target]⟩ =
            .ok (row.set key target :: others)) ∧
          ∀ values, target ∉ values →
            done.findRows file ⟨some keyColumn, values⟩ =
              store.findRows file ⟨some keyColumn, values⟩ := by
  have shape := reached.rectangular
  refine ⟨?_, fun source target file => findRows_copy shape⟩
  intro copies book
  have adds : Workbook.Rel (Table.AddsKeys keyColumn (copies.flatMap CopyTexts.targets))
      store.book book :=
    addsKeys_afterCopies shape fun texts member target named =>
      List.mem_flatMap_of_mem member named
  refine ⟨adds, ?_⟩
  intro name t key known found distinct
  have listed : name ∈ book.names := by
    rw [adds.names]
    exact Workbook.mem_names_iff.2 ⟨t, known⟩
  obtain ⟨u, there⟩ := Workbook.mem_names_iff.1 listed
  exact ⟨u, there, (adds.tables known there).nodup found distinct⟩

theorem copies_keep_keys_apart_ledger :
    let start : Store := { book := ledger }
    let copies : List CopyTexts := [⟨"1-3", "0-2", "in a"⟩, ⟨"2", "5-6", "ALL"⟩, ⟨"0", "7", "ALL"⟩]
    let book := (start.afterCopies "id" copies).book
    let done := (start.copy "id" "1" "2" ["a"]).store
    start.Reachable ∧
      book.get? "a" = some { columns := ["id", "name"], rows :=
        [["1", "y"], ["2", "y"], ["0", "x"], ["7", "x"]] } ∧
      Workbook.Rel (Table.AddsKeys "id" ["0", "1", "2", "5", "6", "7"]) ledger book ∧
      (start.copy "id" "1" "2" ["a"]).failure? = none ∧
      (∃ others, done.findRows "a" ⟨some "id", ["2"]⟩ = .ok (["2", "x"] :: others)) ∧
      done.findRows "a" ⟨some "id", ["3", "1"]⟩ = start.findRows "a" ⟨some "id", ["3", "1"]⟩ := by
  intro start copies book done
  obtain ⟨commands, single⟩ := copies_keep_keys_apart reachable_ledger "id"
  obtain ⟨adds, -⟩ := commands copies
  have targets : copies.flatMap CopyTexts.targets = ["0", "1", "2", "5", "6", "7"] := by
    decide +kernel
  have copied : (start.copy "id" "1" "2" ["a"]).failure? = none := by decide +kernel
  obtain ⟨t, key, row, others, known, found, first, ⟨others', second⟩, rest⟩ :=
    single "1" "2" "a" copied
  have original : start.findRows "a" ⟨some "id", ["1"]⟩ = .ok [["1", "x"]] := by decide +kernel
  cases first.symm.trans original
  cases known
  cases found
  rw [targets] at adds
  exact ⟨reachable_ledger, by decide +kernel, adds, copied, ⟨others', second⟩,
    rest ["3", "1"] (by decide)⟩

end Store

end TableShell
