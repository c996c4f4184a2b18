import TableShell.Proofs.Session.Reachable
import TableShell.Proofs.Store.Selection

/-!
# Updates write to the rows that queries find

An update of distinct files skips a file if and only if a query for its old values fails there or
the column to write is missing. In any other file it writes to the rows that the query finds and
prints how many they are; and if it writes to the column that it reads, and no new value is an old
one, the query finds nothing afterwards (`updates_write_to_found_rows`).
-/

namespace TableShell.Store

variable {store : Store} {old new : Chunk} {file : String} {t : Table}

/-- What queries find in a file after an update in place. -/
private theorem findRows_of_updated {after : Store} {source target : Nat} {column : String}
    (balanced : Substitution.isBalanced ⟨old.values, new.values⟩)
    (placed : t.updatePlaces? store.keyColumn? old new = some (source, target))
    (resolved : store.column? t old.column? = some column)
    (in_place : new.column?.getD column = column)
    (apart : ∀ value ∈ new.values, value ∉ old.values)
    (known : store.book.get? file = some t) (key : after.keyColumn? = store.keyColumn?)
    (known' : after.book.get? file = some (t.updated store.keyColumn? old new)) :
    after.findRows file old = .ok [] ∧
      ∃ before now,
        store.findRows file ⟨old.column?, old.values ++ new.values⟩ = .ok before ∧
        after.findRows file ⟨old.column?, new.values⟩ = .ok now ∧ now.length = before.length := by
  -- The column that is written is the one that is read.
  obtain rfl : target = source := by
    obtain ⟨column', resolved', atSource, atTarget⟩ := Table.updatePlaces?_eq_some_iff.1 placed
    rw [← column?_eq_or, resolved] at resolved'
    obtain rfl := Option.some.inj resolved'
    rw [in_place, atSource] at atTarget
    exact (Option.some.inj atTarget).symm
  have place := Table.place?_of_updatePlaces? placed
  have place' : (t.updated store.keyColumn? old new).place? after.keyColumn? old.column? =
      some target := by
    rw [key, Table.place?_eq_of_columns Table.columns_updated, place]
  refine ⟨?_, _, _, findRows_of_place? known place, findRows_of_place? known' place', ?_⟩
  · rw [findRows_of_place? known' place', Table.matchingRows_updated_old balanced placed apart]
  · exact Table.length_matchingRows_updated_new balanced placed

/-- An update prints one line about each of distinct files, unless it is quiet: how many rows it has
written to, or that it skips the file. -/
private theorem lines_update (shape : store.book.Rectangular)
    (balanced : Substitution.isBalanced ⟨old.values, new.values⟩) {files : List String}
    (distinct : files.Nodup) :
    ∃ text : String → String,
      (store.update old new files).lines = (if store.quiet then [] else files.map text) ∧
        ∀ file, (updateNote store.keyColumn? old new store.book file).lines = [text file] := by
  have single (file : String) :
      ∃ line, (updateNote store.keyColumn? old new store.book file).lines = [line] := by
    cases placed : (store.book.get? file).bind (Table.updatePlaces? store.keyColumn? old new) with
    | none =>
      obtain ⟨line, -, told⟩ := exists_skipLine shape placed
      exact ⟨line, told⟩
    | some ends =>
      obtain ⟨t, known, placed⟩ := Option.bind_eq_some_iff.1 placed
      rw [updateNote_of_updatePlaces? known placed]
      exact ⟨_, rfl⟩
  choose text told using single
  refine ⟨text, ?_, told⟩
  rw [Outcome.lines, update_eq_modifyAll balanced shape,
    notesOver_of_nodup updateNote_congr store.book distinct, List.flatMap_map]
  simp only [told, List.map_eq_flatMap]

/-- An update of distinct files with one new value, or with as many new values as old ones, says one
thing about each file. It skips a file, which stays as it is, if and only if a query for the old
values fails there or the file lacks the column to write. Otherwise the rows that it writes to are
those that the query finds, place for place, and it says how many they are. Unless it is quiet, it
prints one line about each file, which says just this. If it writes to the column that it reads and
no new value is an old one, then the query finds nothing afterwards, and one for the new values
finds as many rows as one for the old and new values found before. -/
theorem updates_write_to_found_rows (reached : store.Reachable) (old new : Chunk)
    (count : new.values.length = 1 ∨ new.values.length = old.values.length) {files : List String}
    (distinct : files.Nodup) :
    let done := store.update old new files
    done.failure? = none ∧ done.notes.length = files.length ∧
      done.lines.length = (if store.quiet then 0 else files.length) ∧
      ∀ (i : Nat) (file : String), files[i]? = some file →
        let skipped := ∃ fault, done.notes[i]? = some (Note.skipped fault)
        (skipped ↔
          (∃ fault, store.findRows file old = .error fault) ∨ store.LacksTarget old new file) ∧
        (skipped → done.store.book.get? file = store.book.get? file ∧
          (store.quiet = false →
            ∃ line, store.SkipLine old new file line ∧ done.lines[i]? = some line)) ∧
        (¬skipped → ∃ t u places, store.FindsAt file old t places ∧
          done.store.book.get? file = some u ∧
          Table.UpdatedAt store.keyColumn? old new t u places ∧
          done.notes[i]? = some (Note.updated file (t.rowsAt places).length) ∧
          (store.quiet = false → done.lines[i]? = some
            ("📄 " ++ file ++ ": " ++ (t.rowsAt places).length.repr ++ " 行を更新しました")) ∧
          ∀ column, store.column? t old.column? = some column →
            new.column?.getD column = column → (∀ value ∈ new.values, value ∉ old.values) →
              done.store.findRows file old = .ok [] ∧
              ∃ before now,
                store.findRows file ⟨old.column?, old.values ++ new.values⟩ = .ok before ∧
                done.store.findRows file ⟨old.column?, new.values⟩ = .ok now ∧
                now.length = before.length) := by
  intro done
  have shape := reached.rectangular
  have balanced : Substitution.isBalanced ⟨old.values, new.values⟩ :=
    Substitution.isBalanced_iff.2 count
  have applied : done = _ := update_eq_modifyAll balanced shape files
  have notes : done.notes = files.map (updateNote store.keyColumn? old new store.book) := by
    rw [applied]
    exact notesOver_of_nodup updateNote_congr store.book distinct
  obtain ⟨text, lines, told⟩ := lines_update shape balanced distinct
  refine ⟨by rw [applied], by rw [notes, List.length_map], ?_, ?_⟩
  · rw [lines]
    cases store.quiet with
    | true => rfl
    | false => exact List.length_map text
  · intro i file at_i skipped
    have printed (loud : store.quiet = false) : done.lines[i]? = some (text file) := by
      simp only [done, lines, loud, Bool.false_eq_true, if_false, List.getElem?_map, at_i,
        Option.map_some]
    have note : done.notes[i]? = some (updateNote store.keyColumn? old new store.book file) := by
      rw [notes, List.getElem?_map, at_i, Option.map_some]
    have after : done.store.book.get? file =
        (store.book.get? file).map (Table.updated store.keyColumn? old new) := by
      rw [applied]
      exact (Workbook.get?_modifyAll_of_nodup _ _ distinct file).trans
        (if_pos (List.mem_of_getElem? at_i))
    have skipped_iff : skipped ↔
        (store.book.get? file).bind (Table.updatePlaces? store.keyColumn? old new) = none := by
      simp only [skipped, note, Option.some.injEq]
      exact isSkipped_updateNote_iff
    refine ⟨skipped_iff.trans updatePlaces?_eq_none_iff, ?_, ?_⟩
    · intro skips
      have left_out := skipped_iff.1 skips
      refine ⟨by rw [after, map_updated_of_left_out left_out], fun loud => ?_⟩
      obtain ⟨line, skips, told'⟩ := exists_skipLine shape left_out
      obtain rfl : text file = line := List.singleton_inj.1 ((told file).symm.trans told')
      exact ⟨text file, skips, printed loud⟩
    · intro writes
      obtain ⟨⟨source, target⟩, placed⟩ := Option.ne_none_iff_exists'.1 (mt skipped_iff.2 writes)
      obtain ⟨t, known, placed⟩ := Option.bind_eq_some_iff.1 placed
      have found : store.FindsAt file old t (t.matchingPlaces source old.values) :=
        findsAt_iff.2 ⟨known, source, Table.place?_of_updatePlaces? placed, rfl⟩
      have known' : done.store.book.get? file = some (t.updated store.keyColumn? old new) := by
        rw [after, known, Option.map_some]
      have counted : updateNote store.keyColumn? old new store.book file =
          .updated file (t.rowsAt (t.matchingPlaces source old.values)).length := by
        rw [updateNote_of_updatePlaces? known placed, Table.hits_eq_length balanced,
          Table.length_rowsAt found.inside]
      refine ⟨t, _, _, found, known',
        Table.updatedAt_matchingPlaces balanced (shape known) placed, ?_, ?_, ?_⟩
      · rw [note, counted]
      · intro loud
        have told' := (told file).symm.trans (congrArg Note.lines counted)
        rw [printed loud, List.singleton_inj.1 told']
      · intro column resolved in_place apart
        have key : done.store.keyColumn? = store.keyColumn? := by rw [applied]
        exact findRows_of_updated balanced placed resolved in_place apart known key known'

theorem updates_write_to_found_rows_ledger :
    let old : Chunk := ⟨none, ["2", "7"]⟩
    let new : Chunk := ⟨some "id", ["5", "5"]⟩
    let start : Store := { book := ledger }
    let done := start.update old new ["b", "z"]
    start.Reachable ∧ new.values.length = old.values.length ∧ ["b", "z"].Nodup ∧
      done.failure? = none ∧ done.notes = [.updated "b" 2, .skipped (.unknownFile "z")] ∧
      done.lines = ["📄 b: 2 行を更新しました", "⚠️  ファイルが見つかりません: z"] ∧
      (∃ fault, start.findRows "z" old = .error fault) ∧
      (∃ t u, start.FindsAt "b" old t [0, 1] ∧ done.store.book.get? "b" = some u ∧
        Table.UpdatedAt none old new t u [0, 1]) ∧
      done.store.findRows "b" old = .ok [] ∧
      ∃ before now, start.findRows "b" ⟨none, ["2", "7", "5", "5"]⟩ = .ok before ∧
        done.store.findRows "b" ⟨none, ["5", "5"]⟩ = .ok now ∧ now.length = before.length := by
  intro old new start done
  have notes : done.notes = [.updated "b" 2, .skipped (.unknownFile "z")] := by decide +kernel
  have lines : done.lines = ["📄 b: 2 行を更新しました", "⚠️  ファイルが見つかりません: z"] := by
    decide +kernel
  have distinct : ["b", "z"].Nodup := by decide
  obtain ⟨succeeds, -, -, each⟩ :=
    updates_write_to_found_rows reachable_ledger old new (.inr rfl) distinct
  obtain ⟨-, -, rewritten⟩ := each 0 "b" rfl
  obtain ⟨skips, -, -⟩ := each 1 "z" rfl
  have writes : ¬∃ fault, done.notes[0]? = some (Note.skipped fault) := by
    rw [notes]
    rintro ⟨fault, skipped⟩
    cases skipped
  obtain ⟨t, u, places, found, after, updated, -, -, gone⟩ := rewritten writes
  obtain rfl : places = [0, 1] := by
    obtain ⟨known, place, placed, rfl⟩ := findsAt_iff.1 found
    cases known
    cases placed
    decide +kernel
  obtain ⟨nothing, before, now, found_before, found_now, same⟩ :=
    gone "id" (by cases found.known; rfl) rfl (by decide)
  refine ⟨reachable_ledger, rfl, distinct, succeeds, notes, lines, ?_,
    ⟨t, u, found, after, updated⟩, nothing, before, now, found_before, found_now, same⟩
  rcases skips.1 ⟨_, by rw [notes]; rfl⟩ with fails | ⟨t, -, known, -⟩
  · exact fails
  · cases known

end TableShell.Store
