import TableShell.Proofs.Field.Range
import TableShell.Proofs.Session.Reachable
import TableShell.Proofs.Table.CopyRange

/-!
# Copying ranges of rows

A copy command copies one row after the other, each in the tables that the earlier copies have
left. If no row is read after another was placed under its key, which for ranges of numbers means
that the target range does not begin inside the source range (`apart_numerals_iff`), the tables
are those that would come of reading all rows before placing any of them.
-/

namespace TableShell

/-! ### One table -/

namespace Table

variable {keyColumn : String} {t : Table}

/-- The table after the copies of all pairs, one after the other. -/
def copiedEach (keyColumn : String) (pairs : List (String × String)) (t : Table) : Table :=
  pairs.foldl (fun t pair => t.copied keyColumn pair.1 pair.2) t

theorem copiedEach_cons (pair : String × String) (pairs : List (String × String)) :
    t.copiedEach keyColumn (pair :: pairs) =
      (t.copied keyColumn pair.1 pair.2).copiedEach keyColumn pairs := rfl

theorem copiedEach_of_none (pairs : List (String × String))
    (unknown : t.columnIndex? keyColumn = none) : t.copiedEach keyColumn pairs = t := by
  induction pairs with
  | nil => rfl
  | cons pair pairs ih => rw [copiedEach_cons, copied_of_none unknown, ih]

theorem copiedEach_of_some {key : Nat} (pairs : List (String × String))
    (found : t.columnIndex? keyColumn = some key) :
    t.copiedEach keyColumn pairs = { t with rows := copyEach key pairs t.rows } := by
  induction pairs generalizing t with
  | nil => rfl
  | cons pair pairs ih =>
    have still_found : (t.copied keyColumn pair.1 pair.2).columnIndex? keyColumn = some key := by
      rw [columnIndex?_copied, found]
    rw [copiedEach_cons, ih still_found, copied_of_some found]
    rfl

end Table

/-! ### The pairs of a copy -/

namespace Plan

/-- No source is equal to a target that comes before it, so none is read after it was written. -/
def Apart (sources targets : List String) : Prop :=
  ∀ ⦃i j : Nat⦄ ⦃target source : String⦄, i < j → targets[i]? = some target →
    sources[j]? = some source → target ≠ source

theorem Apart.pairwise_zip {sources targets : List String} (apart : Apart sources targets) :
    (sources.zip targets).Pairwise fun earlier later => later.1 ≠ earlier.2 := by
  rw [List.pairwise_iff_getElem]
  intro i j hi hj lt
  rw [List.length_zip] at hi hj
  rw [List.getElem_zip, List.getElem_zip]
  exact (apart lt (List.getElem?_eq_getElem (by omega)) (List.getElem?_eq_getElem (by omega))).symm

theorem pairwise_zip_of_nodup (sources : List String) {targets : List String}
    (distinct : targets.Nodup) :
    (sources.zip targets).Pairwise fun earlier later => later.2 ≠ earlier.2 := by
  rw [List.pairwise_iff_getElem]
  intro i j hi hj lt
  rw [List.length_zip] at hi hj
  rw [List.getElem_zip, List.getElem_zip]
  have ordered := List.pairwise_iff_getElem.1 (List.nodup_iff_pairwise_ne.1 distinct)
  exact (ordered i j (by omega) (by omega) lt).symm

/-- Ranges of numbers are apart if the second one does not begin inside the first one, its
beginning apart. -/
theorem apart_numerals_iff {a b c d : Nat}
    (even : (Field.numerals a b).length = (Field.numerals c d).length) :
    Apart (Field.numerals a b) (Field.numerals c d) ↔
      c ≤ a ∨ a + (Field.numerals a b).length ≤ c := by
  rw [Field.length_numerals, Field.length_numerals] at even
  rw [Field.length_numerals]
  constructor
  · intro apart
    refine Decidable.byContradiction fun inside => ?_
    -- The target at `0` is the source at `c - a`.
    have target : (Field.numerals c d)[0]? = some c.repr := Field.getElem?_numerals (by omega)
    have source : (Field.numerals a b)[c - a]? = some c.repr := by
      rw [Field.getElem?_numerals (by omega)]
      congr 2
      omega
    exact apart (by omega) target source rfl
  · intro outside i j target source lt atTarget atSource eq
    have hi : i < d + 1 - c := by
      simpa using (List.getElem?_eq_some_iff.1 atTarget).1
    have hj : j < b + 1 - a := by
      simpa using (List.getElem?_eq_some_iff.1 atSource).1
    rw [Field.getElem?_numerals hi, Option.some.injEq] at atTarget
    rw [Field.getElem?_numerals hj, Option.some.injEq] at atSource
    have same : c + i = a + j := Nat.repr_injective (atTarget.trans (eq.trans atSource.symm))
    omega

end Plan

/-! ### All tables -/

namespace Store

variable {store : Store} {scope keyColumn : String}

/-- The state after the first of several copies, which selects the same files. -/
theorem select_copy (shape : store.book.Rectangular) (source target : String)
    (files : List String) :
    (store.copy keyColumn source target files).store.select scope = store.select scope :=
  select_perform shape (.copy keyColumn source target) files scope

private theorem get?_copy (shape : store.book.Rectangular) (source target name : String) :
    (store.copy keyColumn source target (store.select scope)).store.book.get? name =
      if name ∈ store.select scope then
        (store.book.get? name).map (Table.copied keyColumn source target)
      else store.book.get? name := by
  rw [copy_eq_modifyAll shape]
  exact Workbook.get?_modifyAll_of_nodup _ store.book (Workbook.nodup_select store.book scope) name

/-- Several copies change each table of the scope as if it were the only one. -/
theorem get?_runAll_copySteps (shape : store.book.Rectangular) (pairs : List (String × String))
    (name : String) :
    (Step.runAll engine store (Plan.copySteps scope keyColumn pairs)).1.book.get? name =
      if name ∈ store.select scope then
        (store.book.get? name).map (Table.copiedEach keyColumn pairs)
      else store.book.get? name := by
  induction pairs generalizing store with
  | nil =>
    split
    · exact (congrFun Option.map_id _).symm
    · rfl
  | cons pair pairs ih =>
    have sound := rectangular_perform shape (.copy keyColumn pair.1 pair.2) (store.select scope)
    refine (ih sound).trans ?_
    simp only [perform, select_copy shape, get?_copy shape]
    by_cases selected : name ∈ store.select scope
    · rw [if_pos selected, if_pos selected, if_pos selected, Option.map_map]
      rfl
    · rw [if_neg selected, if_neg selected, if_neg selected]

/-- What is reported of the copy of one pair: that it begins, and that it failed if there are files
and none of them has a row to copy. -/
def copyReports (store : Store) (files : List String) (keyColumn : String)
    (pair : String × String) : List Report :=
  .copying pair.1 pair.2 ::
    if files ≠ [] ∧ ¬store.offersIn files keyColumn pair.1 then
      [.failure (.operation "行のコピー" (Fault.noSourceRows pair.1).message)]
    else []

private theorem reports_run_copyStep (shape : store.book.Rectangular) (pair : String × String) :
    ((Plan.copyStep scope keyColumn pair.1 pair.2).run engine store).2.reports =
      store.copyReports (store.select scope) keyColumn pair := by
  rw [Step.reports_run]
  simp only [Plan.copyStep, engine, perform, Outcome.reply, copy_eq_modifyAll shape, copyReports]
  split
  · rfl
  · rfl

theorem reports_runAll_copySteps (shape : store.book.Rectangular) {pairs : List (String × String)}
    (reads : pairs.Pairwise fun earlier later => later.1 ≠ earlier.2) :
    (Step.runAll engine store (Plan.copySteps scope keyColumn pairs)).2.reports =
      pairs.flatMap (store.copyReports (store.select scope) keyColumn) := by
  induction pairs generalizing store with
  | nil => rfl
  | cons pair pairs ih =>
    obtain ⟨reads_now, reads_later⟩ := List.pairwise_cons.1 reads
    have sound := rectangular_perform shape (.copy keyColumn pair.1 pair.2) (store.select scope)
    rw [Plan.copySteps, List.map_cons, Step.runAll, Transcript.reports_append,
      reports_run_copyStep shape, List.flatMap_cons]
    congr 1
    refine (ih sound reads_later).trans ?_
    apply List.flatMap_congr
    -- What a later pair finds is what it would have found before the first copy.
    intro later member
    simp only [copyReports, perform, select_copy shape,
      offersIn_copy shape (reads_now later member)]

/-- A copy of as many rows to as many keys, no row being read after another was placed under its
key, reads all rows before it places any. In each table of its scope that has the key column the
copies are placed among the rows as `Table.CopiedAtOnce` says, and it changes nothing else. For
each pair it reports a failure if there are files in the scope and none of them had a row to copy
before the command. -/
theorem copy_reads_before_it_writes (reached : store.Reachable) (keyColumn scope : String)
    {sourceText targetText : String}
    (even : (Field.read sourceText).value.length = (Field.read targetText).value.length)
    (apart : Plan.Apart (Field.read sourceText).value (Field.read targetText).value) :
    let pairs := (Field.read sourceText).value.zip (Field.read targetText).value
    let done := Session.execute engine store (.copy keyColumn sourceText targetText scope)
    done.state.book.names = store.book.names ∧
      (∀ name, name ∉ store.select scope → done.state.book.get? name = store.book.get? name) ∧
      (∀ name ∈ store.select scope, ∀ t, store.book.get? name = some t →
        match t.columnIndex? keyColumn with
        | none => done.state.book.get? name = some t
        | some key =>
          ∃ rows, done.state.book.get? name = some { t with rows } ∧
            Table.CopiedAtOnce key pairs t.rows rows) ∧
      done.transcript.reports =
        (Field.read sourceText).reports ++ (Field.read targetText).reports ++
          pairs.flatMap (store.copyReports (store.select scope) keyColumn) ∧
      done.result = .ok true := by
  intro pairs done
  have shape := reached.rectangular
  have each : ∀ name, done.state.book.get? name = if name ∈ store.select scope then
      (store.book.get? name).map (Table.copiedEach keyColumn pairs) else store.book.get? name := by
    intro name
    simp only [done, Session.execute, Command.plan, Plan.run, Plan.ofCopy_of_even even]
    exact get?_runAll_copySteps shape pairs name
  -- No pair reads or writes the key that an earlier one has written.
  have reads := apart.pairwise_zip
  have writes :=
    Plan.pairwise_zip_of_nodup (Field.read sourceText).value (Field.nodup_read targetText)
  refine ⟨?_, ?_, ?_, ?_, ?_⟩
  · apply Workbook.names_eq_of_isSome_eq
    intro name
    rw [each]
    split
    · exact Option.isSome_map
    · rfl
  · intro name unselected
    rw [each, if_neg unselected]
  · intro name selected t found
    rw [each, if_pos selected, found, Option.map_some]
    cases column : t.columnIndex? keyColumn with
    | none => rw [Table.copiedEach_of_none pairs column]
    | some key =>
      rw [Table.copiedEach_of_some pairs column]
      exact ⟨_, rfl, Table.copiedAtOnce_copyEach reads writes t.rows⟩
  · simp only [done, Session.execute, Command.plan, Plan.run, Plan.ofCopy_of_even even]
    rw [Transcript.reports_append, Transcript.reports_map_report,
      reports_runAll_copySteps shape reads]
  · simp only [done, Session.execute, Command.plan, Plan.ofCopy_of_even even]
    rfl

theorem copy_reads_before_it_writes_ledger :
    let sources := (Field.read "1-3").value
    let targets := (Field.read "0-2").value
    let start : Store := { book := ledger }
    let done := Session.execute engine start (.copy "id" "1-3" "0-2" "in a")
    start.Reachable ∧ sources.length = targets.length ∧ Plan.Apart sources targets ∧
      done.state.book.get? "a" = some { columns := ["id", "name"], rows :=
        [["1", "y"], ["2", "y"], ["0", "x"]] } ∧
      Table.CopiedAtOnce 0 [("1", "0"), ("2", "1"), ("3", "2")] [["1", "x"], ["2", "y"]]
        [["1", "y"], ["2", "y"], ["0", "x"]] ∧
      done.state.book.get? "b" = start.book.get? "b" ∧
      done.transcript.reports =
        [.copying "1" "0", .copying "2" "1", .copying "3" "2",
          .failure (.operation "行のコピー" (Fault.noSourceRows "3").message)] := by
  intro sources targets start done
  have numbered : sources = Field.numerals 1 3 ∧ targets = Field.numerals 0 2 := by decide +kernel
  have apart : Plan.Apart sources targets := by
    rw [numbered.1, numbered.2, Plan.apart_numerals_iff (by decide +kernel)]
    omega
  have even : sources.length = targets.length := by decide +kernel
  obtain ⟨-, elsewhere, placed, reported, -⟩ :=
    copy_reads_before_it_writes reachable_ledger "id" "in a" even apart
  obtain ⟨rows, now, copied⟩ := placed "a" (by decide +kernel) _ rfl
  have result : done.state.book.get? "a" = some
      { columns := ["id", "name"], rows := [["1", "y"], ["2", "y"], ["0", "x"]] } := by
    decide +kernel
  cases now.symm.trans result
  refine ⟨reachable_ledger, even, apart, result, ?_, ?_, ?_⟩
  · have pairs : sources.zip targets = [("1", "0"), ("2", "1"), ("3", "2")] := by decide +kernel
    rwa [pairs] at copied
  · exact elsewhere "b" (by decide +kernel)
  · exact reported.trans (by decide +kernel)

end Store

end TableShell
