import TableShell.Proofs.Store.Update

/-!
# Updates in succession

What comes of one update after another that reads and writes the same columns
(`Table.updated_updated_eq`). The second one acts on the rows as the first one has left them, so it
matters whether a value that was written is read again. It is not if the column that is written is
another one than the column that is read (`Store.WritesElsewhere`).

## Main definitions

- `Store.WritesElsewhere`: in some files an update does not write to the column that it reads
-/

namespace TableShell

namespace Substitution

variable {s : Substitution} {value other : String}

/-- A lone new value is the only one that is written. -/
theorem new_eq_of_replacement? (lone : s.new.length = 1)
    (replaced : s.replacement? value = some other) : s.new = [other] := by
  obtain ⟨i, -, written⟩ := Option.bind_eq_some_iff.1 replaced
  rw [valueAt?_eq_getElem? (isBalanced_iff.2 (.inl lone)), if_pos lone] at written
  obtain ⟨only, new⟩ := List.length_eq_one_iff.1 lone
  rw [new] at written ⊢
  rw [Option.some.inj written]

/-- With as many new values as old ones, an old value is replaced by the new one at its position. -/
theorem replacement?_eq (even : s.old.length = s.new.length) :
    s.replacement? value = (s.old.idxOf? value).bind (s.new[·]?) := by
  rw [replacement?]
  cases first : s.old.idxOf? value with
  | none => rfl
  | some i =>
    have known : i < s.old.length := (List.idxOf?_eq_some_iff.1 first).1
    rw [Option.bind_some, Option.bind_some,
      valueAt?_eq_getElem? (isBalanced_iff.2 (.inr even.symm))]
    split
    next lone =>
      have front : i = 0 := by omega
      rw [front]
    next => rfl

/-- The first of the old values is replaced by the first of the new ones. -/
theorem replacement?_cons {vs ws : List String} (even : vs.length = ws.length)
    (v w value : String) :
    replacement? ⟨v :: vs, w :: ws⟩ value =
      if value = v then some w else replacement? ⟨vs, ws⟩ value := by
  have even' : (v :: vs).length = (w :: ws).length := congrArg (· + 1) even
  rw [replacement?_eq even', replacement?_eq even, List.idxOf?_cons]
  by_cases first : value = v
  · rw [if_pos first, first, beq_self_eq_true, if_pos rfl]
    rfl
  · rw [if_neg first, beq_false_of_ne (Ne.symm first), if_neg Bool.false_ne_true]
    cases vs.idxOf? value with
    | none => rfl
    | some i => rfl

end Substitution

namespace Table

variable {s : Substitution} {source target : Nat} {row : Row}

/-! ### Rows -/

/-- An update that has a lone new value, or that does not write to the cell that it reads, has
nothing left to do on a row after the first time. -/
theorem rewriteRow_rewriteRow (settles : s.new.length = 1 ∨ source ≠ target) (row : Row) :
    rewriteRow s source target (rewriteRow s source target row) =
      rewriteRow s source target row := by
  cases written : row[source]?.bind s.replacement? with
  | none => rw [rewriteRow_of_none written, rewriteRow_of_none written]
  | some value =>
    rw [rewriteRow_of_some written]
    cases again : (row.set target value)[source]?.bind s.replacement? with
    | none => exact rewriteRow_of_none again
    | some value' =>
      have same : value = value' := by
        rcases settles with lone | apart
        · obtain ⟨_, _, replaced⟩ := Option.bind_eq_some_iff.1 written
          obtain ⟨_, _, replaced'⟩ := Option.bind_eq_some_iff.1 again
          have new := Substitution.new_eq_of_replacement? lone replaced
          rw [Substitution.new_eq_of_replacement? lone replaced'] at new
          exact (List.singleton_inj.1 new).symm
        · rw [List.getElem?_set_ne apart.symm, written] at again
          exact Option.some.inj again
      rw [rewriteRow_of_some again, same, List.set_set]

/-- The first pair of values can be substituted before the others, unless it writes a value that
another pair reads. -/
theorem rewriteRow_cons {v w : String} {vs ws : List String} (even : vs.length = ws.length)
    (fresh : v ∉ vs) (calm : source ≠ target ∨ w ∉ vs) (row : Row) :
    rewriteRow ⟨v :: vs, w :: ws⟩ source target row =
      rewriteRow ⟨vs, ws⟩ source target (rewriteRow ⟨[v], [w]⟩ source target row) := by
  have whole := Substitution.replacement?_cons even v w
  have alone (value : String) :
      Substitution.replacement? ⟨[v], [w]⟩ value = if value = v then some w else none :=
    Substitution.replacement?_cons rfl v w value
  cases read : row[source]? with
  | none =>
    have kept (s : Substitution) : row[source]?.bind s.replacement? = none := by
      rw [read, Option.bind_none]
    rw [rewriteRow_of_none (kept _), rewriteRow_of_none (kept _), rewriteRow_of_none (kept _)]
  | some cell =>
    by_cases first : cell = v
    · have written : row[source]?.bind (Substitution.replacement? ⟨v :: vs, w :: ws⟩) = some w := by
        rw [read, Option.bind_some, whole, if_pos first]
      have written' : row[source]?.bind (Substitution.replacement? ⟨[v], [w]⟩) = some w := by
        rw [read, Option.bind_some, alone, if_pos first]
      rw [rewriteRow_of_some written, rewriteRow_of_some written']
      -- No other pair reads what the cell is now.
      have unread : ∃ cell' ∉ vs, (row.set target w)[source]? = some cell' := by
        by_cases here : source = target
        · obtain ⟨inside, -⟩ := List.getElem?_eq_some_iff.1 read
          refine ⟨w, calm.resolve_left (not_not_intro here), ?_⟩
          rw [← here, List.getElem?_set_self inside]
        · exact ⟨v, fresh, by rw [List.getElem?_set_ne (Ne.symm here), read, first]⟩
      obtain ⟨cell', absent, read'⟩ := unread
      refine (rewriteRow_of_none ?_).symm
      rw [read', Option.bind_some]
      exact Substitution.replacement?_of_not_mem absent
    · have kept : row[source]?.bind (Substitution.replacement? ⟨[v], [w]⟩) = none := by
        rw [read, Option.bind_some, alone, if_neg first]
      rw [rewriteRow_of_none kept, rewriteRow, rewriteRow, read, Option.bind_some,
        Option.bind_some, whole, if_neg first]

/-! ### Tables -/

variable {keyColumn? oldColumn? newColumn? : Option String} {t : Table}

theorem updatePlaces?_of_columns {u : Table} (same : u.columns = t.columns) (old new : Chunk) :
    u.updatePlaces? keyColumn? old new = t.updatePlaces? keyColumn? old new := by
  rw [updatePlaces?, updatePlaces?, same, columnIndex?_of_columns same]

/-- Two updates in succession are one update if they are on each row. -/
theorem updated_updated_eq (s s' whole : Substitution)
    (rows : ∀ source target, t.updatePlaces? keyColumn? ⟨oldColumn?, whole.old⟩
        ⟨newColumn?, whole.new⟩ = some (source, target) →
      ∀ row, rewriteRow s' source target (rewriteRow s source target row) =
        rewriteRow whole source target row) :
    (t.updated keyColumn? ⟨oldColumn?, s.old⟩ ⟨newColumn?, s.new⟩).updated keyColumn?
        ⟨oldColumn?, s'.old⟩ ⟨newColumn?, s'.new⟩ =
      t.updated keyColumn? ⟨oldColumn?, whole.old⟩ ⟨newColumn?, whole.new⟩ := by
  -- The places depend on the columns alone, which no update changes.
  have places (s : Substitution) :
      t.updatePlaces? keyColumn? ⟨oldColumn?, s.old⟩ ⟨newColumn?, s.new⟩ =
        t.updatePlaces? keyColumn? ⟨oldColumn?, whole.old⟩ ⟨newColumn?, whole.new⟩ := rfl
  rw [updated, updatePlaces?_of_columns columns_updated, updated, updated, places s, places s']
  cases placed : t.updatePlaces? keyColumn? ⟨oldColumn?, whole.old⟩ ⟨newColumn?, whole.new⟩ with
  | none => rfl
  | some ends =>
    obtain ⟨source, target⟩ := ends
    have each : (t.rows.map (rewriteRow s source target)).map (rewriteRow s' source target) =
        t.rows.map (rewriteRow whole source target) := by
      rw [List.map_map]
      exact List.map_congr_left fun row _ => rows source target placed row
    exact congrArg (Table.mk t.columns) each

end Table

namespace Store

variable {store : Store} {old new : Chunk} {files : List String} {file : String} {t : Table}

/-- In each of some files the new chunk names a column, and not the one that the old chunk means. -/
def WritesElsewhere (store : Store) (old new : Chunk) (files : List String) : Prop :=
  ∀ file ∈ files, ∀ t ∈ store.book.get? file,
    ∃ column ∈ new.column?, store.column? t old.column? ≠ some column

instance (store : Store) (old new : Chunk) (files : List String) :
    Decidable (store.WritesElsewhere old new files) :=
  inferInstanceAs (Decidable (∀ file ∈ files, ∀ t ∈ store.book.get? file,
    ∃ column ∈ new.column?, store.column? t old.column? ≠ some column))

theorem WritesElsewhere.ne (elsewhere : store.WritesElsewhere old new files) (listed : file ∈ files)
    (known : store.book.get? file = some t) {source target : Nat}
    (placed : t.updatePlaces? store.keyColumn? old new = some (source, target)) :
    source ≠ target := by
  obtain ⟨column, named, other⟩ := elsewhere file listed t known
  obtain ⟨read, resolved, atSource, atTarget⟩ := Table.updatePlaces?_eq_some_iff.1 placed
  rw [Option.mem_def.1 named, Option.getD_some] at atTarget
  rintro rfl
  obtain ⟨_, here, -⟩ := List.idxOf?_eq_some_iff.1 atSource
  obtain ⟨_, here', -⟩ := List.idxOf?_eq_some_iff.1 atTarget
  rw [column?_eq_or, resolved, ← here, here'] at other
  exact other rfl

end Store

end TableShell
