import TableShell.Table.Substitute

/-!
# Substitution row by row

On a rectangular table a balanced substitution looks up nothing that is not there, and it treats
each row by itself (`substitute_eq_ok`). `Rewrites` says what becomes of a row, in terms of the
cells before the update and of nothing that the update has written.
-/

namespace TableShell

namespace Substitution

variable {s : Substitution} {i : Nat}

theorem isBalanced_iff : s.isBalanced ↔ s.new.length = 1 ∨ s.new.length = s.old.length := by
  simp only [isBalanced, isPairwise, Bool.or_eq_true, Bool.and_eq_true, beq_iff_eq, bne_iff_ne]
  omega

/-- With balanced values a lone new value serves all old ones, and otherwise each old value has
the new one at its own position. -/
theorem valueAt?_eq_getElem? (balanced : s.isBalanced) :
    s.valueAt? i = s.new[if s.new.length = 1 then 0 else i]? := by
  by_cases lone : s.new.length = 1
  · simp [valueAt?, isPairwise, lone]
  · have pairwise : s.isPairwise := by simpa [isBalanced, lone] using balanced
    simp [valueAt?, pairwise, lone]

theorem exists_valueAt?_eq_some (balanced : s.isBalanced) (known : i < s.old.length) :
    ∃ value, s.valueAt? i = some value := by
  -- A lone value is taken from the front, and otherwise there are as many new values as old ones.
  have inRange : (if s.new.length = 1 then 0 else i) < s.new.length := by
    split
    · omega
    · next many =>
      have same : s.new.length = s.old.length := by
        simpa [isBalanced, isPairwise, many] using balanced
      omega
  exact ⟨_, (valueAt?_eq_getElem? balanced).trans (List.getElem?_eq_getElem inRange)⟩

/-- What is put in the place of a value, if it is one of the old ones. -/
def replacement? (s : Substitution) (value : String) : Option String :=
  (s.old.idxOf? value).bind s.valueAt?

theorem replacement?_of_not_mem {value : String} (absent : value ∉ s.old) :
    s.replacement? value = none := by
  rw [replacement?, List.idxOf?_eq_none_iff.2 absent, Option.bind_none]

end Substitution

namespace Table

variable {s : Substitution} {source target : Nat}

/-- The row after an update that reads the cell at `source` and writes the one at `target`. -/
def rewriteRow (s : Substitution) (source target : Nat) (row : Row) : Row :=
  ((row[source]?.bind s.replacement?).map (row.set target)).getD row

theorem rewriteRow_of_none {row : Row} (kept : row[source]?.bind s.replacement? = none) :
    rewriteRow s source target row = row := by
  rw [rewriteRow, kept]
  rfl

theorem rewriteRow_of_some {row : Row} {value : String}
    (written : row[source]?.bind s.replacement? = some value) :
    rewriteRow s source target row = row.set target value := by
  rw [rewriteRow, written]
  rfl

@[simp] theorem length_rewriteRow (row : Row) :
    (rewriteRow s source target row).length = row.length := by
  rw [rewriteRow]
  cases row[source]?.bind s.replacement? <;> simp

/-- What an update makes of a row, as the row was before it. -/
inductive Rewrites (s : Substitution) (source target : Nat) (row : Row) : Row → Prop
  /-- The cell that is read is an old value, which counts where it occurs first. The lone new
  value, or else the one at the same position, is written. -/
  | hit {cell value : String} {i : Nat} (read : row[source]? = some cell)
      (first : s.old.idxOf? cell = some i)
      (new : s.new[if s.new.length = 1 then 0 else i]? = some value)
      (room : target < row.length) : Rewrites s source target row (row.set target value)
  /-- The cell that is read is no old value. -/
  | miss {cell : String} (read : row[source]? = some cell) (absent : cell ∉ s.old) :
      Rewrites s source target row row

theorem rewrites_rewriteRow (balanced : s.isBalanced) {row : Row} (hs : source < row.length)
    (ht : target < row.length) : Rewrites s source target row (rewriteRow s source target row) := by
  have read : row[source]? = some row[source] := List.getElem?_eq_getElem hs
  cases first : s.old.idxOf? row[source] with
  | none =>
    have absent : row[source] ∉ s.old := List.idxOf?_eq_none_iff.1 first
    have kept : row[source]?.bind s.replacement? = none := by
      rw [read, Option.bind_some, Substitution.replacement?_of_not_mem absent]
    rw [rewriteRow_of_none kept]
    exact .miss read absent
  | some i =>
    have known : i < s.old.length := (List.idxOf?_eq_some_iff.1 first).1
    obtain ⟨value, new⟩ := Substitution.exists_valueAt?_eq_some balanced known
    have written : row[source]?.bind s.replacement? = some value := by
      rw [read, Option.bind_some, Substitution.replacement?, first, Option.bind_some, new]
    rw [rewriteRow_of_some written]
    exact .hit read first (Substitution.valueAt?_eq_getElem? balanced ▸ new) ht

private theorem substituteRow_eq_ok (balanced : s.isBalanced) {row : Row} (hs : source < row.length)
    (ht : target < row.length) :
    substituteRow s source target row =
      .ok ((row[source]?.bind s.replacement?).map (row.set target)) := by
  have read : row[source]? = some row[source] := List.getElem?_eq_getElem hs
  cases first : s.old.idxOf? row[source] with
  | none => simp [substituteRow, read, first, Substitution.replacement?]
  | some i =>
    have known : i < s.old.length := (List.idxOf?_eq_some_iff.1 first).1
    obtain ⟨value, new⟩ := Substitution.exists_valueAt?_eq_some balanced known
    simp [substituteRow, read, first, new, Substitution.replacement?, writeCell, ht, Except.map]

theorem mapM_substituteRow_eq_ok (balanced : s.isBalanced) {rows : List Row}
    (wide : ∀ row ∈ rows, source < row.length ∧ target < row.length) :
    rows.mapM (substituteRow s source target) =
      .ok (rows.map fun row => (row[source]?.bind s.replacement?).map (row.set target)) := by
  induction rows with
  | nil => rfl
  | cons row rows ih =>
    have here := wide row List.mem_cons_self
    have rest := ih fun other member => wide other (List.mem_cons_of_mem row member)
    rw [List.mapM_cons, substituteRow_eq_ok balanced here.1 here.2, rest]
    rfl

/-- The number of rows that an update writes to. -/
def hits (s : Substitution) (source : Nat) (t : Table) : Nat :=
  t.rows.countP fun row => (row[source]?.bind s.replacement?).isSome

/-- On a rectangular table a balanced substitution succeeds and rewrites each row by itself. -/
theorem substitute_eq_ok (balanced : s.isBalanced) {t : Table} (shape : t.Rectangular)
    (hs : source < t.columns.length) (ht : target < t.columns.length) :
    t.substitute s source target =
      .ok ({ t with rows := t.rows.map (rewriteRow s source target) }, t.hits s source) := by
  have wide : ∀ row ∈ t.rows, source < row.length ∧ target < row.length := by
    intro row member
    rw [shape.2 row member]
    exact ⟨hs, ht⟩
  rw [substitute, mapM_substituteRow_eq_ok balanced wide]
  simp only [bind, Except.bind, pure, Except.pure, List.zipWith_map_left, List.zipWith_self,
    List.countP_map, Function.comp_def, Option.isSome_map, hits]
  rfl

end Table

end TableShell
