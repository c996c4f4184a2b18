import TableShell.Workbook

/-!
# Looking tables up

The laws of `Workbook.get?`: what an insertion changes (`get?_insert`), which of several tables
with one name counts (`get?_ofList`), which names are known (`mem_names_iff`), and that a workbook
is determined by its tables (`ext_get?`).
-/

namespace TableShell.Workbook

theorem lookup_cons (name key : String) (t : Table) (rest : List (String × Table)) :
    List.lookup name ((key, t) :: rest) = if name = key then some t else rest.lookup name := by
  by_cases h : name = key
  · simp [h]
  · simp [List.lookup_cons, beq_false_of_ne h, h]

private theorem lookup_insertEntry (name other : String) (t : Table)
    (entries : List (String × Table)) :
    (insertEntry name t entries).lookup other =
      if other = name then some t else entries.lookup other := by
  induction entries with
  | nil => simp [insertEntry, lookup_cons]
  | cons head rest ih =>
    obtain ⟨key, u⟩ := head
    simp only [insertEntry]
    split
    · simp [lookup_cons]
    · split
      · rename_i eq
        subst eq
        by_cases h : other = name <;> simp [lookup_cons, h]
      · rename_i ne
        by_cases h : other = key
        · subst h
          simp [Ne.symm ne]
        · simp [lookup_cons, h, ih]

/-- An insertion changes the table of its own name and no other. -/
theorem get?_insert (book : Workbook) (name other : String) (t : Table) :
    (book.insert name t).get? other = if other = name then some t else book.get? other :=
  lookup_insertEntry name other t book.entries

@[simp] theorem get?_empty (name : String) : empty.get? name = none := rfl

/-- Of the tables with one name the last one counts. -/
theorem get?_ofList (entries : List (String × Table)) (name : String) :
    (ofList entries).get? name = entries.reverse.lookup name := by
  have onto (book : Workbook) :
      (entries.foldl (fun book entry => book.insert entry.1 entry.2) book).get? name =
        (entries.reverse.lookup name).or (book.get? name) := by
    induction entries generalizing book with
    | nil => rfl
    | cons entry entries ih =>
      rw [List.foldl_cons, ih, get?_insert, List.reverse_cons, List.lookup_append, lookup_cons]
      by_cases eq : name = entry.1
      · simp [eq]
      · simp [eq]
  rw [ofList, onto, get?_empty, Option.or_none]

private theorem lookup_eq_some_iff {entries : List (String × Table)}
    (h : (entries.map Prod.fst).Pairwise (· < ·)) {name : String} {t : Table} :
    entries.lookup name = some t ↔ (name, t) ∈ entries := by
  induction entries with
  | nil => simp
  | cons head rest ih =>
    obtain ⟨key, u⟩ := head
    simp only [List.map_cons, List.pairwise_cons, List.mem_map] at h
    by_cases eq : name = key
    · subst eq
      constructor
      · intro found
        simp only [lookup_cons, if_true, Option.some.injEq] at found
        exact found ▸ List.mem_cons_self
      · intro member
        rcases List.mem_cons.1 member with member | member
        · cases member
          simp
        · exact absurd (h.1 name ⟨_, member, rfl⟩) (String.lt_irrefl name)
    · simp [lookup_cons, eq, ih h.2]

/-- The tables that are found are those in the list of entries. -/
theorem get?_eq_some_iff {book : Workbook} {name : String} {t : Table} :
    book.get? name = some t ↔ (name, t) ∈ book.entries :=
  lookup_eq_some_iff book.sorted

theorem mem_names_iff {book : Workbook} {name : String} :
    name ∈ book.names ↔ ∃ t, book.get? name = some t := by
  simp only [names, List.mem_map, get?_eq_some_iff]
  constructor
  · rintro ⟨e, member, rfl⟩
    exact ⟨e.2, member⟩
  · rintro ⟨t, member⟩
    exact ⟨_, member, rfl⟩

/-- The names increase, so none occurs twice. -/
theorem pairwise_names (book : Workbook) : book.names.Pairwise (· < ·) :=
  book.sorted

private theorem eq_of_lookup_eq {left right : List (String × Table)}
    (hl : (left.map Prod.fst).Pairwise (· < ·)) (hr : (right.map Prod.fst).Pairwise (· < ·))
    (same : ∀ name, left.lookup name = right.lookup name) : left = right := by
  have mem_iff (e : String × Table) : e ∈ left ↔ e ∈ right := by
    rw [← lookup_eq_some_iff hl, ← lookup_eq_some_iff hr, same]
  have perm : left.Perm right :=
    (List.perm_ext_iff_of_nodup
      (List.Pairwise.of_map _ (fun a b lt eq => String.lt_irrefl _ (eq ▸ lt)) hl)
      (List.Pairwise.of_map _ (fun a b lt eq => String.lt_irrefl _ (eq ▸ lt)) hr)).2 mem_iff
  refine perm.eq_of_pairwise ?_ (List.pairwise_map.1 hl) (List.pairwise_map.1 hr)
  intro a b _ _ lt gt
  exact absurd gt (String.lt_asymm lt)

/-- Two workbooks with the same tables are equal. -/
theorem ext_get? {left right : Workbook} (same : ∀ name, left.get? name = right.get? name) :
    left = right :=
  Workbook.ext (eq_of_lookup_eq left.sorted right.sorted same)

end TableShell.Workbook
