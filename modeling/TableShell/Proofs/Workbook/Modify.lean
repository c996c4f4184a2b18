import Mathlib.Data.Option.Basic
import Mathlib.Logic.Function.Iterate
import TableShell.Workbook.Lookup

/-!
# Modifying tables in place

Requests change a workbook by functions on its tables. `modify` applies a function to the table of
one file and `modifyAll` to those of a list of files, once for each occurrence in the list
(`get?_modifyAll`). No such change adds, removes or renames a file.

## Main definitions

- `Workbook.Rectangular`: all tables are rectangular
- `Workbook.modify`, `Workbook.modifyAll`: a function applied to tables
- `Workbook.Rel`: two workbooks with the same files whose tables are related
-/

namespace TableShell.Workbook

variable {book : Workbook} {name other : String} {t : Table} {f : Table → Table}

/-! ### Names -/

theorem nodup_names (book : Workbook) : book.names.Nodup := by
  refine book.pairwise_names.imp ?_
  rintro a b lt rfl
  exact String.lt_irrefl a lt

theorem names_eq_of_isSome_eq {left right : Workbook}
    (same : ∀ name, (left.get? name).isSome = (right.get? name).isSome) :
    left.names = right.names := by
  have mem_iff (name : String) : name ∈ left.names ↔ name ∈ right.names := by
    simp only [mem_names_iff, ← Option.isSome_iff_exists, same]
  -- Sorted lists with the same members are equal.
  have perm : left.names.Perm right.names :=
    (List.perm_ext_iff_of_nodup left.nodup_names right.nodup_names).2 mem_iff
  refine perm.eq_of_pairwise ?_ left.pairwise_names right.pairwise_names
  intro a b _ _ lt gt
  exact absurd gt (String.lt_asymm lt)

theorem nodup_select (book : Workbook) (text : String) : (book.select text).Nodup := by
  rw [select]
  split
  · exact book.nodup_names.filter _
  · exact book.nodup_names.filter _

theorem select_congr {left right : Workbook} (same : left.names = right.names) (text : String) :
    left.select text = right.select text := by
  rw [select, select, same]

/-! ### Shape -/

/-- All tables are rectangular. -/
def Rectangular (book : Workbook) : Prop :=
  ∀ ⦃name t⦄, book.get? name = some t → t.Rectangular

theorem shapeFault?_eq_none_iff : book.shapeFault? = none ↔ book.Rectangular := by
  simp only [shapeFault?, List.findSome?_eq_none_iff, Option.map_eq_none_iff,
    Table.shapeFault?_eq_none_iff]
  constructor
  · intro sound name t found
    exact sound (name, t) (get?_eq_some_iff.1 found)
  · rintro sound ⟨name, t⟩ member
    exact sound (get?_eq_some_iff.2 member)

/-- The tables in front of that of a file are those of smaller names. -/
theorem mem_before_iff {before after : List (String × Table)} {u : Table}
    (split : book.entries = before ++ (name, t) :: after) :
    (other, u) ∈ before ↔ book.get? other = some u ∧ other < name := by
  have sorted := book.sorted
  rw [split, List.map_append, List.map_cons, List.pairwise_append, List.pairwise_cons] at sorted
  obtain ⟨-, ⟨larger, -⟩, smaller⟩ := sorted
  rw [get?_eq_some_iff, split, List.mem_append, List.mem_cons]
  constructor
  · intro earlier
    exact ⟨.inl earlier, smaller other (List.mem_map_of_mem earlier) name List.mem_cons_self⟩
  · rintro ⟨earlier | same | later, less⟩
    · exact earlier
    · cases same
      exact absurd less (String.lt_irrefl _)
    · exact absurd less (String.lt_asymm (larger other (List.mem_map_of_mem later)))

/-- The fault of a workbook is that of the first table that is not rectangular. -/
theorem shapeFault?_eq_some_iff {fault : ShapeFault} :
    book.shapeFault? = some (name, fault) ↔
      ∃ t, book.get? name = some t ∧ t.shapeFault? = some fault ∧
        ∀ other u, book.get? other = some u → other < name → u.Rectangular := by
  rw [shapeFault?, List.findSome?_eq_some_iff]
  constructor
  · rintro ⟨before, ⟨_, t⟩, after, split, here, fit⟩
    obtain ⟨fault, faulty, same⟩ := Option.map_eq_some_iff.1 here
    obtain ⟨rfl, rfl⟩ := Prod.mk.inj same
    have member := split ▸ List.mem_append_right before List.mem_cons_self
    refine ⟨t, get?_eq_some_iff.2 member, faulty, ?_⟩
    intro other u known less
    have sound := fit (other, u) ((mem_before_iff split).2 ⟨known, less⟩)
    exact Table.shapeFault?_eq_none_iff.1 (Option.map_eq_none_iff.1 sound)
  · rintro ⟨t, known, faulty, fit⟩
    obtain ⟨before, after, split⟩ := List.append_of_mem (get?_eq_some_iff.1 known)
    refine ⟨before, (name, t), after, split, by rw [faulty, Option.map_some], ?_⟩
    rintro ⟨other, u⟩ earlier
    rw [Option.map_eq_none_iff, Table.shapeFault?_eq_none_iff]
    obtain ⟨there, less⟩ := (mem_before_iff split).1 earlier
    exact fit other u there less

theorem exists_of_shapeFault? {fault : ShapeFault}
    (first : book.shapeFault? = some (name, fault)) :
    ∃ t, book.get? name = some t ∧ t.shapeFault? = some fault := by
  obtain ⟨t, known, faulty, -⟩ := shapeFault?_eq_some_iff.1 first
  exact ⟨t, known, faulty⟩

theorem Rectangular.insert (shape : book.Rectangular) (new : t.Rectangular) :
    (book.insert name t).Rectangular := by
  intro other u found
  rw [get?_insert] at found
  split at found
  · obtain rfl : t = u := by simpa using found
    exact new
  · exact shape found

/-! ### Functions applied to tables -/

/-- The workbook with a function applied to the table of a file, if there is one. -/
def modify (f : Table → Table) (book : Workbook) (name : String) : Workbook :=
  match book.get? name with
  | none => book
  | some t => book.insert name (f t)

theorem get?_modify (f : Table → Table) (book : Workbook) (name other : String) :
    (modify f book name).get? other =
      if other = name then (book.get? other).map f else book.get? other := by
  rw [modify]
  split
  next unknown =>
    split
    next eq => rw [eq, unknown, Option.map_none]
    next => rfl
  next t found =>
    rw [get?_insert]
    split
    next eq => rw [eq, found, Option.map_some]
    next => rfl

theorem modify_of_none (unknown : book.get? name = none) : modify f book name = book := by
  rw [modify, unknown]

/-- A function that keeps the table of a file leaves the workbook as it is. -/
theorem modify_of_fixed (found : book.get? name = some t) (fixed : f t = t) :
    modify f book name = book := by
  apply ext_get?
  intro other
  rw [get?_modify]
  split
  next eq => rw [eq, found, Option.map_some, fixed]
  next => rfl

theorem modify_of_some (found : book.get? name = some t) :
    modify f book name = book.insert name (f t) := by
  rw [modify, found]

/-- The workbook with a function applied to the table of each file in a list. -/
def modifyAll (f : Table → Table) (book : Workbook) (files : List String) : Workbook :=
  files.foldl (modify f) book

/-- The function is applied as often as the file occurs in the list. -/
theorem get?_modifyAll (f : Table → Table) (book : Workbook) (files : List String)
    (name : String) :
    (modifyAll f book files).get? name = (book.get? name).map f^[files.count name] := by
  induction files generalizing book with
  | nil => simp [modifyAll]
  | cons file files ih =>
    have unfolded : modifyAll f book (file :: files) = modifyAll f (modify f book file) files := rfl
    rw [unfolded, ih, get?_modify]
    by_cases eq : name = file
    · rw [if_pos eq, Option.map_map, eq, List.count_cons_self, Function.iterate_succ]
    · rw [if_neg eq, List.count_cons_of_ne (Ne.symm eq)]

/-- In a list without repetitions each file counts once. -/
theorem get?_modifyAll_of_nodup (f : Table → Table) (book : Workbook) {files : List String}
    (distinct : files.Nodup) (name : String) :
    (modifyAll f book files).get? name =
      if name ∈ files then (book.get? name).map f else book.get? name := by
  rw [get?_modifyAll, distinct.count]
  split
  · rfl
  · simp

/-- In a list without repetitions one function after another comes to their composition. -/
theorem modifyAll_comp_of_nodup (g f : Table → Table) (book : Workbook) {files : List String}
    (distinct : files.Nodup) :
    modifyAll (g ∘ f) book files = modifyAll g (modifyAll f book files) files := by
  apply ext_get?
  intro name
  simp only [get?_modifyAll_of_nodup _ _ distinct]
  split
  · rw [Option.map_map]
  · rfl

/-- Functions that agree on the tables of all files are one. -/
theorem modifyAll_congr_of_nodup {g : Table → Table} {files : List String}
    (distinct : files.Nodup)
    (same : ∀ name ∈ files, ∀ t, book.get? name = some t → f t = g t) :
    modifyAll f book files = modifyAll g book files := by
  apply ext_get?
  intro name
  rw [get?_modifyAll_of_nodup _ _ distinct, get?_modifyAll_of_nodup _ _ distinct]
  split
  next listed => exact Option.map_congr fun t known => same name listed t known
  next => rfl

theorem names_modifyAll (f : Table → Table) (book : Workbook) (files : List String) :
    (modifyAll f book files).names = book.names := by
  apply names_eq_of_isSome_eq
  intro name
  rw [get?_modifyAll, Option.isSome_map]

/-- A function that keeps the table of each file leaves the workbook as it is. -/
theorem modifyAll_of_fixed {files : List String}
    (fixed : ∀ name ∈ files, ∀ t, book.get? name = some t → f t = t) :
    modifyAll f book files = book := by
  induction files with
  | nil => rfl
  | cons file files ih =>
    obtain ⟨here, later⟩ := List.forall_mem_cons.1 fixed
    have kept : modify f book file = book := by
      cases found : book.get? file with
      | none => exact modify_of_none found
      | some t => exact modify_of_fixed found (here t found)
    have unfolded : modifyAll f book (file :: files) = modifyAll f (modify f book file) files := rfl
    rw [unfolded, kept, ih later]

theorem modifyAll_append (f : Table → Table) (book : Workbook) (xs ys : List String) :
    modifyAll f book (xs ++ ys) = modifyAll f (modifyAll f book xs) ys :=
  List.foldl_append

/-- The order of the files is of no account. -/
theorem modifyAll_perm {xs ys : List String} (perm : xs.Perm ys) (f : Table → Table)
    (book : Workbook) : modifyAll f book xs = modifyAll f book ys := by
  apply ext_get?
  intro name
  rw [get?_modifyAll, get?_modifyAll, perm.count_eq]

/-- A function that changes no table that it has been applied to before need not be applied again,
however often it was. -/
theorem modifyAll_modifyAll_of_settled {files : List String}
    (settled : ∀ name ∈ files, ∀ t, book.get? name = some t → f (f t) = f t) :
    modifyAll f (modifyAll f book files) files = modifyAll f book files := by
  apply ext_get?
  intro name
  rw [get?_modifyAll, get?_modifyAll, Option.map_map]
  cases times : files.count name with
  | zero => rfl
  | succ n =>
    have listed : name ∈ files := List.count_pos_iff.1 (by omega)
    cases known : book.get? name with
    | none => rfl
    | some t =>
      have fixed : f (f t) = f t := settled name listed t known
      have once : f^[n + 1] t = f t := by
        rw [Function.iterate_succ_apply, Function.iterate_fixed fixed]
      rw [Option.map_some, Option.map_some, Function.comp_apply, once, Function.iterate_fixed fixed]

theorem Rectangular.modifyAll (shape : book.Rectangular)
    (keeps : ∀ t, t.Rectangular → (f t).Rectangular) (files : List String) :
    (modifyAll f book files).Rectangular := by
  intro name t found
  rw [get?_modifyAll, Option.map_eq_some_iff] at found
  obtain ⟨u, there, rfl⟩ := found
  exact Function.Iterate.rec Table.Rectangular (shape there) keeps _

/-! ### Related workbooks -/

/-- The workbooks have the same files, and the tables of each file are related. -/
structure Rel (r : Table → Table → Prop) (before after : Workbook) : Prop where
  /-- No file is added, removed or renamed. -/
  names : after.names = before.names
  /-- The table of a file is related to the one it had before. -/
  tables : ∀ ⦃name t u⦄, before.get? name = some t → after.get? name = some u → r t u

/-- What relates a table to its images relates a workbook to one with the images. -/
theorem rel_modifyAll {r : Table → Table → Prop} (refl : ∀ t, r t t)
    (step : ∀ {t u}, r t u → r t (f u)) (book : Workbook) (files : List String) :
    Rel r book (modifyAll f book files) where
  names := names_modifyAll f book files
  tables := by
    intro name t u before after
    rw [get?_modifyAll, before, Option.map_some, Option.some.injEq] at after
    subst after
    exact Function.Iterate.rec (r t) (refl t) (fun _ => step) _

namespace Rel

variable {r : Table → Table → Prop} {before middle after : Workbook}

theorem refl (reflexive : ∀ t, r t t) (book : Workbook) : Rel r book book where
  names := rfl
  tables := by
    intro name t u here there
    obtain rfl : t = u := Option.some.inj (here.symm.trans there)
    exact reflexive t

theorem trans (transitive : ∀ {t u v}, r t u → r u v → r t v) (first : Rel r before middle)
    (second : Rel r middle after) : Rel r before after where
  names := second.names.trans first.names
  tables := by
    intro name t v one three
    have known : name ∈ middle.names := by
      rw [first.names, mem_names_iff]
      exact ⟨t, one⟩
    obtain ⟨u, two⟩ := mem_names_iff.1 known
    exact transitive (first.tables one two) (second.tables two three)

theorem mono {s : Table → Table → Prop} (weaken : ∀ t u, r t u → s t u)
    (rel : Rel r before after) : Rel s before after where
  names := rel.names
  tables := fun _ t u here there => weaken t u (rel.tables here there)

end Rel

end TableShell.Workbook
