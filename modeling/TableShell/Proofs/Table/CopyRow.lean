import TableShell.Table.CopyRow

/-!
# Copying a row from key to key

On a rectangular table the copy of a row looks up nothing that is not there, and it comes down
to `copyRows` on the rows (`copyRow_eq_ok`). A copy disturbs the look-up of no key but its target
(`filter_copyRows`, `findIdx?_copyRows`), and it keeps the key cells of the rows that were there and
adds at most its target to them (`keyCells_copyRows`).
-/

namespace TableShell.Table

variable {key : Nat} {source target value : String} {row : Row} {rows : List Row}

/-- Whether the cell of a row in the given place is the given value. -/
def hasKey (key : Nat) (value : String) (row : Row) : Bool :=
  row[key]? == some value

theorem hasKey_iff : hasKey key value row ↔ row[key]? = some value := by
  rw [hasKey, beq_iff_eq]

theorem not_hasKey_of_ne (found : hasKey key target row) (ne : value ≠ target) :
    hasKey key value row = false := by
  rw [hasKey_iff] at found
  simpa [hasKey, found] using ne.symm

theorem hasKey_set (room : key < row.length) : hasKey key target (row.set key target) := by
  rw [hasKey_iff]
  exact List.getElem?_set_self room

/-- The row that is made by copying from one key to another, if there is one to copy. -/
def copyOf? (key : Nat) (source target : String) (rows : List Row) : Option Row :=
  (rows.find? (hasKey key source)).map (·.set key target)

theorem hasKey_of_copyOf? (made : copyOf? key source target rows = some row) :
    hasKey key target row := by
  obtain ⟨original, found, rfl⟩ := Option.map_eq_some_iff.1 made
  have read : original[key]? = some source := hasKey_iff.1 (List.find?_some found)
  exact hasKey_set (List.getElem?_eq_some_iff.1 read).1

theorem copyOf?_eq_none_iff : copyOf? key source target rows = none ↔
    rows.find? (hasKey key source) = none := by
  rw [copyOf?, Option.map_eq_none_iff]

/-- The rows with one in the place of the first row with the target key, or at the end. -/
def placeRow (key : Nat) (target : String) (row : Row) (rows : List Row) : List Row :=
  match rows.findIdx? (hasKey key target) with
  | some i => rows.set i row
  | none => rows ++ [row]

theorem mem_placeRow : row ∈ placeRow key target row rows := by
  rw [placeRow]
  split
  next i found =>
    have inRange : i < rows.length := (List.findIdx?_eq_some_iff_getElem.1 found).1
    exact List.mem_set inRange row
  next => exact List.mem_append_right rows (List.mem_singleton_self row)

/-- The rows after a copy from one key to another. -/
def copyRows (key : Nat) (source target : String) (rows : List Row) : List Row :=
  match copyOf? key source target rows with
  | some row => placeRow key target row rows
  | none => rows

theorem copyRows_of_none (none : rows.find? (hasKey key source) = none) :
    copyRows key source target rows = rows := by
  rw [copyRows, copyOf?_eq_none_iff.2 none]

theorem copyRows_of_some (made : copyOf? key source target rows = some row) :
    copyRows key source target rows = placeRow key target row rows := by
  rw [copyRows, made]

/-! ### The search for a key -/

private theorem firstWith?_eq_ok (wide : ∀ row ∈ rows, key < row.length) :
    firstWith? key value rows = .ok (rows.findIdx? (hasKey key value)) := by
  induction rows with
  | nil => rfl
  | cons row rows ih =>
    obtain ⟨cell, read⟩ : ∃ cell, row[key]? = some cell :=
      ⟨_, List.getElem?_eq_getElem (wide row List.mem_cons_self)⟩
    rw [firstWith?, read, List.findIdx?_cons,
      ih fun other member => wide other (List.mem_cons_of_mem row member)]
    simp only [hasKey, read, Option.some_beq_some, beq_iff_eq]
    split
    · rfl
    · rfl

private theorem place_eq_ok (wide : ∀ row ∈ rows, key < row.length) :
    place key target row rows = .ok (placeRow key target row rows) := by
  rw [place, firstWith?_eq_ok wide, placeRow]
  cases found : rows.findIdx? (hasKey key target) with
  | none => rfl
  | some i =>
    have known : i < rows.length := (List.findIdx?_eq_some_iff_getElem.1 found).1
    simp [bind, Except.bind, writeRow, known]

/-- On a rectangular table a copy succeeds or finds no row to copy. -/
theorem copyRow_eq_ok {t : Table} (shape : t.Rectangular) (known : key < t.columns.length) :
    t.copyRow key source target =
      .ok ((copyOf? key source target t.rows).map fun row =>
        { t with rows := placeRow key target row t.rows }) := by
  have wide : ∀ row ∈ t.rows, key < row.length := by
    intro row member
    rw [shape.2 row member]
    exact known
  rw [copyRow, firstWith?_eq_ok wide, copyOf?, List.find?_eq_bind_findIdx?_getElem?]
  cases found : t.rows.findIdx? (hasKey key source) with
  | none => rfl
  | some i =>
    have inRange : i < t.rows.length := (List.findIdx?_eq_some_iff_getElem.1 found).1
    have room : key < t.rows[i].length := wide _ (List.getElem_mem inRange)
    simp [bind, Except.bind, pure, Except.pure, inRange, writeCell, room, place_eq_ok wide]

/-! ### What a copy leaves alone -/

private theorem filter_set_of_not {test : Row → Bool} {i : Nat} {old : Row}
    (there : rows[i]? = some old)
    (not_old : test old = false) (not_row : test row = false) :
    (rows.set i row).filter test = rows.filter test := by
  induction rows generalizing i with
  | nil => rfl
  | cons head rest ih =>
    cases i with
    | zero =>
      obtain rfl : head = old := by simpa using there
      simp [not_old, not_row]
    | succ i =>
      have inRest : rest[i]? = some old := by simpa using there
      rw [List.set_cons_succ, List.filter_cons, List.filter_cons, ih inRest]

private theorem findIdx?_set_of_not {test : Row → Bool} {i : Nat} {old : Row}
    (there : rows[i]? = some old) (not_old : test old = false) (not_row : test row = false) :
    (rows.set i row).findIdx? test = rows.findIdx? test := by
  induction rows generalizing i with
  | nil => rfl
  | cons head rest ih =>
    cases i with
    | zero =>
      obtain rfl : head = old := by simpa using there
      simp [List.findIdx?_cons, not_old, not_row]
    | succ i =>
      have inRest : rest[i]? = some old := by simpa using there
      rw [List.set_cons_succ, List.findIdx?_cons, List.findIdx?_cons, ih inRest]

theorem exists_hasKey_of_findIdx? {i : Nat}
    (found : rows.findIdx? (hasKey key value) = some i) :
    ∃ old, rows[i]? = some old ∧ hasKey key value old := by
  obtain ⟨inRange, has, -⟩ := List.findIdx?_eq_some_iff_getElem.1 found
  exact ⟨rows[i], List.getElem?_eq_getElem inRange, has⟩

/-- A copy changes nothing among the rows that are selected by a test that its target fails. -/
theorem filter_copyRows {test : Row → Bool}
    (not_target : ∀ row, hasKey key target row → test row = false) :
    (copyRows key source target rows).filter test = rows.filter test := by
  cases made : copyOf? key source target rows with
  | none => rw [copyRows_of_none (copyOf?_eq_none_iff.1 made)]
  | some row =>
    have not_row : test row = false := not_target row (hasKey_of_copyOf? made)
    rw [copyRows_of_some made, placeRow]
    split
    next i found =>
      obtain ⟨old, there, has⟩ := exists_hasKey_of_findIdx? found
      exact filter_set_of_not there (not_target old has) not_row
    next => simp [not_row]

/-- A copy disturbs the search for no key but its target. -/
theorem find?_copyRows (ne : value ≠ target) :
    (copyRows key source target rows).find? (hasKey key value) =
      rows.find? (hasKey key value) := by
  rw [← List.head?_filter, filter_copyRows fun row has => not_hasKey_of_ne has ne,
    List.head?_filter]

/-- A row that is placed is the first one with its key. -/
theorem find?_placeRow (has : hasKey key target row) :
    (placeRow key target row rows).find? (hasKey key target) = some row := by
  rw [placeRow]
  split
  next i found =>
    obtain ⟨inRange, -, first⟩ := List.findIdx?_eq_some_iff_getElem.1 found
    refine List.find?_eq_some_iff_getElem.2 ⟨has, i, by simpa using inRange, by simp, ?_⟩
    intro j before
    rw [List.getElem_set_ne (Nat.ne_of_gt before)]
    simpa using first j before
  next absent =>
    rw [List.find?_append, List.find?_eq_none.2 (by simpa using absent), Option.none_or,
      List.find?_singleton, if_pos has]

/-- A row that is the first one with its key already is placed where it is. -/
theorem placeRow_of_find? (found : rows.find? (hasKey key target) = some row) :
    placeRow key target row rows = rows := by
  rw [List.find?_eq_bind_findIdx?_getElem?] at found
  obtain ⟨i, first, there⟩ := Option.bind_eq_some_iff.1 found
  obtain ⟨inside, rfl⟩ := List.getElem?_eq_some_iff.1 there
  rw [placeRow, first]
  exact List.set_getElem_self inside

/-- A copy that is made again finds itself in its place. -/
theorem copyRows_copyRows :
    copyRows key source target (copyRows key source target rows) =
      copyRows key source target rows := by
  cases made : copyOf? key source target rows with
  | none =>
    have kept : copyRows key source target rows = rows :=
      copyRows_of_none (copyOf?_eq_none_iff.1 made)
    rw [kept, kept]
  | some row =>
    have has := hasKey_of_copyOf? made
    have first : (copyRows key source target rows).find? (hasKey key target) = some row := by
      rw [copyRows_of_some made, find?_placeRow has]
    have again : copyOf? key source target (copyRows key source target rows) = some row := by
      by_cases same : source = target
      · -- The row was copied to its own key, so the copy is copied to itself.
        subst same
        obtain ⟨inside, here⟩ := List.getElem?_eq_some_iff.1 (hasKey_iff.1 has)
        rw [copyOf?, first, Option.map_some, ← here, List.set_getElem_self]
      · rw [copyOf?, find?_copyRows same, ← copyOf?, made]
    rw [copyRows_of_some again, placeRow_of_find? first]

/-- A copy moves the first row of no key but its target. -/
theorem findIdx?_copyRows (ne : value ≠ target) :
    (copyRows key source target rows).findIdx? (hasKey key value) =
      rows.findIdx? (hasKey key value) := by
  cases made : copyOf? key source target rows with
  | none => rw [copyRows_of_none (copyOf?_eq_none_iff.1 made)]
  | some row =>
    have not_row : hasKey key value row = false := not_hasKey_of_ne (hasKey_of_copyOf? made) ne
    rw [copyRows_of_some made, placeRow]
    split
    next i found =>
      obtain ⟨old, there, has⟩ := exists_hasKey_of_findIdx? found
      exact findIdx?_set_of_not there (not_hasKey_of_ne has ne) not_row
    next => simp [List.findIdx?_append, not_row]

/-- The keys that a copy adds: its target, if there is a row to copy and none to replace. -/
def addedKeys (key : Nat) (source target : String) (rows : List Row) : List String :=
  if (rows.find? (hasKey key source)).isSome ∧ rows.findIdx? (hasKey key target) = none then
    [target]
  else []

theorem keyCells_placeRow (has : hasKey key target row) :
    (placeRow key target row rows).map (·[key]?) = rows.map (·[key]?) ++
      if rows.findIdx? (hasKey key target) = none then [some target] else [] := by
  rw [placeRow]
  split
  next i found =>
    obtain ⟨old, there, has_old⟩ := exists_hasKey_of_findIdx? found
    -- The row that is replaced has the target key, and so has the copy.
    have same : (rows.map (·[key]?))[i]? = some row[key]? := by
      rw [List.getElem?_map, there, hasKey_iff.1 has, ← hasKey_iff.1 has_old]
      rfl
    obtain ⟨inRange, here⟩ := List.getElem?_eq_some_iff.1 same
    rw [List.map_set, ← here, List.set_getElem_self, found]
    simp
  next absent => simp [absent, hasKey_iff.1 has]

/-- The rows that were there keep their places and their key cells, and an added key comes after
them. -/
theorem keyCells_copyRows :
    (copyRows key source target rows).map (·[key]?) =
      rows.map (·[key]?) ++ (addedKeys key source target rows).map some := by
  rw [addedKeys]
  cases made : copyOf? key source target rows with
  | none =>
    have nothing := copyOf?_eq_none_iff.1 made
    simp [copyRows_of_none nothing, nothing]
  | some row =>
    have there : (rows.find? (hasKey key source)).isSome := by
      obtain ⟨original, found, -⟩ := Option.map_eq_some_iff.1 made
      exact Option.isSome_of_eq_some found
    rw [copyRows_of_some made, keyCells_placeRow (hasKey_of_copyOf? made)]
    simp only [there, true_and, apply_ite (List.map some), List.map_cons, List.map_nil]

theorem keyCells_prefix_copyRows :
    rows.map (·[key]?) <+: (copyRows key source target rows).map (·[key]?) :=
  ⟨_, keyCells_copyRows.symm⟩

theorem fresh_of_mem_addedKeys (added : value ∈ addedKeys key source target rows) :
    value = target ∧ some value ∉ rows.map (·[key]?) := by
  rw [addedKeys] at added
  split at added
  next new =>
    obtain rfl := List.mem_singleton.1 added
    refine ⟨rfl, fun present => ?_⟩
    obtain ⟨row, member, read⟩ := List.mem_map.1 present
    have absent := List.findIdx?_eq_none_iff.1 new.2 row member
    exact Bool.false_ne_true (absent.symm.trans (hasKey_iff.2 read))
  next => cases added

theorem nodup_addedKeys : (addedKeys key source target rows).Nodup := by
  rw [addedKeys]
  split
  · simp
  · simp

theorem length_of_mem_copyRows {width : Nat} (wide : ∀ row ∈ rows, row.length = width)
    (member : row ∈ copyRows key source target rows) : row.length = width := by
  cases made : copyOf? key source target rows with
  | none =>
    rw [copyRows_of_none (copyOf?_eq_none_iff.1 made)] at member
    exact wide row member
  | some copied =>
    have copied_wide : copied.length = width := by
      obtain ⟨original, found, rfl⟩ := Option.map_eq_some_iff.1 made
      rw [List.length_set]
      exact wide original (List.mem_of_find?_eq_some found)
    rw [copyRows_of_some made, placeRow] at member
    split at member
    next =>
      rcases List.mem_or_eq_of_mem_set member with old | rfl
      · exact wide row old
      · exact copied_wide
    next =>
      rcases List.mem_append.1 member with old | new
      · exact wide row old
      · rwa [List.mem_singleton.1 new]

end TableShell.Table
