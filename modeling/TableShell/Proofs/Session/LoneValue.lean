import TableShell.Proofs.Session.Reachable

/-!
# A lone new value

A lone new value stands for all old ones, and so do as many copies of it as there are old values.
Which of the two an update is given is told by the number of the new values alone, and they are
taken from different positions, but each old value gets the same one
(`repeating_a_lone_value_changes_nothing`).
-/

namespace TableShell

namespace Substitution

variable {old : List String} {value : String}

private theorem isBalanced_lone (old : List String) (value : String) : isBalanced ⟨old, [value]⟩ :=
  isBalanced_iff.2 (.inl rfl)

private theorem isBalanced_replicate (old : List String) (value : String) :
    isBalanced ⟨old, List.replicate old.length value⟩ :=
  isBalanced_iff.2 (.inr List.length_replicate)

/-- Whether a lone value is repeated makes no difference to any old value. -/
theorem valueAt?_replicate {i : Nat} (known : i < old.length) :
    valueAt? ⟨old, List.replicate old.length value⟩ i = valueAt? ⟨old, [value]⟩ i := by
  rw [valueAt?_eq_getElem? (isBalanced_replicate old value),
    valueAt?_eq_getElem? (isBalanced_lone old value), if_pos (List.length_singleton)]
  -- The copy is taken from the front or from the position of the old value, and both are there.
  have inRange : (if (List.replicate old.length value).length = 1 then 0 else i) < old.length := by
    split
    · exact Nat.zero_lt_of_lt known
    · exact known
  exact List.getElem?_replicate_of_lt inRange

end Substitution

namespace Table

variable {s s' : Substitution} {source target : Nat}

/-- What an update makes of a row depends on the values at the positions of old values only. -/
theorem substituteRow_congr (old : s'.old = s.old)
    (values : ∀ i < s.old.length, s'.valueAt? i = s.valueAt? i) (row : Row) :
    substituteRow s' source target row = substituteRow s source target row := by
  rw [substituteRow, substituteRow, old]
  cases row[source]? with
  | none => rfl
  | some cell =>
    cases first : s.old.idxOf? cell with
    | none => simp only [first]
    | some i =>
      have known : i < s.old.length := (List.idxOf?_eq_some_iff.1 first).1
      simp only [first, values i known]

theorem substitute_congr (old : s'.old = s.old)
    (values : ∀ i < s.old.length, s'.valueAt? i = s.valueAt? i) (t : Table) :
    t.substitute s' source target = t.substitute s source target := by
  have rows : substituteRow s' source target = substituteRow s source target :=
    funext (substituteRow_congr old values)
  rw [substitute, substitute, rows]

end Table

namespace Store

variable {old : Chunk} {newColumn? : Option String} {value : String}

theorem updateFile_replicate (store : Store) (file : String) :
    updateFile old ⟨newColumn?, List.replicate old.values.length value⟩ store file =
      updateFile old ⟨newColumn?, [value]⟩ store file := by
  have same (t : Table) (source target : Nat) :
      t.substitute ⟨old.values, List.replicate old.values.length value⟩ source target =
        t.substitute ⟨old.values, [value]⟩ source target := by
    refine Table.substitute_congr ?_ ?_ t
    · rfl
    · intro i known
      exact Substitution.valueAt?_replicate known
  simp only [updateFile, same]

/-- An update with a lone new value does the same as the one with a copy of the value for each old
value: on all files, listed once or more often or not known at all, it leaves the same tables and
says the same, and neither of the two fails. -/
theorem repeating_a_lone_value_changes_nothing (store : Store) (old : Chunk)
    (newColumn? : Option String) (value : String) (files : List String) :
    let lone := store.update old ⟨newColumn?, [value]⟩ files
    let each := store.update old ⟨newColumn?, List.replicate old.values.length value⟩ files
    each = lone ∧ (store.Reachable → lone.failure? = none) := by
  intro lone each
  have balanced := Substitution.isBalanced_lone old.values value
  have balanced' := Substitution.isBalanced_replicate old.values value
  constructor
  · have acts : updateFile old ⟨newColumn?, List.replicate old.values.length value⟩ =
        updateFile old ⟨newColumn?, [value]⟩ :=
      funext fun store => funext (updateFile_replicate store)
    simp only [each, lone, update, if_pos balanced, if_pos balanced', acts]
  · intro reached
    simp only [lone, failure?_update reached.rectangular, if_pos balanced]

/-- An old value that is written again, and one that is listed twice; then no old values. -/
theorem repeating_a_lone_value_changes_nothing_ledger :
    let start : Store := { book := ledger }
    let old : Chunk := ⟨none, ["2", "1", "2"]⟩
    let lone := start.update old ⟨none, ["1"]⟩ ["a", "z", "a", "b"]
    start.Reachable ∧
      start.update old ⟨none, ["1", "1", "1"]⟩ ["a", "z", "a", "b"] = lone ∧ lone.failure? = none ∧
      lone.store.book.get? "a" =
        some { columns := ["id", "name"], rows := [["1", "x"], ["1", "y"]] } ∧
      start.update ⟨some "id", []⟩ ⟨some "name", []⟩ ["a"] =
        start.update ⟨some "id", []⟩ ⟨some "name", ["w"]⟩ ["a"] ∧
      (start.update ⟨some "id", []⟩ ⟨some "name", ["w"]⟩ ["a"]).store = start := by
  intro start old lone
  obtain ⟨same, succeeds⟩ :=
    repeating_a_lone_value_changes_nothing start old none "1" ["a", "z", "a", "b"]
  obtain ⟨same', -⟩ :=
    repeating_a_lone_value_changes_nothing start ⟨some "id", []⟩ (some "name") "w" ["a"]
  refine ⟨reachable_ledger, same, succeeds reachable_ledger, ?_, same', ?_⟩
  · decide +kernel
  · decide +kernel

end Store

end TableShell
