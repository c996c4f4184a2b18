import TableShell.Plan
import TableShell.Proofs.Chunk.Written
import TableShell.Proofs.Command.Form
import TableShell.Proofs.Store.Undo

/-!
# Renumbering a column

A range of numbers in a column is renumbered by an update of the range to another one of the same
length. Such a command comes down to a single update, which puts distinct numerals in the place of
as many distinct numerals (`plan_command`, `isRenaming`).

## Main definitions

- `Renumbering`: a column, two ranges of the same length, and files
- `Renumbering.words`, `Renumbering.reverse`: the words of the command, and the way back
-/

namespace TableShell

open Text (isCasingOf unwords)

/-- A column whose cells are renumbered in some files. -/
structure Renumbering where
  column : String
  column_ne_empty : column ≠ ""
  equals_not_mem_column : '=' ∉ column.toList
  /-- The range that is looked for, as it is typed. -/
  old : String
  /-- The range that is written, as it is typed. -/
  new : String
  oldEnds : Nat × Nat
  newEnds : Nat × Nat
  range_old : Field.range? old.toList = some oldEnds
  range_new : Field.range? new.toList = some newEnds
  /-- The ranges have as many numbers as each other. -/
  even : (Field.numerals oldEnds.1 oldEnds.2).length = (Field.numerals newEnds.1 newEnds.2).length
  files : List String
  /-- No file is mistaken for a word that is obeyed wherever it stands. -/
  plain : ∀ file ∈ files, file ∉ Command.controlWords

namespace Renumbering

/-- The numerals of the one range in the place of those of the other one. -/
def substitution (r : Renumbering) : Substitution where
  old := Field.numerals r.oldEnds.1 r.oldEnds.2
  new := Field.numerals r.newEnds.1 r.newEnds.2

/-- The text that says on which files. -/
def scope (r : Renumbering) : String :=
  unwords ("in" :: r.files)

/-- The words of the command. -/
def words (r : Renumbering) : List String :=
  ["update", Chunk.written r.column r.old, "to", r.new, "in"] ++ r.files

/-- The old range in the place of the new one. -/
def reverse (r : Renumbering) : Renumbering :=
  { r with
    old := r.new
    new := r.old
    oldEnds := r.newEnds
    newEnds := r.oldEnds
    range_old := r.range_new
    range_new := r.range_old
    even := r.even.symm }

/-- The one step that the command comes down to. -/
def step (r : Renumbering) : Step :=
  let source : Chunk := ⟨some r.column, r.substitution.old⟩
  let target : Chunk := ⟨none, r.substitution.new⟩
  { reports := [.updating source target]
    request := .update source target
    scope := r.scope }

theorem isRenaming (r : Renumbering) : r.substitution.IsRenaming where
  old := Field.nodup_numerals
  new := Field.nodup_numerals
  length := r.even

private theorem not_control_of_mem_words (r : Renumbering) :
    ∀ w ∈ r.words, w ∉ Command.controlWords := by
  -- No control word has a brace or a hyphen.
  have spelled : ∀ w ∈ Command.controlWords, '{' ∉ w.toList ∧ '-' ∉ w.toList := by decide
  have chunk : Chunk.written r.column r.old ∉ Command.controlWords := fun control =>
    (spelled _ control).1 (by simp [Chunk.written])
  have field : r.new ∉ Command.controlWords := fun control =>
    (spelled _ control).2 (Field.hyphen_mem_of_range? r.range_new)
  simp only [words, List.cons_append, List.nil_append, List.forall_mem_cons]
  exact ⟨by decide, chunk, by decide, field, by decide, r.plain⟩

theorem ofWords_words (r : Renumbering) :
    Command.ofWords r.words = .ok (.update (Chunk.written r.column r.old) r.new r.scope) := by
  have verb : isCasingOf "update" "update" := by decide +kernel
  have separates : Command.isSeparator "to" := by decide +kernel
  exact Command.ofWords_of_shape r.not_control_of_mem_words (.update verb (.inl separates))

theorem plan_command (r : Renumbering) :
    (Command.update (Chunk.written r.column r.old) r.new r.scope).plan = { steps := [r.step] } := by
  rw [Command.plan, Plan.updateStep,
    Chunk.read_written_of_range? r.column_ne_empty r.equals_not_mem_column r.range_old,
    Chunk.read_of_range? r.range_new]
  rfl

end Renumbering

end TableShell
