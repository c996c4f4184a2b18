import TableShell.Json.Reader
import TableShell.Proofs.Json.Symbols

/-!
# Reading what is written

A reader reads a value off symbols if it reads it off all tokens that these stand for, whatever
comes after them. For each way to build a reader there is a way to build the symbols that it reads.

## Main definitions

- `Bracket.enclose`: parts with commas between them, in brackets
- `Reads`: a reader reads a value off symbols
- `ReadsEach`: items are read into a state one after the other
-/

namespace TableShell.Json

/-- Parts with commas between them, in brackets. -/
def Bracket.enclose (bracket : Bracket) (parts : List (List Symbol)) : List Symbol :=
  .opening bracket :: [.comma].intercalate parts ++ [.closing bracket]

/-- A key and the value that belongs to it. -/
def Symbol.member (key : String) (value : List Symbol) : List Symbol :=
  .text key :: .colon :: value

/-- A reader reads a value off all tokens that symbols stand for, and leaves what comes after. -/
structure Reads {α : Type} (reader : Reader α) (symbols : List Symbol) (value : α) : Prop where
  run : ∀ ts rest, List.Forall₂ Symbol.Stands symbols ts →
    reader.run (ts ++ rest) = .ok (value, rest)
  /-- The first symbol does not close a list of items. -/
  opens : ∀ bracket, symbols.head? ≠ some (.closing bracket)

/-- Items are read into a state one after the other. -/
inductive ReadsEach {σ : Type} (item : σ → Reader σ) : σ → List (List Symbol) → σ → Prop
  | nil (state : σ) : ReadsEach item state [] state
  | cons {state next last : σ} {part : List Symbol} {parts : List (List Symbol)}
      (first : Reads (item state) part next) (rest : ReadsEach item next parts last) :
      ReadsEach item state (part :: parts) last

variable {α β σ : Type} {symbols : List Symbol}

private theorem intercalate_cons (part : List Symbol) (parts : List (List Symbol)) :
    [.comma].intercalate (part :: parts) = part ++ parts.flatMap (.comma :: ·) := by
  induction parts generalizing part with
  | nil => simp
  | cons second parts ih =>
    rw [List.intercalate_cons_cons, ih, List.flatMap_cons, List.append_assoc]
    rfl

private theorem forall₂_stands_append {more : List Symbol} {ts : List Token}
    (stands : List.Forall₂ Symbol.Stands (symbols ++ more) ts) :
    ∃ here there, List.Forall₂ Symbol.Stands symbols here ∧ List.Forall₂ Symbol.Stands more there ∧
      ts = here ++ there := by
  induction symbols generalizing ts with
  | nil => exact ⟨[], ts, .nil, stands, rfl⟩
  | cons symbol symbols ih =>
    cases stands with
    | cons first stands =>
      obtain ⟨here, there, before, after, rfl⟩ := ih stands
      exact ⟨_ :: here, there, .cons first before, after, rfl⟩

namespace Reads

variable {reader : Reader α} {value : α}

theorem ne_nil (reads : Reads reader symbols value) : symbols ≠ [] := by
  rintro rfl
  have shorter := reader.shortens (reads.run [] [] .nil)
  exact Nat.lt_irrefl 0 shorter

/-- The first token does not close a list of items. -/
theorem head?_ne_closing (reads : Reads reader symbols value) {ts : List Token}
    (stands : List.Forall₂ Symbol.Stands symbols ts) (rest : List Token) (bracket : Bracket) :
    (ts ++ rest).head? ≠ some (.closing bracket) := by
  cases stands with
  | nil => exact absurd rfl reads.ne_nil
  | cons first stands =>
    intro closes
    obtain rfl := Option.some.inj closes
    cases first
    exact reads.opens bracket rfl

theorem map (f : α → β) (reads : Reads reader symbols value) :
    Reads (reader.map f) symbols (f value) where
  run ts rest stands := by
    simp only [Reader.map, reads.run ts rest stands]
  opens := reads.opens

theorem check {f : α → Except Fault β} {checked : β} (reads : Reads reader symbols value)
    (passes : f value = .ok checked) : Reads (reader.check f) symbols checked where
  run ts rest stands := by
    simp only [Reader.check, reads.run ts rest stands, passes, Except.map]
  opens := reads.opens

theorem text (s : String) : Reads Reader.text [.text s] s where
  run ts rest stands := by
    cases stands with
    | cons first none =>
      cases first with
      | text assembled =>
        cases none
        simp [Reader.text, assembled]
  opens := by simp

/-- A reader for all that is no array reads an object. -/
theorem arrayOr (whenArray : Reader α) (reads : Reads reader (.opening .curly :: symbols) value) :
    Reads (Reader.arrayOr whenArray reader) (.opening .curly :: symbols) value where
  run ts rest stands := by
    have direct := reads.run ts rest stands
    cases stands with
    | cons first stands =>
      cases first
      exact direct
  opens := reads.opens

/-- A member is read by the reader that its key asks for. -/
theorem member {field : String → Except Fault (Reader α)} {key : String}
    (known : field key = .ok reader) (reads : Reads reader symbols value) :
    Reads (Reader.member field) (Symbol.member key symbols) value where
  run ts rest stands := by
    cases stands with
    | cons name stands =>
      cases stands with
      | cons separator stands =>
        cases name with
        | text assembled =>
          cases separator
          simp [Reader.member, Reader.key, assembled, known, reads.run _ rest stands]
  opens := by simp [Symbol.member]

end Reads

/-! ### Arrays and objects -/

namespace ReadsEach

variable {item : σ → Reader σ} {state next last : σ} {bracket : Bracket} {ts rest : List Token}

private theorem items_of_comma (read : (item state).run ts = .ok (next, .comma :: rest)) :
    Reader.items bracket item state ts = Reader.items bracket item next rest := by
  rw [Reader.items]
  split <;> simp_all

private theorem items_of_closing
    (read : (item state).run ts = .ok (next, .closing bracket :: rest)) :
    Reader.items bracket item state ts = .ok (next, rest) := by
  rw [Reader.items]
  split <;> simp_all

/-- Items are read up to the closing bracket. -/
theorem items {part : List Symbol} {parts : List (List Symbol)}
    (reads : ReadsEach item state (part :: parts) last)
    (stands : List.Forall₂ Symbol.Stands
      (part ++ (parts.flatMap (.comma :: ·) ++ [.closing bracket])) ts) :
    Reader.items bracket item state (ts ++ rest) = .ok (last, rest) := by
  -- On the parts after the first: a comma is read together with the part after it.
  induction parts generalizing state part ts with
  | nil =>
    obtain ⟨here, there, before, after, rfl⟩ := forall₂_stands_append stands
    rw [List.append_assoc]
    cases reads with
    | cons first none =>
      cases none
      cases after with
      | cons mark none =>
        cases mark
        cases none
        exact items_of_closing (first.run here _ before)
  | cons second parts ih =>
    rw [List.flatMap_cons, List.append_assoc] at stands
    obtain ⟨here, there, before, after, rfl⟩ := forall₂_stands_append stands
    rw [List.append_assoc]
    cases reads with
    | cons first reads =>
      cases after with
      | cons mark after =>
        cases mark
        rw [List.cons_append, items_of_comma (first.run here _ before)]
        exact ih reads after

theorem run_group (opens : ∀ bracket, ts.head? ≠ some (.closing bracket)) :
    (Reader.group bracket item state).run (.opening bracket :: ts) =
      Reader.items bracket item state ts := by
  simp only [Reader.group, if_true]
  split
  next closing rest => exact absurd rfl (opens closing)
  next => rfl

theorem group {parts : List (List Symbol)} (reads : ReadsEach item state parts last) :
    Reads (Reader.group bracket item state) (bracket.enclose parts) last where
  run ts rest stands := by
    cases reads with
    | nil =>
      cases stands with
      | cons mark stands =>
        cases mark
        cases stands with
        | cons mark none =>
          cases mark
          cases none
          simp [Reader.group]
    | cons first reads =>
      rw [Bracket.enclose, intercalate_cons, List.cons_append, List.append_assoc] at stands
      cases stands with
      | cons mark stands =>
        cases mark
        rw [List.cons_append, run_group, items (.cons first reads) stands]
        obtain ⟨here, there, before, -, rfl⟩ := forall₂_stands_append stands
        rw [List.append_assoc]
        exact first.head?_ne_closing before _
  opens := by simp [Bracket.enclose]

end ReadsEach

namespace Reads

variable {reader : Reader α}

theorem array {parts : List (List Symbol)} {values : List α}
    (each : List.Forall₂ (Reads reader) parts values) :
    Reads (Reader.array reader) (Bracket.square.enclose parts) values := by
  -- The values that have been read are kept in reverse.
  have accumulates (before : List α) :
      ReadsEach (fun read => reader.map (· :: read)) before parts (values.reverse ++ before) := by
    induction each generalizing before with
    | nil => exact .nil before
    | cons first rest ih =>
      rw [List.reverse_cons, List.append_assoc]
      exact .cons (first.map _) (ih _)
  have grouped : Reads (Reader.group .square (fun read => reader.map (· :: read)) [])
      (Bracket.square.enclose parts) (values.reverse ++ []) := (accumulates []).group
  have reversed := grouped.map List.reverse
  rwa [List.append_nil, List.reverse_reverse] at reversed

/-- The members of an object are read one after the other. -/
theorem object {field : σ → String → Except Fault (Reader σ)} {state last : σ}
    {parts : List (List Symbol)}
    (reads : ReadsEach (fun state => Reader.member (field state)) state parts last) :
    Reads (Reader.object field state) (Bracket.curly.enclose parts) last :=
  reads.group

end Reads

end TableShell.Json
