import TableShell.Chunk

/-!
# Engines

A session hands its requests to an engine and does not look into it. An engine chooses
the files that a scope text stands for and carries out one request at a time; it answers
with its new state, the lines to print, and the reason if it failed.

## Main definitions

- `Request`: one search, one update, or the copy of one row
- `Reply`: what an engine answers to a request
- `Engine`: an engine with states of a given type
- `Engine.sum`: either of two engines
-/

namespace TableShell

/-- One thing to do on some files. -/
inductive Request where
  /-- Show the rows with one of the values of a chunk. -/
  | search (target : Chunk)
  /-- Put the values of the new chunk in place of those of the old one. -/
  | update (old new : Chunk)
  /-- Copy the row with a key to another key. -/
  | copy (keyColumn source target : String)
deriving DecidableEq, Repr

/-- What a request is called when it fails. -/
def Request.activity : Request → String
  | search _ => "検索"
  | update _ _ => "更新"
  | copy _ _ _ => "行のコピー"

/-- What an engine answers to a request. -/
structure Reply (σ : Type) where
  state : σ
  lines : List String := []
  /-- The reason why the request failed, if it did. -/
  failure? : Option String := none
deriving DecidableEq, Repr

/-- The same answer of an engine with states of another type. -/
def Reply.map {σ τ : Type} (f : σ → τ) (reply : Reply σ) : Reply τ :=
  { state := f reply.state, lines := reply.lines, failure? := reply.failure? }

/-- An engine with states of type `σ`. -/
structure Engine (σ : Type) where
  /-- The files that a scope text stands for. -/
  select : σ → String → List String
  /-- Carry out a request on some files. -/
  perform : σ → Request → List String → Reply σ

/-- Two engines as one, the state telling which of them is at work. -/
def Engine.sum {σ τ : Type} (left : Engine σ) (right : Engine τ) : Engine (σ ⊕ τ) where
  select
    | .inl s => left.select s
    | .inr s => right.select s
  perform
    | .inl s => fun request files => (left.perform s request files).map .inl
    | .inr s => fun request files => (right.perform s request files).map .inr

end TableShell
