import TableShell.Json.Reader

/-!
# Skipping JSON values

A value that nobody asks for is skipped. It has to be well-formed, at any depth, but
strings in it are not assembled, and numbers may be of any size.

## Main definitions

- `Awaiting`: what may come next inside a skipped value
- `advance`: one token of a skipped value
- `Reader.skip`: the reader that skips a value
-/

namespace TableShell.Json

/-- What may come next inside a skipped value. -/
inductive Awaiting where
  | value
  /-- The first element of an array, or its end. -/
  | element
  /-- The first key of an object, or its end. -/
  | member
  | key
  | colon
  /-- A comma after a value, or the end of the array or object it is in. -/
  | separator
deriving DecidableEq, Repr

/-- A skipped value so far: what may come next, and the brackets that are open, the innermost
one first. -/
structure Skipped where
  /-- What may come next. -/
  awaiting : Awaiting
  /-- The open brackets. -/
  opened : List Bracket
deriving DecidableEq, Repr

/-- A value has ended inside the given brackets; `none` if that is the end of it all. -/
def Skipped.ended : List Bracket → Option Skipped
  | [] => none
  | opened => some ⟨.separator, opened⟩

/-- A scalar inside the given brackets, unless it has a fault. -/
def Skipped.scalar (opened : List Bracket) : Option Fault → Except Fault (Option Skipped)
  | some fault => .error fault
  | none => .ok (Skipped.ended opened)

/-- The first token of a value inside the given brackets. -/
def Skipped.first (opened : List Bracket) : Token → Except Fault (Option Skipped)
  | .opening .square => .ok (some ⟨.element, .square :: opened⟩)
  | .opening .curly => .ok (some ⟨.member, .curly :: opened⟩)
  | .text _ fault? => Skipped.scalar opened fault?
  | .word fault? => Skipped.scalar opened fault?
  | .number (.ok _) => Skipped.scalar opened none
  | _ => .error .malformed

/-- A key inside the given brackets. -/
def Skipped.name (opened : List Bracket) : Token → Except Fault (Option Skipped)
  | .text _ (some fault) => .error fault
  | .text _ none => .ok (some ⟨.colon, opened⟩)
  | _ => .error .malformed

/-- One more token of a skipped value; the result is `none` after the last one. -/
def advance (state : Skipped) (token : Token) : Except Fault (Option Skipped) :=
  match state, token with
  | ⟨.value, opened⟩, token => Skipped.first opened token
  | ⟨.element, opened⟩, .closing .square => .ok (Skipped.ended opened.tail)
  | ⟨.element, opened⟩, token => Skipped.first opened token
  | ⟨.member, opened⟩, .closing .curly => .ok (Skipped.ended opened.tail)
  | ⟨.member, opened⟩, token => Skipped.name opened token
  | ⟨.key, opened⟩, token => Skipped.name opened token
  | ⟨.colon, opened⟩, .colon => .ok (some ⟨.value, opened⟩)
  | ⟨.separator, .square :: opened⟩, .comma => .ok (some ⟨.value, .square :: opened⟩)
  | ⟨.separator, .curly :: opened⟩, .comma => .ok (some ⟨.key, .curly :: opened⟩)
  | ⟨.separator, bracket :: opened⟩, .closing closing =>
    if closing = bracket then .ok (Skipped.ended opened) else .error .malformed
  | _, _ => .error .malformed

/-- The tokens after a skipped value. -/
def skip (state : Skipped) : List Token → Except Fault (List Token)
  | [] => .error .cutOff
  | token :: rest =>
    match advance state token with
    | .error fault => .error fault
    | .ok none => .ok rest
    | .ok (some next) => skip next rest

theorem length_lt_of_skip {state : Skipped} {ts rest : List Token} (h : skip state ts = .ok rest) :
    rest.length < ts.length := by
  fun_induction skip state ts with
  | case1 => cases h
  | case2 => cases h
  | case3 =>
    cases h
    simp
  | case4 _ _ _ _ _ ih => exact Nat.lt_succ_of_lt (ih h)

/-- The reader that skips a value and gives another one in its place. -/
def Reader.skip {α : Type} (value : α) : Reader α where
  run ts :=
    match Json.skip ⟨.value, []⟩ ts with
    | .error fault => .error fault
    | .ok rest => .ok (value, rest)
  shortens h := by
    split at h
    · cases h
    · cases h
      exact length_lt_of_skip ‹_›

end TableShell.Json
