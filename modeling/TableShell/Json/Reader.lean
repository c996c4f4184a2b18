import TableShell.Json.Token

/-!
# Readers of JSON values

A reader reads a value of the shape that it is asked for from the tokens of a text, and
stops at the first problem. It reads at least one token if it succeeds, which is why
lists of values come to an end.

## Main definitions

- `Reader`: what reads a value of one shape
- `Reader.text`, `Reader.array`, `Reader.object`: strings, arrays and objects
- `Reader.tuple`, `Reader.next`, `Reader.close`: arrays with a fixed number of elements
-/

namespace TableShell.Json

/-- What reads a value from the beginning of a list of tokens. -/
structure Reader (α : Type) where
  /-- The value and the tokens after it, or the first problem. -/
  run : List Token → Except Fault (α × List Token)
  /-- At least one token is read. -/
  shortens : ∀ {ts : List Token} {value : α} {rest : List Token},
    run ts = .ok (value, rest) → rest.length < ts.length

/-- What is wrong if a value of another shape stands at the beginning of the tokens, or none.
Strings and numbers are read through, and their own faults come first. -/
def misplaced : List Token → Fault
  | [] => .cutOff
  | .opening _ :: _ => .misplaced
  | .text pieces fault? :: _ =>
    match Text.assemble fault? pieces with
    | .error fault => fault
    | .ok _ => .misplaced
  | .word fault? :: _ => fault?.getD .misplaced
  | .number (.error fault) :: _ => fault
  | .number (.ok n) :: _ => if n.overflows then .malformed else .misplaced
  | _ => .malformed

/-- What is wrong if the tokens do not go on with the mark that has to be there. -/
def missingMark : List Token → Fault
  | [] => .cutOff
  | _ => .malformed

namespace Reader

variable {α β σ : Type}

/-- A reader whose value is turned into another one. -/
def map (f : α → β) (reader : Reader α) : Reader β where
  run ts :=
    match reader.run ts with
    | .error fault => .error fault
    | .ok (value, rest) => .ok (f value, rest)
  shortens h := by
    split at h
    · cases h
    · cases h
      exact reader.shortens ‹_›

/-- A reader followed by another one, which may depend on the value of the first. -/
def andThen (first : Reader α) (second : α → Reader β) : Reader β where
  run ts :=
    match first.run ts with
    | .error fault => .error fault
    | .ok (value, rest) => (second value).run rest
  shortens h := by
    split at h
    · cases h
    · exact Nat.lt_trans ((second _).shortens h) (first.shortens ‹_›)

/-- A reader whose value has to pass a check, which gives another one. -/
def check (f : α → Except Fault β) (reader : Reader α) : Reader β where
  run ts :=
    match reader.run ts with
    | .error fault => .error fault
    | .ok (value, rest) => (f value).map (·, rest)
  shortens h := by
    split at h
    · cases h
    · rename_i value _ found
      cases hf : f value with
      | error fault => simp [hf, Except.map] at h
      | ok checked =>
        rw [hf] at h
        cases h
        exact reader.shortens found

/-- A string. -/
def text : Reader String where
  run
    | .text pieces fault? :: rest =>
      match Text.assemble fault? pieces with
      | .error fault => .error fault
      | .ok cs => .ok (String.ofList cs, rest)
    | ts => .error (misplaced ts)
  shortens h := by
    split at h
    · split at h
      · cases h
      · cases h
        simp
    · cases h

/-- Items separated by commas, from the first one to the closing bracket. Each item is read
into a state, on which it may depend how the next one is read. -/
def items (bracket : Bracket) (item : σ → Reader σ) (state : σ) (ts : List Token) :
    Except Fault (σ × List Token) :=
  match _read : (item state).run ts with
  | .error fault => .error fault
  | .ok (state, .comma :: rest) => items bracket item state rest
  | .ok (state, .closing closing :: rest) =>
    if closing = bracket then .ok (state, rest) else .error .malformed
  | .ok (_, rest) => .error (missingMark rest)
termination_by ts.length
decreasing_by
  have := (item _).shortens ‹_›
  simp only [List.length_cons] at this
  omega

private theorem length_lt_of_items {bracket : Bracket} {item : σ → Reader σ} {state last : σ}
    {ts rest : List Token} (h : items bracket item state ts = .ok (last, rest)) :
    rest.length < ts.length := by
  fun_induction items bracket item state ts with
  | case1 => cases h
  | case2 _ _ _ _ read ih =>
    have := (item _).shortens read
    have := ih h
    simp only [List.length_cons] at *
    omega
  | case3 _ _ _ _ read =>
    have := (item _).shortens read
    cases h
    simp only [List.length_cons] at *
    omega
  | case4 => cases h
  | case5 => cases h

/-- Items between a pair of brackets, read into a state. -/
def group (bracket : Bracket) (item : σ → Reader σ) (start : σ) : Reader σ where
  run
    | .opening opening :: ts =>
      if opening = bracket then
        match ts with
        | .closing closing :: rest =>
          if closing = bracket then .ok (start, rest) else .error .malformed
        | ts => items bracket item start ts
      else
        .error .misplaced
    | ts => .error (misplaced ts)
  shortens h := by
    split at h
    · split at h
      · split at h
        · split at h
          · cases h
            simp only [List.length_cons]
            omega
          · cases h
        · have := length_lt_of_items h
          simp only [List.length_cons]
          omega
      · cases h
    · cases h

/-- An array of values that are read by one reader. -/
def array (item : Reader α) : Reader (List α) :=
  (group .square (fun values => item.map (· :: values)) []).map List.reverse

/-- A key, which says how its value is read, and the colon after it. -/
def key (field : String → Except Fault (Reader σ)) :
    List Token → Except Fault (Reader σ × List Token)
  | .text pieces fault? :: rest =>
    match Text.assemble fault? pieces with
    | .error fault => .error fault
    | .ok cs =>
      match field (String.ofList cs), rest with
      | .error fault, _ => .error fault
      | .ok reader, .colon :: rest => .ok (reader, rest)
      | .ok _, rest => .error (missingMark rest)
  | ts => .error (missingMark ts)

private theorem length_lt_of_key {field : String → Except Fault (Reader σ)} {ts rest : List Token}
    {reader : Reader σ} (h : key field ts = .ok (reader, rest)) : rest.length < ts.length := by
  unfold key at h
  split at h
  · split at h
    · cases h
    · split at h
      · cases h
      · cases h
        simp only [List.length_cons]
        omega
      · cases h
  · cases h

/-- A member of an object: a key, a colon, and the value that the key asks for. -/
def member (field : String → Except Fault (Reader σ)) : Reader σ where
  run ts :=
    match key field ts with
    | .error fault => .error fault
    | .ok (reader, rest) => reader.run rest
  shortens h := by
    split at h
    · cases h
    · rename_i reader _ found
      exact Nat.lt_trans (reader.shortens h) (length_lt_of_key found)

/-- An object, its members read into a state. A key may depend on the members before it. -/
def object (field : σ → String → Except Fault (Reader σ)) (start : σ) : Reader σ :=
  group .curly (fun state => member (field state)) start

/-- One more element of an array with a fixed number of elements. -/
def next (item : Reader α) : Reader α where
  run
    | .comma :: rest => item.run rest
    | .closing .square :: _ => .error .misplaced
    | ts => .error (missingMark ts)
  shortens h := by
    split at h
    · exact Nat.lt_succ_of_lt (item.shortens h)
    · cases h
    · cases h

/-- The end of an array with a fixed number of elements, which gives a value. -/
def close (value : α) : Reader α where
  run
    | .closing .square :: rest => .ok (value, rest)
    | ts => .error (missingMark ts)
  shortens h := by
    split at h
    · cases h
      simp
    · cases h

/-- An array with a fixed number of elements: its first element and the rest of it. -/
def tuple (first : Reader α) (rest : α → Reader β) : Reader β where
  run
    | .opening .square :: .closing .square :: _ => .error .misplaced
    | .opening .square :: ts => (first.andThen rest).run ts
    | ts => .error (misplaced ts)
  shortens h := by
    split at h
    · cases h
    · exact Nat.lt_succ_of_lt ((first.andThen rest).shortens h)
    · cases h

/-- A reader for arrays and another one for all else. -/
def arrayOr (whenArray otherwise : Reader α) : Reader α where
  run
    | .opening .square :: ts => whenArray.run (.opening .square :: ts)
    | ts => otherwise.run ts
  shortens h := by
    split at h
    · exact whenArray.shortens h
    · exact otherwise.shortens h

end Reader

end TableShell.Json
