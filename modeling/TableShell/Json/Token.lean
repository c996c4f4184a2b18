import TableShell.Json.Number
import TableShell.Json.Text

/-!
# JSON tokens

A text is cut into tokens before it is read. What is wrong inside a token is kept in the
token, since it depends on the place of the token whether and how it matters. Nothing is
read after a token without an end.

## Main definitions

- `Token`: a bracket, separator, string, word or number
- `tokens`: the tokens of a text
-/

namespace TableShell.Json

/-- The two kinds of brackets. -/
inductive Bracket where
  /-- The brackets of an array. -/
  | square
  /-- The brackets of an object. -/
  | curly
deriving DecidableEq, Repr

/-- A token of a text. -/
inductive Token where
  | opening (bracket : Bracket)
  | closing (bracket : Bracket)
  | comma
  | colon
  /-- A string, and the fault that is met before its end, if any. -/
  | text (pieces : List Piece) (fault? : Option Fault)
  /-- One of the words `true`, `false` and `null`, or what begins with its first letter. -/
  | word (fault? : Option Fault)
  /-- A number, or what begins like one. -/
  | number (read : Except Fault Number)
  /-- A character that begins no token. -/
  | stray

/-- Whether a character may stand between tokens. -/
def isSpace (c : Char) : Bool :=
  c == ' ' || c == '\n' || c == '\t' || c == '\r'

/-- What comes after the given letters at the beginning of a text. -/
def afterLetters : List Char → List Char → Except Fault (List Char)
  | [], text => .ok text
  | _ :: _, [] => .error .cutOff
  | letter :: letters, c :: text =>
    if c = letter then afterLetters letters text else .error .malformed

/-- The letters after the first letter of a word. -/
def wordEnding? : Char → Option (List Char)
  | 't' => some ['r', 'u', 'e']
  | 'f' => some ['a', 'l', 's', 'e']
  | 'n' => some ['u', 'l', 'l']
  | _ => none

/-- A token of a single character. -/
def mark? : Char → Option Token
  | '[' => some (.opening .square)
  | ']' => some (.closing .square)
  | '{' => some (.opening .curly)
  | '}' => some (.closing .curly)
  | ',' => some .comma
  | ':' => some .colon
  | _ => none

/-- The token that begins with the character `c` and goes on with a text, and what comes after
it; `none` if nothing can be read after it. -/
def Token.scan (c : Char) (text : List Char) : Token × Option (List Char) :=
  match mark? c with
  | some mark => (mark, some text)
  | none =>
    if c = '"' then
      let scanned := Text.scan text
      match scanned.ending with
      | .ok rest => (.text scanned.pieces none, some rest)
      | .error fault => (.text scanned.pieces (some fault), none)
    else if c = '-' ∨ c.isDigit then
      match Number.scan (c :: text) with
      | .ok (n, rest) => (.number (.ok n), some rest)
      | .error fault => (.number (.error fault), none)
    else
      match wordEnding? c with
      | some letters =>
        match afterLetters letters text with
        | .ok rest => (.word none, some rest)
        | .error fault => (.word (some fault), none)
      | none => (.stray, none)

private theorem length_le_of_afterLetters {letters text rest : List Char}
    (h : afterLetters letters text = .ok rest) : rest.length ≤ text.length := by
  fun_induction afterLetters letters text with
  | case1 => simp_all
  | case2 => simp at h
  | case3 letters letter text ih =>
    have := ih h
    simp only [List.length_cons]
    omega
  | case4 => simp at h

/-- What comes after a token is no longer than the text after its first character. -/
theorem Token.length_le_of_scan {c : Char} {text rest : List Char} {token : Token}
    (h : Token.scan c text = (token, some rest)) : rest.length ≤ text.length := by
  unfold Token.scan at h
  split at h
  · cases h
    exact Nat.le_refl _
  · split at h
    · dsimp only at h
      split at h
      · rename_i ending
        cases h
        exact Nat.le_of_lt (Text.length_lt_of_scan ending)
      · cases h
    · split at h
      · split at h
        · rename_i scanned
          cases h
          exact Nat.le_of_lt_succ (Number.length_lt_of_scan scanned)
        · cases h
      · split at h
        · split at h
          · rename_i after
            cases h
            exact length_le_of_afterLetters after
          · cases h
        · cases h

/-- The tokens of a text, up to one that nothing can be read after. -/
def tokens : List Char → List Token
  | [] => []
  | c :: text =>
    if isSpace c then tokens text
    else
      match _scanned : Token.scan c text with
      | (token, some rest) => token :: tokens rest
      | (token, none) => [token]
termination_by text => text.length
decreasing_by
  · simp
  · have := Token.length_le_of_scan ‹_›
    simp only [List.length_cons]
    omega

end TableShell.Json
