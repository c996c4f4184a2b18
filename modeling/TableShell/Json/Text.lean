import TableShell.Json.Fault

/-!
# JSON strings

The inside of a string is read in two steps. `scan` takes it apart into pieces, each a
character or one half of a surrogate pair, up to the closing quotation mark. `assemble`
joins the halves. A string whose value does not matter need not be assembled.

## Main definitions

- `Piece`: a character or a surrogate
- `Text.scan`: the pieces of a string, and what comes after it
- `Text.assemble`: the characters that the pieces stand for
-/

namespace TableShell.Json

/-- A part of a string. -/
inductive Piece where
  /-- A character, written as it is or by an escape. -/
  | char (c : Char)
  /-- A surrogate, the number of an escape from `D800` to `DFFF`. -/
  | surrogate (code : Nat)
deriving DecidableEq, Repr

namespace Text

/-- The value of a hexadecimal digit. -/
def hexDigit? (c : Char) : Option Nat :=
  if '0' ≤ c ∧ c ≤ '9' then some (c.toNat - '0'.toNat)
  else if 'a' ≤ c ∧ c ≤ 'f' then some (c.toNat - 'a'.toNat + 10)
  else if 'A' ≤ c ∧ c ≤ 'F' then some (c.toNat - 'A'.toNat + 10)
  else none

/-- The piece that an escape with four hexadecimal digits stands for. -/
def hexPiece? (a b c d : Char) : Option Piece := do
  let code :=
    (((← hexDigit? a) * 16 + (← hexDigit? b)) * 16 + (← hexDigit? c)) * 16 + (← hexDigit? d)
  return if 0xD800 ≤ code ∧ code ≤ 0xDFFF then .surrogate code else .char (Char.ofNat code)

/-- The character that an escape with a single letter stands for. -/
def escaped? : Char → Option Char
  | '"' => some '"'
  | '\\' => some '\\'
  | '/' => some '/'
  | 'b' => some '\x08'
  | 'f' => some '\x0c'
  | 'n' => some '\n'
  | 'r' => some '\r'
  | 't' => some '\t'
  | _ => none

/-- A string of which the digits of an escape are missing ends too early if fewer than four
bytes are left, and is malformed otherwise. -/
def missingDigits (rest : List Char) : Fault :=
  if (String.ofList rest).utf8ByteSize < 4 then .cutOff else .malformed

/-- A string taken apart: its pieces, and then what comes after the closing quotation mark or
the fault that is met before it. -/
structure Scan where
  pieces : List Piece := []
  /-- The text after the string, or why there is no end of the string. -/
  ending : Except Fault (List Char)

/-- A scan with one more piece in front. -/
def Scan.cons (piece : Piece) (scan : Scan) : Scan :=
  { scan with pieces := piece :: scan.pieces }

/-- Take apart a string from after its opening quotation mark. -/
def scan : List Char → Scan
  | [] => { ending := .error .cutOff }
  | '"' :: rest => { ending := .ok rest }
  | ['\\'] => { ending := .error .cutOff }
  | '\\' :: 'u' :: a :: b :: c :: d :: rest =>
    match hexPiece? a b c d with
    | some piece => (scan rest).cons piece
    | none => { ending := .error .malformed }
  | '\\' :: 'u' :: rest => { ending := .error (missingDigits rest) }
  | '\\' :: letter :: rest =>
    match escaped? letter with
    | some c => (scan rest).cons (.char c)
    | none => { ending := .error .malformed }
  | c :: rest =>
    if c.toNat < 0x20 then { ending := .error .malformed } else (scan rest).cons (.char c)

/-- What comes after a string is shorter than the string and it. -/
theorem length_lt_of_scan {text rest : List Char} (h : (scan text).ending = .ok rest) :
    rest.length < text.length := by
  fun_induction scan text with
  | case1 => simp at h
  | case2 => simp_all
  | case3 => simp at h
  | case4 a b c d more piece hpiece ih =>
    have := ih h
    simp only [List.length_cons]
    omega
  | case5 => simp at h
  | case6 => simp at h
  | case7 letter more _ _ c hc ih =>
    have := ih h
    simp only [List.length_cons]
    omega
  | case8 => simp at h
  | case9 => simp at h
  | case10 c more _ _ _ _ _ _ ih =>
    have := ih h
    simp only [List.length_cons]
    omega

/-- The character of a leading and a trailing surrogate. -/
def pair (leading trailing : Nat) : Char :=
  Char.ofNat ((leading - 0xD800) * 0x400 + (trailing - 0xDC00) + 0x10000)

/-- The characters that pieces stand for, read up to the fault that ends them, if any. A
leading surrogate, one below `DC00`, must be followed by a trailing one, and a trailing one
must not stand alone. -/
def assemble (fault? : Option Fault) : List Piece → Except Fault (List Char)
  | [] => match fault? with
    | some fault => .error fault
    | none => .ok []
  | .char c :: rest => (assemble fault? rest).map (c :: ·)
  | [.surrogate code] =>
    if code < 0xDC00 then .error (fault?.getD .malformed) else .error .malformed
  | .surrogate _ :: .char _ :: _ => .error .malformed
  | .surrogate leading :: .surrogate trailing :: rest =>
    if leading < 0xDC00 ∧ 0xDC00 ≤ trailing then
      (assemble fault? rest).map (pair leading trailing :: ·)
    else
      .error .malformed

end Text

end TableShell.Json
