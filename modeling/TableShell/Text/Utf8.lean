/-!
# UTF-8 with ill-formed parts

Bytes from a terminal need not be well-formed UTF-8. `pieces` reads them as
characters and ill-formed pieces, an ill-formed piece being the longest run of bytes
that begins a character without completing one, or a single byte that begins none.
`decodeLossy` puts the replacement character in place of each ill-formed piece.

## Main definitions

- `Expecting`: what the bytes read so far owe
- `step`: one more byte
- `pieces`, `decodeLossy`: a whole sequence of bytes
- `lines`: the lines of a sequence of bytes
-/

namespace TableShell.Utf8

/-- What may follow the bytes read so far. -/
inductive Expecting where
  /-- The first byte of a character. -/
  | first
  /-- A byte from `low` to `high` and then `more` continuation bytes; `value` holds the bits
  of the character read so far. -/
  | next (value more low high : Nat)
deriving DecidableEq, Repr

/-- The byte that begins a character: the pieces it completes and what may follow it. -/
def lead (b : Nat) : List (Option Char) × Expecting :=
  if b < 0x80 then ([some (Char.ofNat b)], .first)
  else if 0xC2 ≤ b ∧ b ≤ 0xDF then ([], .next (b - 0xC0) 0 0x80 0xBF)
  else if b = 0xE0 then ([], .next 0 1 0xA0 0xBF)
  else if b = 0xED then ([], .next 0xD 1 0x80 0x9F)
  else if 0xE1 ≤ b ∧ b ≤ 0xEF then ([], .next (b - 0xE0) 1 0x80 0xBF)
  else if b = 0xF0 then ([], .next 0 2 0x90 0xBF)
  else if 0xF1 ≤ b ∧ b ≤ 0xF3 then ([], .next (b - 0xF0) 2 0x80 0xBF)
  else if b = 0xF4 then ([], .next 4 2 0x80 0x8F)
  else ([none], .first)

/-- One more byte: the pieces it completes and what may follow it. A byte that cannot
continue a character leaves an ill-formed piece behind and begins anew. -/
def step : Expecting → Nat → List (Option Char) × Expecting
  | .first, b => lead b
  | .next value more low high, b =>
    if low ≤ b ∧ b ≤ high then
      match more with
      | 0 => ([some (Char.ofNat (value * 64 + (b - 0x80)))], .first)
      | more + 1 => ([], .next (value * 64 + (b - 0x80)) more 0x80 0xBF)
    else
      (none :: (lead b).1, (lead b).2)

/-- The characters of a sequence of bytes, with `none` for each ill-formed piece. -/
def pieces : Expecting → List UInt8 → List (Option Char)
  | .first, [] => []
  | .next .., [] => [none]
  | expecting, b :: bs =>
    let read := step expecting b.toNat
    read.1 ++ pieces read.2 bs

/-- The character that stands for an ill-formed piece. -/
def replacement : Char := '\uFFFD'

/-- The text of a sequence of bytes, each ill-formed piece replaced. -/
def decodeLossy (bytes : List UInt8) : String :=
  String.ofList ((pieces .first bytes).map (·.getD replacement))

/-- The byte that ends a line. -/
def newline : UInt8 := 0x0A

/-- The lines of a sequence of bytes, each with the newline that ends it. What follows the last
newline is a line of its own unless it is empty. -/
def lines : List UInt8 → List (List UInt8)
  | [] => []
  | b :: bs =>
    if b = newline then [b] :: lines bs
    else
      match lines bs with
      | [] => [[b]]
      | line :: rest => (b :: line) :: rest

end TableShell.Utf8
