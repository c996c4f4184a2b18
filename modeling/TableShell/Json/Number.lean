import TableShell.Json.Fault

/-!
# JSON numbers

No number has a place in a workbook. Still, numbers have to be recognised, where they are
skipped as well as where they are in the way, and one that is in the way is read up to its
value: it must not exceed the range of a binary number of 64 bits.

## Main definitions

- `Number`: the parts of a number
- `Number.scan`: the number at the beginning of a text
- `Number.overflows`: whether a number is beyond the range
-/

namespace TableShell.Json

/-- The parts of a number. Its sign does not matter. -/
structure Number where
  /-- The digits in front of the point. -/
  integer : List Char
  /-- The digits after the point. -/
  fraction : List Char
  exponent : Int
deriving DecidableEq, Repr

namespace Number

/-- The digits at the beginning of a text, at least one, and what comes after them. -/
def digits (text : List Char) : Except Fault (List Char × List Char) :=
  if text = [] then .error .cutOff
  else if text.takeWhile Char.isDigit = [] then .error .malformed
  else .ok (text.takeWhile Char.isDigit, text.dropWhile Char.isDigit)

/-- The digits in front of the point: a zero stands alone. -/
def integerPart (text : List Char) : Except Fault (List Char × List Char) :=
  match digits text with
  | .ok ('0' :: _ :: _, _) => .error .malformed
  | read => read

/-- The digits after the point, if there is a point. -/
def fractionPart : List Char → Except Fault (List Char × List Char)
  | '.' :: text => digits text
  | text => .ok ([], text)

/-- The number that digits denote. -/
def valueOf (ds : List Char) : Nat :=
  Nat.ofDigitChars 10 ds 0

/-- The sign of a power of ten, and the text after it. -/
def exponentSign : List Char → Int × List Char
  | '-' :: text => (-1, text)
  | '+' :: text => (1, text)
  | text => (1, text)

/-- The power of ten, if there is one. -/
def exponentPart : List Char → Except Fault (Int × List Char)
  | [] => .ok (0, [])
  | c :: text =>
    if c = 'e' ∨ c = 'E' then
      match digits (exponentSign text).2 with
      | .ok (ds, rest) => .ok ((exponentSign text).1 * valueOf ds, rest)
      | .error fault => .error fault
    else
      .ok (0, c :: text)

/-- A text without the minus sign at its beginning. -/
def unsigned : List Char → List Char
  | '-' :: text => text
  | text => text

/-- The number at the beginning of a text, and what comes after it. -/
def scan (text : List Char) : Except Fault (Number × List Char) :=
  match integerPart (unsigned text) with
  | .error fault => .error fault
  | .ok (integer, text) =>
    match fractionPart text with
    | .error fault => .error fault
    | .ok (fraction, text) =>
      match exponentPart text with
      | .error fault => .error fault
      | .ok (exponent, text) => .ok ({ integer, fraction, exponent }, text)

private theorem length_lt_of_digits {text : List Char} {read : List Char × List Char}
    (h : digits text = .ok read) : read.2.length < text.length := by
  unfold digits at h
  split at h
  · simp at h
  · split at h
    · simp at h
    · rename_i digit
      have split :=
        congrArg List.length (List.takeWhile_append_dropWhile (p := Char.isDigit) (l := text))
      have := List.length_pos_iff.2 digit
      rw [List.length_append] at split
      cases h
      dsimp only
      omega

private theorem length_lt_of_integerPart {text : List Char} {read : List Char × List Char}
    (h : integerPart text = .ok read) : read.2.length < text.length := by
  unfold integerPart at h
  split at h
  · simp at h
  · exact length_lt_of_digits h

private theorem length_le_of_fractionPart {text : List Char} {read : List Char × List Char}
    (h : fractionPart text = .ok read) : read.2.length ≤ text.length := by
  unfold fractionPart at h
  split at h
  · have := length_lt_of_digits h
    rw [List.length_cons]
    omega
  · cases h
    exact Nat.le_refl _

private theorem length_le_exponentSign (text : List Char) :
    (exponentSign text).2.length ≤ text.length := by
  unfold exponentSign
  split <;> simp

private theorem length_le_of_exponentPart {text : List Char} {read : Int × List Char}
    (h : exponentPart text = .ok read) : read.2.length ≤ text.length := by
  unfold exponentPart at h
  split at h
  · cases h
    exact Nat.le_refl _
  · rename_i c text
    split at h
    · split at h
      · rename_i found
        have := length_lt_of_digits found
        have := length_le_exponentSign text
        cases h
        dsimp only at *
        rw [List.length_cons]
        omega
      · cases h
    · cases h
      exact Nat.le_refl _

private theorem length_le_unsigned (text : List Char) : (unsigned text).length ≤ text.length := by
  unfold unsigned
  split <;> simp

/-- What comes after a number is shorter than the number and it. -/
theorem length_lt_of_scan {text rest : List Char} {n : Number}
    (h : scan text = .ok (n, rest)) : rest.length < text.length := by
  unfold scan at h
  split at h
  · cases h
  · rename_i integer
    split at h
    · cases h
    · rename_i fraction
      split at h
      · cases h
      · rename_i exponent
        have := length_lt_of_integerPart integer
        have := length_le_of_fractionPart fraction
        have := length_le_of_exponentPart exponent
        have := length_le_unsigned text
        cases h
        dsimp only at *
        omega

/-- How many numbers fit into a word of 64 bits. -/
def wordSize : Nat := Nat.pow 2 64

/-- The digits of a significand are taken up as long as it fits into a word of 64 bits: the
significand, and the digits that are left. -/
def takeUp (significand : Nat) : List Char → Nat × List Char
  | [] => (significand, [])
  | d :: ds =>
    let next := significand * 10 + (d.toNat - '0'.toNat)
    if next < wordSize then takeUp next ds else (significand, d :: ds)

/-- The binary number with 53 significant bits nearest to `n`, of two equally near ones the
one with an even last bit. -/
def roundTo53 (n : Nat) : Nat :=
  if n < Nat.pow 2 53 then n
  else
    let unit := Nat.pow 2 (n.log2 - 52)
    let low := n / unit * unit
    if 2 * (n - low) < unit ∨ 2 * (n - low) = unit ∧ n / unit % 2 = 0 then low else low + unit

/-- The least number that is rounded beyond the largest binary number of 64 bits. -/
def tooLarge : Nat := Nat.pow 2 1024 - Nat.pow 2 970

/-- Whether a number is beyond the range of binary numbers of 64 bits. Digits of the integer
part that the significand cannot take up count as powers of ten, and the significand and the
power are rounded before they are multiplied. -/
def overflows (n : Number) : Bool :=
  let whole := takeUp 0 n.integer
  let all := takeUp whole.1 n.fraction
  let exponent := whole.2.length - (n.fraction.length - all.2.length : Nat) + n.exponent
  all.1 != 0 &&
    (308 < exponent ||
      (0 ≤ exponent && tooLarge ≤ roundTo53 all.1 * roundTo53 (Nat.pow 10 exponent.toNat)))

end Number

end TableShell.Json
