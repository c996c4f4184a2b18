import TableShell.Json.Text

/-!
# Spelling strings

Within a JSON string a character is written as it is, by an escape with a letter, by the digits of
its number, or by those of its two surrogates. However the characters of a string are written, they
are what the string is read as (`exists_pieces_of_spellsAll`).

## Main definitions

- `Text.Spells`, `Text.SpellsAll`: the ways to write a character and a string
-/

namespace TableShell.Json.Text

/-- A hexadecimal digit, in either case, with its value. -/
def HexDigit (value : Nat) (c : Char) : Prop :=
  "0123456789abcdef".toList[value]? = some c ∨ "0123456789ABCDEF".toList[value]? = some c

/-- Four hexadecimal digits with the number that they stand for. -/
inductive HexNumeral : Nat → List Char → Prop
  | digits {i j k l : Nat} {a b c d : Char} (first : HexDigit i a) (second : HexDigit j b)
      (third : HexDigit k c) (fourth : HexDigit l d) :
      HexNumeral (((i * 16 + j) * 16 + k) * 16 + l) [a, b, c, d]

/-- The letters of escapes, each with the character that it stands for. -/
def escapes : List (Char × Char) :=
  [('"', '"'), ('\\', '\\'), ('/', '/'), ('b', '\x08'), ('f', '\x0c'), ('n', '\n'), ('r', '\r'),
    ('t', '\t')]

/-- The ways to write a character within a string. -/
inductive Spells : Char → List Char → Prop
  | plain {c : Char} (printable : 0x20 ≤ c.toNat) (quote : c ≠ '"') (backslash : c ≠ '\\') :
      Spells c [c]
  | letter {c letter : Char} (named : (letter, c) ∈ escapes) : Spells c ['\\', letter]
  | digits {c : Char} {digits : List Char} (numeral : HexNumeral c.toNat digits) :
      Spells c ('\\' :: 'u' :: digits)
  /-- What lies above `FFFF` is written by two surrogates with ten bits each. -/
  | surrogates {c : Char} {leading trailing : List Char} (large : 0x10000 ≤ c.toNat)
      (high : HexNumeral (0xD800 + (c.toNat - 0x10000) / 0x400) leading)
      (low : HexNumeral (0xDC00 + (c.toNat - 0x10000) % 0x400) trailing) :
      Spells c ('\\' :: 'u' :: leading ++ '\\' :: 'u' :: trailing)

/-- The ways to write the characters of a string. -/
inductive SpellsAll : List Char → List Char → Prop
  | nil : SpellsAll [] []
  | cons {c : Char} {s here later : List Char} (first : Spells c here) (rest : SpellsAll s later) :
      SpellsAll (c :: s) (here ++ later)

/-! ### Hexadecimal digits -/

private theorem exists_hexDigit (value : Nat) (small : value < 16) : ∃ c, HexDigit value c :=
  ⟨"0123456789abcdef".toList[value], .inl (List.getElem?_eq_getElem small)⟩

theorem exists_hexNumeral {code : Nat} (small : code < 0x10000) :
    ∃ digits, HexNumeral code digits := by
  obtain ⟨a, first⟩ := exists_hexDigit (code / 4096) (by omega)
  obtain ⟨b, second⟩ := exists_hexDigit (code / 256 % 16) (by omega)
  obtain ⟨c, third⟩ := exists_hexDigit (code / 16 % 16) (by omega)
  obtain ⟨d, fourth⟩ := exists_hexDigit (code % 16) (by omega)
  have numeral := HexNumeral.digits first second third fourth
  have number : ((code / 4096 * 16 + code / 256 % 16) * 16 + code / 16 % 16) * 16 + code % 16 =
      code := by omega
  exact ⟨_, number ▸ numeral⟩

private theorem hexDigit?_of_hexDigit {value : Nat} {c : Char} (digit : HexDigit value c) :
    hexDigit? c = some value := by
  have lower : ∀ i : Fin 16, hexDigit? ("0123456789abcdef".toList[i]) = some i.val := by decide
  have upper : ∀ i : Fin 16, hexDigit? ("0123456789ABCDEF".toList[i]) = some i.val := by decide
  rcases digit with digit | digit
  · obtain ⟨small, rfl⟩ := List.getElem?_eq_some_iff.1 digit
    exact lower ⟨value, small⟩
  · obtain ⟨small, rfl⟩ := List.getElem?_eq_some_iff.1 digit
    exact upper ⟨value, small⟩

/-- The piece that stands for a number of up to sixteen bits. -/
def pieceOf (code : Nat) : Piece :=
  if 0xD800 ≤ code ∧ code ≤ 0xDFFF then .surrogate code else .char (Char.ofNat code)

private theorem scan_digits {code : Nat} {digits rest : List Char}
    (numeral : HexNumeral code digits) :
    scan ('\\' :: 'u' :: digits ++ rest) = (scan rest).cons (pieceOf code) := by
  cases numeral with
  | digits first second third fourth =>
    simp only [List.cons_append, List.nil_append, scan, hexPiece?, hexDigit?_of_hexDigit first,
      hexDigit?_of_hexDigit second, hexDigit?_of_hexDigit third, hexDigit?_of_hexDigit fourth]
    rfl

private theorem pieceOf_toNat (c : Char) : pieceOf c.toNat = .char c := by
  have valid : c.toNat < 0xD800 ∨ 0xDFFF < c.toNat ∧ c.toNat < 0x110000 := c.valid
  rw [pieceOf, if_neg (by omega), Char.ofNat_toNat]

/-! ### Reading what is spelled -/

private theorem scan_letter {letter c : Char} (named : (letter, c) ∈ escapes) (rest : List Char) :
    scan ('\\' :: letter :: rest) = (scan rest).cons (.char c) := by
  have known : ∀ e ∈ escapes, escaped? e.1 = some e.2 ∧ e.1 ≠ 'u' := by
    simp [escapes, escaped?]
  obtain ⟨stands, other⟩ := known (letter, c) named
  simp [scan, stands, other]

private theorem scan_plain {c : Char} (printable : 0x20 ≤ c.toNat) (quote : c ≠ '"')
    (backslash : c ≠ '\\') (rest : List Char) :
    scan (c :: rest) = (scan rest).cons (.char c) := by
  simp [scan, backslash, Nat.not_lt.2 printable]

theorem pair_surrogates {c : Char} (large : 0x10000 ≤ c.toNat) :
    pair (0xD800 + (c.toNat - 0x10000) / 0x400) (0xDC00 + (c.toNat - 0x10000) % 0x400) = c := by
  have number : (0xD800 + (c.toNat - 0x10000) / 0x400 - 0xD800) * 0x400 +
      (0xDC00 + (c.toNat - 0x10000) % 0x400 - 0xDC00) + 0x10000 = c.toNat := by omega
  rw [pair, number, Char.ofNat_toNat]

private theorem foldr_cons (pieces more : List Piece) (ending : Except Fault (List Char)) :
    pieces.foldr Scan.cons { pieces := more, ending } = { pieces := pieces ++ more, ending } := by
  induction pieces with
  | nil => rfl
  | cons piece pieces ih =>
    rw [List.foldr_cons, ih]
    rfl

/-- The pieces that a character is taken apart into when it is written. -/
theorem exists_pieces_of_spells {c : Char} {text : List Char} (spelled : Spells c text) :
    ∃ pieces : List Piece,
      (∀ rest, scan (text ++ rest) = pieces.foldr Scan.cons (scan rest)) ∧
        ∀ later, assemble none (pieces ++ later) = (assemble none later).map (c :: ·) := by
  cases spelled with
  | plain printable quote backslash =>
    exact ⟨[.char c], scan_plain printable quote backslash, fun later => rfl⟩
  | letter named => exact ⟨[.char c], scan_letter named, fun later => rfl⟩
  | digits numeral =>
    refine ⟨[.char c], ?_, fun later => rfl⟩
    intro rest
    rw [scan_digits numeral, pieceOf_toNat]
    rfl
  | surrogates large high low =>
    have bound : c.toNat < 0x110000 := by
      have valid : c.toNat < 0xD800 ∨ 0xDFFF < c.toNat ∧ c.toNat < 0x110000 := c.valid
      omega
    refine ⟨[.surrogate (0xD800 + (c.toNat - 0x10000) / 0x400),
      .surrogate (0xDC00 + (c.toNat - 0x10000) % 0x400)], ?_, ?_⟩
    · intro rest
      rw [List.append_assoc, scan_digits high, scan_digits low, pieceOf, pieceOf,
        if_pos (by omega), if_pos (by omega)]
      rfl
    · intro later
      rw [List.cons_append, List.cons_append, assemble, if_pos (by omega), pair_surrogates large]
      rfl

theorem exists_pieces_of_spellsAll {s text : List Char} (spelled : SpellsAll s text) :
    ∃ pieces, (∀ rest, scan (text ++ '"' :: rest) = { pieces, ending := .ok rest }) ∧
      assemble none pieces = .ok s := by
  induction spelled with
  | nil => exact ⟨[], fun rest => rfl, rfl⟩
  | @cons c s here later first rest ih =>
    obtain ⟨pieces, scanned, assembled⟩ := exists_pieces_of_spells first
    obtain ⟨more, scanned_rest, assembled_rest⟩ := ih
    refine ⟨pieces ++ more, ?_, ?_⟩
    · intro after
      rw [List.append_assoc, scanned, scanned_rest, foldr_cons]
    · rw [assembled, assembled_rest]
      rfl

/-! ### Every string can be spelled -/

theorem exists_spells (c : Char) : ∃ text, Spells c text := by
  by_cases small : c.toNat < 0x10000
  · obtain ⟨digits, numeral⟩ := exists_hexNumeral small
    exact ⟨_, .digits numeral⟩
  · refine ⟨_, .plain (by omega) ?_ ?_⟩
    · rintro rfl
      exact small (by decide)
    · rintro rfl
      exact small (by decide)

theorem exists_spellsAll (s : List Char) : ∃ text, SpellsAll s text := by
  induction s with
  | nil => exact ⟨[], .nil⟩
  | cons c s ih =>
    obtain ⟨here, first⟩ := exists_spells c
    obtain ⟨later, rest⟩ := ih
    exact ⟨here ++ later, .cons first rest⟩

/-- A string without quotation marks, backslashes and control characters is written as it is. -/
theorem spellsAll_self {s : List Char}
    (plain : ∀ c ∈ s, 0x20 ≤ c.toNat ∧ c ≠ '"' ∧ c ≠ '\\') : SpellsAll s s := by
  induction s with
  | nil => exact .nil
  | cons c s ih =>
    obtain ⟨⟨printable, quote, backslash⟩, plain⟩ := List.forall_mem_cons.1 plain
    exact .cons (.plain printable quote backslash) (ih plain)

end TableShell.Json.Text
