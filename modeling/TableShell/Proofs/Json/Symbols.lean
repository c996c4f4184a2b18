import Mathlib.Data.List.Forall2
import TableShell.Json.Token
import TableShell.Proofs.Json.Spelling

/-!
# Symbols of a text

A JSON text without numbers and words is made of brackets, commas, colons and strings, with any
blanks between them. Its tokens are those of its symbols, however strings and blanks are written
(`forall₂_stands_tokens`).

## Main definitions

- `Symbol`: a bracket, separator or string
- `Symbol.Written`, `Written`: the ways to write a symbol and a list of symbols
- `Symbol.Stands`: the tokens of a symbol
-/

namespace TableShell.Json

/-- A bracket, separator or string. -/
inductive Symbol where
  | opening (bracket : Bracket)
  | closing (bracket : Bracket)
  | comma
  | colon
  | text (s : String)
deriving DecidableEq, Repr

namespace Bracket

/-- The character that opens a pair of brackets. -/
def left : Bracket → Char
  | square => '['
  | curly => '{'

/-- The character that closes a pair of brackets. -/
def right : Bracket → Char
  | square => ']'
  | curly => '}'

end Bracket

/-- The ways to write a symbol. -/
inductive Symbol.Written : Symbol → List Char → Prop
  | opening (bracket : Bracket) : Written (.opening bracket) [bracket.left]
  | closing (bracket : Bracket) : Written (.closing bracket) [bracket.right]
  | comma : Written .comma [',']
  | colon : Written .colon [':']
  | text {s : String} {spelling : List Char} (spelled : Text.SpellsAll s.toList spelling) :
      Written (.text s) ('"' :: spelling ++ ['"'])

/-- The ways to write symbols one after the other, with blanks around them. -/
inductive Written : List Symbol → List Char → Prop
  | nil : Written [] []
  | blank {c : Char} {symbols : List Symbol} {text : List Char}
      (space : c ∈ [' ', '\n', '\t', '\r']) (rest : Written symbols text) :
      Written symbols (c :: text)
  | symbol {symbol : Symbol} {symbols : List Symbol} {here text : List Char}
      (first : symbol.Written here) (rest : Written symbols text) :
      Written (symbol :: symbols) (here ++ text)

/-- The tokens that a symbol may be cut out as. -/
inductive Symbol.Stands : Symbol → Token → Prop
  | opening (bracket : Bracket) : Stands (.opening bracket) (.opening bracket)
  | closing (bracket : Bracket) : Stands (.closing bracket) (.closing bracket)
  | comma : Stands .comma .comma
  | colon : Stands .colon .colon
  | text {s : String} {pieces : List Piece} (assembled : Text.assemble none pieces = .ok s.toList) :
      Stands (.text s) (.text pieces none)

theorem Symbol.exists_written (symbol : Symbol) : ∃ text, symbol.Written text := by
  cases symbol with
  | opening bracket => exact ⟨_, .opening bracket⟩
  | closing bracket => exact ⟨_, .closing bracket⟩
  | comma => exact ⟨_, .comma⟩
  | colon => exact ⟨_, .colon⟩
  | text s =>
    obtain ⟨spelling, spelled⟩ := Text.exists_spellsAll s.toList
    exact ⟨_, .text spelled⟩

theorem exists_written (symbols : List Symbol) : ∃ text, Written symbols text := by
  induction symbols with
  | nil => exact ⟨[], .nil⟩
  | cons symbol symbols ih =>
    obtain ⟨here, first⟩ := symbol.exists_written
    obtain ⟨text, rest⟩ := ih
    exact ⟨here ++ text, .symbol first rest⟩

/-! ### Cutting a text into tokens -/

private theorem tokens_of_space {c : Char} (space : isSpace c) (text : List Char) :
    tokens (c :: text) = tokens text := by
  rw [tokens, if_pos space]

private theorem tokens_of_scan {c : Char} {text rest : List Char} {token : Token}
    (solid : isSpace c = false) (scanned : Token.scan c text = (token, some rest)) :
    tokens (c :: text) = token :: tokens rest := by
  rw [tokens, if_neg (Bool.eq_false_iff.1 solid)]
  split
  next other more found =>
    obtain ⟨rfl, rfl⟩ : other = token ∧ more = rest := by simpa [scanned] using found.symm
    rfl
  next other found => simp [scanned] at found

private theorem tokens_of_mark {c : Char} {token : Token} (solid : isSpace c = false)
    (marks : mark? c = some token) (text : List Char) :
    tokens (c :: text) = token :: tokens text := by
  apply tokens_of_scan solid
  rw [Token.scan, marks]

private theorem tokens_of_text {pieces : List Piece} {text rest : List Char}
    (scanned : Text.scan text = { pieces, ending := .ok rest }) :
    tokens ('"' :: text) = .text pieces none :: tokens rest := by
  apply tokens_of_scan rfl
  simp [Token.scan, mark?, scanned]

theorem Symbol.Written.exists_stands {symbol : Symbol} {text : List Char}
    (written : symbol.Written text) :
    ∃ token, symbol.Stands token ∧ ∀ rest, tokens (text ++ rest) = token :: tokens rest := by
  cases written with
  | opening bracket =>
    refine ⟨_, .opening bracket, ?_⟩
    cases bracket with
    | square => exact tokens_of_mark rfl rfl
    | curly => exact tokens_of_mark rfl rfl
  | closing bracket =>
    refine ⟨_, .closing bracket, ?_⟩
    cases bracket with
    | square => exact tokens_of_mark rfl rfl
    | curly => exact tokens_of_mark rfl rfl
  | comma => exact ⟨_, .comma, tokens_of_mark rfl rfl⟩
  | colon => exact ⟨_, .colon, tokens_of_mark rfl rfl⟩
  | text spelled =>
    obtain ⟨pieces, scanned, assembled⟩ := Text.exists_pieces_of_spellsAll spelled
    refine ⟨_, .text assembled, ?_⟩
    intro rest
    rw [List.append_assoc]
    exact tokens_of_text (scanned rest)

/-- A text is cut into the tokens of its symbols. -/
theorem forall₂_stands_tokens {symbols : List Symbol} {text : List Char}
    (written : Written symbols text) : List.Forall₂ Symbol.Stands symbols (tokens text) := by
  induction written with
  | nil =>
    rw [tokens]
    exact .nil
  | blank space rest ih =>
    have blank : ∀ c ∈ [' ', '\n', '\t', '\r'], isSpace c := by simp [isSpace]
    rwa [tokens_of_space (blank _ space)]
  | symbol first rest ih =>
    obtain ⟨token, stands, cut⟩ := first.exists_stands
    rw [cut]
    exact .cons stands ih

end TableShell.Json
