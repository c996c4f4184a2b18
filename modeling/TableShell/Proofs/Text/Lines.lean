import Mathlib.Tactic.Common
import TableShell.Proofs.Text.Words
import TableShell.Text.Utf8

/-!
# Lines of bytes and lines of text

Bytes can be cut into lines before they are read as text or after it. A newline ends whatever
character the bytes before it have begun (`pieces_append_newline`), and no other byte is read as a
newline character (`not_mem_pieces`), so both ways give lines of the same words
(`words_lines_decodeLossy`).

## Main definitions

- `Text.lines`: the lines of a text
- `Text.hasWords`: whether a text has words
- `Expecting.Sound`: what holds of each state that the reader of bytes comes to
-/

namespace TableShell

namespace Text

/-- The pieces of a text between newline characters. -/
def lines (text : String) : List String :=
  (text.toList.splitOn '\n').map String.ofList

/-- Whether a text has any words. -/
def hasWords (text : String) : Bool :=
  !(words text).isEmpty

end Text

namespace Utf8

variable {expecting : Expecting} {bytes front rest : List UInt8}

/-! ### One byte -/

/-- A byte that goes on with a character is no ASCII byte, and the character is none of the first
sixteen. -/
def Expecting.Sound : Expecting → Prop
  | .first => True
  | .next value _ low _ => 0x80 ≤ low ∧ 0x10 ≤ value * 64 + (low - 0x80)

private theorem sound_lead (b : Nat) : (lead b).2.Sound := by
  unfold lead
  split_ifs <;> simp only [Expecting.Sound] <;> omega

theorem Expecting.Sound.step (sound : expecting.Sound) (b : Nat) :
    (Utf8.step expecting b).2.Sound := by
  cases expecting with
  | first => exact sound_lead b
  | next value more low high =>
    simp only [Utf8.step]
    split
    next within =>
      cases more with
      | zero => trivial
      | succ more =>
        simp only [Sound] at sound ⊢
        omega
    next => exact sound_lead b

private theorem eq_newline_of_ofNat {n : Nat} (h : Char.ofNat n = '\n') : n = 0x0A := by
  by_cases valid : n.isValidChar
  · rw [Char.ofNat, dif_pos valid] at h
    exact congrArg Char.toNat h
  · rw [Char.ofNat, dif_neg valid] at h
    exact absurd h (by decide)

private theorem not_mem_lead {b : Nat} (other : b ≠ 0x0A) : some '\n' ∉ (lead b).1 := by
  unfold lead
  split_ifs
  case pos =>
    intro member
    rw [List.mem_singleton, Option.some.injEq] at member
    exact other (eq_newline_of_ofNat member.symm)
  all_goals simp

private theorem not_mem_step (sound : expecting.Sound) {b : Nat} (other : b ≠ 0x0A) :
    some '\n' ∉ (step expecting b).1 := by
  cases expecting with
  | first => exact not_mem_lead other
  | next value more low high =>
    simp only [step]
    split
    next within =>
      cases more with
      | zero =>
        -- A character of several bytes is too large to be a newline.
        intro member
        rw [List.mem_singleton, Option.some.injEq] at member
        have number := eq_newline_of_ofNat member.symm
        simp only [Expecting.Sound] at sound
        omega
      | succ more => exact List.not_mem_nil
    next =>
      intro member
      rcases List.mem_cons.1 member with ill_formed | later
      · cases ill_formed
      · exact not_mem_lead other later

/-! ### A sequence of bytes -/

/-- A newline character comes of a newline only. -/
theorem not_mem_pieces (sound : expecting.Sound) (one_line : newline ∉ bytes) :
    some '\n' ∉ pieces expecting bytes := by
  induction bytes generalizing expecting with
  | nil => cases expecting <;> simp [pieces]
  | cons b bs ih =>
    rw [List.mem_cons, not_or] at one_line
    have other : b.toNat ≠ 0x0A := by
      intro same
      exact one_line.1 (UInt8.toNat_inj.1 same).symm
    rw [pieces]
    intro member
    rcases List.mem_append.1 member with now | later
    · exact not_mem_step sound other now
    · exact ih (sound.step b.toNat) one_line.2 later

/-- A newline ends what the bytes before it have begun, and what follows it is read anew. -/
theorem pieces_append_newline (sound : expecting.Sound) (front rest : List UInt8) :
    pieces expecting (front ++ newline :: rest) =
      pieces expecting front ++ some '\n' :: pieces .first rest := by
  induction front generalizing expecting with
  | nil =>
    cases expecting with
    | first => rfl
    | next value more low high =>
      -- The character that was begun is given up, and the newline is read as a first byte.
      have outside : ¬(low ≤ newline.toNat ∧ newline.toNat ≤ high) := by
        have ascii : newline.toNat = 0x0A := rfl
        simp only [Expecting.Sound] at sound
        omega
      simp only [List.nil_append, pieces, step, if_neg outside]
      rfl
  | cons b bs ih =>
    rw [List.cons_append, pieces, ih (sound.step b.toNat), pieces, List.append_assoc]

private theorem toList_decodeLossy_append_newline (front rest : List UInt8) :
    (decodeLossy (front ++ newline :: rest)).toList =
      (decodeLossy front).toList ++ '\n' :: (decodeLossy rest).toList := by
  have start : Expecting.first.Sound := trivial
  simp only [decodeLossy, String.toList_ofList, pieces_append_newline start, List.map_append,
    List.map_cons, Option.getD_some]

private theorem not_mem_decodeLossy (one_line : newline ∉ bytes) :
    '\n' ∉ (decodeLossy bytes).toList := by
  have start : Expecting.first.Sound := trivial
  rw [decodeLossy, String.toList_ofList]
  intro member
  obtain ⟨piece, there, eq⟩ := List.mem_map.1 member
  cases piece with
  | none => exact absurd eq (by decide)
  | some c =>
    obtain rfl : c = '\n' := eq
    exact not_mem_pieces start one_line there

/-! ### Lines -/

/-- A sequence of bytes is a single line, or a line, a newline and more bytes. -/
theorem newline_induction {p : List UInt8 → Prop}
    (single : ∀ bytes, newline ∉ bytes → p bytes)
    (more : ∀ front rest, newline ∉ front → p rest → p (front ++ newline :: rest))
    (bytes : List UInt8) : p bytes := by
  by_cases member : newline ∈ bytes
  · obtain ⟨front, rest, cut, first⟩ := List.eq_append_cons_of_mem member
    have shorter : rest.length < bytes.length := by
      rw [cut, List.length_append, List.length_cons]
      omega
    rw [cut]
    exact more front rest first (newline_induction single more rest)
  · exact single bytes member
termination_by bytes.length

theorem lines_append_newline (first : newline ∉ front) (rest : List UInt8) :
    lines (front ++ newline :: rest) = (front ++ [newline]) :: lines rest := by
  induction front with
  | nil => rfl
  | cons b bs ih =>
    rw [List.mem_cons, not_or] at first
    rw [List.cons_append, lines, if_neg (Ne.symm first.1), ih first.2]
    rfl

theorem lines_of_not_mem (one_line : newline ∉ bytes) (nonempty : bytes ≠ []) :
    lines bytes = [bytes] := by
  induction bytes with
  | nil => exact absurd rfl nonempty
  | cons b bs ih =>
    rw [List.mem_cons, not_or] at one_line
    rw [lines, if_neg (Ne.symm one_line.1)]
    cases bs with
    | nil => rfl
    | cons c cs => rw [ih one_line.2 (List.cons_ne_nil c cs)]

theorem lines_decodeLossy_append_newline (first : newline ∉ front) (rest : List UInt8) :
    Text.lines (decodeLossy (front ++ newline :: rest)) =
      decodeLossy front :: Text.lines (decodeLossy rest) := by
  rw [Text.lines, toList_decodeLossy_append_newline,
    List.splitOn_append_cons_self_of_not_mem (not_mem_decodeLossy first), List.map_cons,
    String.ofList_toList]
  rfl

theorem lines_decodeLossy_of_not_mem (one_line : newline ∉ bytes) :
    Text.lines (decodeLossy bytes) = [decodeLossy bytes] := by
  rw [Text.lines, List.splitOn_eq_singleton (not_mem_decodeLossy one_line), List.map_singleton,
    String.ofList_toList]

/-- The newline that ends a line belongs to none of its words. -/
theorem words_decodeLossy_append_newline (front : List UInt8) :
    Text.words (decodeLossy (front ++ [newline])) = Text.words (decodeLossy front) := by
  have blank : Text.isBlank '\n' := by decide
  have read : decodeLossy (front ++ [newline]) =
      String.ofList ((decodeLossy front).toList ++ ['\n']) := by
    rw [← String.ofList_toList (s := decodeLossy (front ++ [newline])),
      toList_decodeLossy_append_newline]
    rfl
  rw [read, Text.words_append_blank blank, String.ofList_toList]
  exact List.append_nil _

/-- Whether bytes are cut into lines before they are read as text or after it, the lines with words
have the same words. -/
theorem words_lines_decodeLossy (bytes : List UInt8) :
    (((lines bytes).map decodeLossy).filter Text.hasWords).map Text.words =
      ((Text.lines (decodeLossy bytes)).filter Text.hasWords).map Text.words := by
  induction bytes using newline_induction with
  | single bytes one_line =>
    rw [lines_decodeLossy_of_not_mem one_line]
    by_cases empty : bytes = []
    · subst empty
      rfl
    · rw [lines_of_not_mem one_line empty]
      rfl
  | more front rest first ih =>
    have same := words_decodeLossy_append_newline front
    rw [lines_append_newline first, lines_decodeLossy_append_newline first, List.map_cons,
      List.filter_cons, List.filter_cons, Text.hasWords, Text.hasWords, same]
    split
    · rw [List.map_cons, List.map_cons, same, ih]
    · exact ih

end Utf8

end TableShell
