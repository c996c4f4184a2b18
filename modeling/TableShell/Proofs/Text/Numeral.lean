import Mathlib.Data.List.Induction
import TableShell.Text.Decimal

/-!
# The grammar of numerals

A numeral is an optional plus sign and at least one digit. Reading accepts exactly the numerals of
the numbers up to `Decimal.largest` (`ofChars?_eq_some_iff`), and writing gives the one numeral of
a number that has neither a sign nor leading zeros (`isCanonical_iff`). A text that ends in a
numeral behind some other character shows where it begins (`append_repr_inj`).

## Main definitions

- `Decimal.Digits`, `Decimal.Numeral`: the number that digits, or a numeral, denote
- `Decimal.IsCanonical`: a numeral without a sign and without leading zeros
-/

namespace TableShell.Decimal

/-- One digit or more, and the number that they denote. -/
inductive Digits : List Char → Nat → Prop
  | one {c : Char} (digit : c.isDigit) : Digits [c] (c.toNat - '0'.toNat)
  | more {ds : List Char} {n : Nat} {c : Char} (front : Digits ds n) (digit : c.isDigit) :
      Digits (ds ++ [c]) (10 * n + (c.toNat - '0'.toNat))

/-- A numeral, which may have a plus sign in front, and the number that it denotes. -/
inductive Numeral : List Char → Nat → Prop
  | plain {ds : List Char} {n : Nat} (digits : Digits ds n) : Numeral ds n
  | plus {ds : List Char} {n : Nat} (digits : Digits ds n) : Numeral ('+' :: ds) n

/-- Digits without a zero in front of others. -/
def IsCanonical (ds : List Char) (n : Nat) : Prop :=
  Digits ds n ∧ (ds.head? = some '0' → ds = ['0'])

variable {ds cs : List Char} {c : Char} {n : Nat}

/-! ### Digits -/

theorem digits_iff : Digits ds n ↔
    ds ≠ [] ∧ (∀ c ∈ ds, c.isDigit) ∧ Nat.ofDigitChars 10 ds 0 = n := by
  constructor
  · intro digits
    induction digits with
    | @one c digit => simpa [Nat.ofDigitChars_cons] using digit
    | @more ds n c front digit ih =>
      obtain ⟨-, all, value⟩ := ih
      refine ⟨by simp, ?_, ?_⟩
      · simpa [or_imp, forall_and] using ⟨all, digit⟩
      · rw [Nat.ofDigitChars_append, value, Nat.ofDigitChars_cons, Nat.ofDigitChars_nil]
  · rintro ⟨nonempty, all, rfl⟩
    -- The last digit is the one that counts single, so the induction is from the right.
    induction ds using List.reverseRecOn with
    | nil => exact absurd rfl nonempty
    | append_singleton ds c ih =>
      have digit : c.isDigit := all c (by simp)
      rw [Nat.ofDigitChars_append, Nat.ofDigitChars_cons, Nat.ofDigitChars_nil]
      cases ds with
      | nil => simpa using Digits.one digit
      | cons d ds =>
        refine .more (ih (by simp) ?_) digit
        intro e member
        exact all e (List.mem_append_left [c] member)

theorem Digits.isDigit_of_mem (digits : Digits ds n) (member : c ∈ ds) : c.isDigit :=
  (digits_iff.1 digits).2.1 c member

theorem Digits.not_mem (digits : Digits ds n) (other : c.isDigit = false) : c ∉ ds := by
  intro member
  exact Bool.false_ne_true (other.symm.trans (digits.isDigit_of_mem member))

theorem Digits.unique {m : Nat} (one : Digits ds m) (two : Digits ds n) : m = n :=
  (digits_iff.1 one).2.2.symm.trans (digits_iff.1 two).2.2

/-! ### Reading -/

private theorem unsigned_of_digits (digits : Digits ds n) : unsigned ds = ds := by
  unfold unsigned
  split
  next rest => exact absurd List.mem_cons_self (digits.not_mem (c := '+') (by decide))
  next => rfl

private theorem numeral_iff : Numeral cs n ↔ Digits (unsigned cs) n := by
  constructor
  · intro numeral
    cases numeral with
    | plain digits => rwa [unsigned_of_digits digits]
    | plus digits => exact digits
  · unfold unsigned
    split
    · exact .plus
    · exact .plain

/-- The numerals of the numbers that are not too large are read, and nothing else is. -/
theorem ofChars?_eq_some_iff : ofChars? cs = some n ↔ Numeral cs n ∧ n ≤ largest := by
  rw [numeral_iff, digits_iff]
  simp only [ofChars?, List.all_eq_true]
  constructor
  · intro read
    split at read
    next accepted =>
      obtain rfl := Option.some.inj read
      exact ⟨⟨accepted.1, accepted.2.1, rfl⟩, accepted.2.2⟩
    next => cases read
  · rintro ⟨⟨nonempty, all, rfl⟩, small⟩
    rw [if_pos ⟨nonempty, all, small⟩]

theorem Numeral.not_mem (numeral : Numeral cs n) (other : c.isDigit = false) (ne : c ≠ '+') :
    c ∉ cs := by
  cases numeral with
  | plain digits => exact digits.not_mem other
  | plus digits => simp [ne, digits.not_mem other]

/-! ### Writing -/

theorem digits_repr (n : Nat) : Digits n.repr.toList n := by
  rw [digits_iff, Nat.toList_repr]
  exact ⟨Nat.toDigits_ne_nil, fun c => Nat.isDigit_of_mem_toDigits (by decide) (by decide),
    Nat.ofDigitChars_ten_toDigits⟩

private theorem digitChar_of_isDigit (digit : c.isDigit) :
    c.toNat - '0'.toNat < 10 ∧ (c.toNat - '0'.toNat).digitChar = c := by
  have bounds : '0'.toNat ≤ c.toNat ∧ c.toNat ≤ '9'.toNat := by
    simpa [Char.isDigit, UInt32.le_iff_toNat_le] using digit
  have small : c.toNat - '0'.toNat < 10 := by
    simp only [Char.reduceToNat] at bounds ⊢
    omega
  refine ⟨small, Char.toNat_inj.1 ?_⟩
  rw [Nat.toNat_digitChar_of_lt_ten small]
  simp only [Char.reduceToNat] at bounds ⊢
  omega

/-- No numeral that is written begins with a zero, except that of zero. -/
theorem head?_toDigits (n : Nat) (zero : (Nat.toDigits 10 n).head? = some '0') : n = 0 := by
  induction n using Nat.strongRecOn with
  | ind n ih =>
    by_cases small : n < 10
    · rw [Nat.toDigits_of_lt_base small] at zero
      simpa using zero
    · obtain ⟨d, ds, front⟩ : ∃ d ds, Nat.toDigits 10 (n / 10) = d :: ds :=
        List.exists_cons_of_ne_nil Nat.toDigits_ne_nil
      rw [Nat.toDigits_of_base_le (by decide) (by omega), front] at zero
      have none_left := ih (n / 10) (by omega) (by rw [front]; exact zero)
      omega

/-- The numeral that is written is the only one without a sign and leading zeros. -/
theorem isCanonical_iff : IsCanonical ds n ↔ ds = n.repr.toList := by
  constructor
  · rintro ⟨digits, plain⟩
    rw [Nat.toList_repr]
    induction digits with
    | one digit =>
      obtain ⟨small, char⟩ := digitChar_of_isDigit digit
      rw [Nat.toDigits_of_lt_base small, char]
    | @more ds n c front digit ih =>
      obtain ⟨small, char⟩ := digitChar_of_isDigit digit
      have nonempty : ds ≠ [] := (digits_iff.1 front).1
      have head : ds.head? ≠ some '0' := by
        intro zero
        have alone := plain (by rw [List.head?_append, zero, Option.some_or])
        simpa [nonempty] using congrArg List.length alone
      have written := ih fun zero => absurd zero head
      have positive : 0 < n := by
        refine Nat.pos_of_ne_zero ?_
        rintro rfl
        exact head (by rw [written]; rfl)
      rw [← Nat.toDigits_append_toDigits (by decide) positive small,
        Nat.toDigits_of_lt_base small, char, ← written]
  · rintro rfl
    refine ⟨digits_repr n, fun zero => ?_⟩
    rw [Nat.toList_repr] at zero ⊢
    rw [head?_toDigits n zero]
    rfl

/-! ### Texts that end in numerals -/

private theorem eq_nil_of_cons_eq_append_cons {left right more : List Char} (alone : c ∉ left)
    (eq : c :: left = more ++ c :: right) : more = [] := by
  cases more with
  | nil => rfl
  | cons d more =>
    rw [List.cons_append, List.cons.injEq] at eq
    exact absurd (eq.2 ▸ List.mem_append_right more List.mem_cons_self) alone

/-- The last occurrence of a character is in one place only. -/
theorem eq_of_append_cons_eq_append_cons {front back left right : List Char}
    (eq : front ++ c :: left = back ++ c :: right) (here : c ∉ left) (there : c ∉ right) :
    front = back ∧ left = right := by
  rcases List.append_eq_append_iff.1 eq with ⟨more, rfl, rest⟩ | ⟨more, rfl, rest⟩
  · obtain rfl := eq_nil_of_cons_eq_append_cons here rest
    simpa using rest
  · obtain rfl := eq_nil_of_cons_eq_append_cons there rest
    simpa using rest.symm

/-- Texts with a numeral at their end are equal only if their numerals and what is in front of them
are equal, provided that no digit comes right before the numerals. -/
theorem append_repr_inj {gap : String} (ends : gap.toList.getLast?.any fun c => !c.isDigit)
    {s t : String} {m : Nat} :
    s ++ gap ++ m.repr = t ++ gap ++ n.repr ↔ s = t ∧ m = n := by
  constructor
  · intro eq
    obtain ⟨c, last, other⟩ := (Option.any_eq_true _ _).1 ends
    obtain ⟨front, spelled⟩ := List.getLast?_eq_some_iff.1 last
    have absent (k : Nat) : c ∉ k.repr.toList := (digits_repr k).not_mem (by simpa using other)
    have chars : (s.toList ++ front) ++ c :: m.repr.toList =
        (t.toList ++ front) ++ c :: n.repr.toList := by
      simpa only [String.toList_append, spelled, List.append_assoc, List.singleton_append] using
        congrArg String.toList eq
    obtain ⟨same, numeral⟩ := eq_of_append_cons_eq_append_cons chars (absent m) (absent n)
    exact ⟨String.toList_inj.1 (List.append_cancel_right same),
      (digits_repr m).unique (numeral ▸ digits_repr n)⟩
  · rintro ⟨rfl, rfl⟩
    rfl

end TableShell.Decimal
