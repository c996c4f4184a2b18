import Mathlib.Data.List.Basic
import TableShell.Arguments

/-!
# Arguments item by item

What arguments ask for is a list of items: values for options, and that progress is not shown. Each
item can be spelled in several ways, with one argument or with two. A parser goes item by item if it
takes each spelling of an item as this item, whatever arguments stand in front of it
(`Parser.ItemByItem`). The parser that goes from left to right is of this kind
(`itemByItem_parse`): it keeps an option pending as long as its value may still come, and what it
has read settles to the values of the items (`Progress.foldlM_take_of_spells`).

## Main definitions

- `Arguments.Item`, `Arguments.Spells`: what arguments ask for, and how it is written
- `Arguments.Matches.Admits`, `Arguments.Matches.add`: the values of the options with an item
- `Arguments.Parser.ItemByItem`: what is asked of a parser
-/

namespace TableShell

namespace Arguments

/-- Something that arguments ask for. -/
inductive Item where
  /-- A value for an option. -/
  | value (option : Valued) (text : String)
  /-- That progress is not shown. -/
  | quiet
deriving DecidableEq, Repr

/-! ### Spellings -/

/-- A text that does not begin like an option. -/
def IsPlain (text : String) : Prop :=
  text.toList.head? ≠ some '-'

instance (text : String) : Decidable (IsPlain text) :=
  inferInstanceAs (Decidable (_ ≠ _))

/-- The ways to spell an item. Behind an equals sign the value may be any text, and in an argument
of its own any plain one. It may also follow the letter directly, unless it is empty or begins with
an equals sign, which would not belong to it. -/
inductive Spells : Item → List String → Prop
  | long {option text} : Spells (.value option text) ["--" ++ option.longName ++ "=" ++ text]
  | longApart {option text} (plain : IsPlain text) :
      Spells (.value option text) ["--" ++ option.longName, text]
  | letter {option text c} (short : option.letter? = some c) :
      Spells (.value option text) ["-" ++ String.singleton c ++ "=" ++ text]
  | letterApart {option text c} (short : option.letter? = some c) (plain : IsPlain text) :
      Spells (.value option text) ["-" ++ String.singleton c, text]
  | letterJoined {option text c} (short : option.letter? = some c) (nonempty : text ≠ "")
      (unequal : text.toList.head? ≠ some '=') :
      Spells (.value option text) ["-" ++ String.singleton c ++ text]
  | quiet : Spells .quiet ["--quiet"]
  | quietLetter : Spells .quiet ["-q"]

/-! ### What is asked of a parser -/

namespace Matches

/-- There is room for an item. An option takes a value if it has none yet or is one that may have
several, unless it must not have this one, and a flag is set once. -/
def Admits (m : Matches) : Item → Prop
  | .value option text => (option.repeats ∨ m.values option = []) ∧ option.admits text
  | .quiet => m.quiet = false

/-- The values together with what an item gives. -/
def add (m : Matches) : Item → Matches
  | .value option text => m.put option text
  | .quiet => { m with quiet := true }

end Matches

/-- What is asked of a parser: it takes each spelling of an item, if there is room for it, as this
item. -/
structure Parser.ItemByItem (parse : Parser) : Prop where
  /-- Without arguments no option has a value. -/
  nil : parse [] = .ok {}
  /-- An item behind arguments that are accepted is added to what they give. Two hyphens alone would
  end the options. -/
  append {arguments : List String} {m : Matches} {item : Item} {group : List String} :
    parse arguments = .ok m → "--" ∉ arguments → m.Admits item → Spells item group →
      parse (arguments ++ group) = .ok (m.add item)

/-- An argument is not two hyphens alone if one of the first two characters is no hyphen or a third
one follows. -/
private theorem ne_hyphens {argument : String} (c : Char) (text : List Char)
    (begins : argument.toList = '-' :: c :: text) (more : c ≠ '-' ∨ text ≠ []) :
    argument ≠ "--" := by
  rintro rfl
  obtain ⟨rfl, rfl⟩ : '-' = c ∧ [] = text := by simpa using begins
  simp at more

private theorem ne_hyphen_of_letter? {option : Valued} {c : Char}
    (short : option.letter? = some c) : c ≠ '-' := by
  cases option <;> cases short <;> decide

private theorem longName_ne_nil (option : Valued) : option.longName.toList ≠ [] := by
  cases option <;> decide +kernel

theorem Spells.hyphens_not_mem {item : Item} {group : List String} (spelled : Spells item group) :
    "--" ∉ group := by
  have plain_ne {text : String} (plain : IsPlain text) : text ≠ "--" := by
    rintro rfl
    exact plain rfl
  have one {argument : String} (ne : argument ≠ "--") : "--" ∉ [argument] := by
    simpa using ne.symm
  have two {argument text : String} (ne : argument ≠ "--") (plain : IsPlain text) :
      "--" ∉ [argument, text] := by
    simpa using ⟨ne.symm, (plain_ne plain).symm⟩
  cases spelled with
  | @long option text =>
    exact one (ne_hyphens '-' (option.longName.toList ++ '=' :: text.toList) (by simp)
      (.inr (by simp)))
  | @longApart option text plain =>
    exact two (ne_hyphens '-' option.longName.toList (by simp) (.inr (longName_ne_nil option)))
      plain
  | @letter option text c short =>
    exact one (ne_hyphens c ('=' :: text.toList) (by simp)
      (.inl (ne_hyphen_of_letter? short)))
  | @letterApart option text c short plain =>
    exact two (ne_hyphens c [] (by simp) (.inl (ne_hyphen_of_letter? short))) plain
  | @letterJoined option text c short _ _ =>
    exact one (ne_hyphens c text.toList (by simp) (.inl (ne_hyphen_of_letter? short)))
  | quiet => decide
  | quietLetter => decide

/-! ### The parser from left to right -/

@[simp]
theorem longName?_longName (option : Valued) : longName? option.longName = some (.inl option) := by
  cases option <;> decide +kernel

theorem letter?_of_letter? {option : Valued} {c : Char} (short : option.letter? = some c) :
    letter? c = some (.inl option) := by
  cases option <;> cases short <;> rfl

namespace Matches

variable {m : Matches} {option : Valued} {text : String}

theorem assign_of_admits (admits : m.Admits (.value option text)) :
    m.assign option text = .ok (m.add (.value option text)) := by
  obtain ⟨free, named⟩ := admits
  have single : (!option.repeats && m.values option != []) = false := by
    rcases free with several | first
    · rw [several, Bool.not_true, Bool.false_and]
    · simp [first]
  rw [assign, single, named]
  rfl

theorem raise_of_admits (admits : m.Admits .quiet) : m.raise .quiet = .ok (m.add .quiet) := by
  rw [raise, if_neg (Bool.not_eq_true _ ▸ admits)]
  rfl

end Matches

namespace Progress

variable {p : Progress} {m : Matches} {option : Valued} {text argument : String} {item : Item}
  {group arguments : List String}

/-- No name holds an equals sign, so a value begins after the first one. -/
private theorem ne_equals_of_mem_longName : ∀ c ∈ option.longName.toList, (c != '=') = true := by
  have all : option.longName.toList.all (· != '=') = true := by
    cases option <;> decide +kernel
  exact List.all_eq_true.1 all

@[simp]
theorem longParts_longName (option : Valued) :
    longParts option.longName.toList = (option.longName, none) := by
  cases option <;> decide +kernel

@[simp]
theorem longParts_longName_append (option : Valued) (text : String) :
    longParts (option.longName.toList ++ '=' :: text.toList) = (option.longName, some text) := by
  rw [longParts, List.takeWhile_append_of_pos ne_equals_of_mem_longName,
    List.dropWhile_append_of_pos ne_equals_of_mem_longName]
  simp

private theorem attachedValue_of_ne (unequal : text.toList.head? ≠ some '=') :
    attachedValue text.toList = text := by
  unfold attachedValue
  split
  case h_1 value equal => simp [equal] at unequal
  case h_2 => exact String.ofList_toList

private theorem take_of_hyphens (cs : List Char) (begins : argument.toList = '-' :: '-' :: cs) :
    p.take argument = p.long (longParts cs).1 (longParts cs).2 := by
  simp only [take, begins]

private theorem take_of_hyphen {c : Char} (cs : List Char)
    (begins : argument.toList = '-' :: c :: cs) (single : c ≠ '-') :
    p.take argument = p.letters (c :: cs) := by
  rw [take, begins]
  split <;> simp_all

private theorem take_of_isPlain (plain : IsPlain argument) : p.take argument = p.bare argument := by
  rw [take]
  split <;> simp_all [IsPlain]

private theorem long_some (settles : p.settle = .ok m) (admits : m.Admits (.value option text)) :
    p.long option.longName (some text) = .ok (settled (m.add (.value option text))) := by
  simp only [long, longName?_longName, settles, Matches.assign_of_admits admits, bind, Except.bind]
  rfl

private theorem long_none (settles : p.settle = .ok m) :
    p.long option.longName none = .ok (await m option none) := by
  simp only [long, longName?_longName, settles, bind, Except.bind]
  rfl

private theorem letters_singleton {c : Char} (short : option.letter? = some c)
    (settles : p.settle = .ok m) : p.letters [c] = .ok (await m option none) := by
  simp only [letters, letter?_of_letter? short, settles, bind, Except.bind]
  rfl

private theorem letters_cons {c : Char} (value : List Char) (short : option.letter? = some c)
    (settles : p.settle = .ok m) (nonempty : value ≠ [])
    (admits : m.Admits (.value option (attachedValue value))) :
    p.letters (c :: value) = .ok (settled (m.add (.value option (attachedValue value)))) := by
  cases value with
  | nil => contradiction
  | cons d value =>
    simp only [letters, letter?_of_letter? short, settles, Matches.assign_of_admits admits, bind,
      Except.bind]
    rfl

private theorem long_quiet (settles : p.settle = .ok m) (admits : m.Admits .quiet) :
    p.long "quiet" none = .ok (settled (m.add .quiet)) := by
  have known : longName? "quiet" = some (.inr .quiet) := by decide +kernel
  simp only [long, known, settles, Matches.raise_of_admits admits, bind, Except.bind]
  rfl

private theorem letters_quiet (settles : p.settle = .ok m) (admits : m.Admits .quiet) :
    p.letters ['q'] = .ok (settled (m.add .quiet)) := by
  have known : letter? 'q' = some (.inr .quiet) := by decide
  simp only [letters, known, settles, Matches.raise_of_admits admits, bind, Except.bind]

/-- However an item is spelled, taking it settles what is pending, and the item is settled at once
or when the next option comes. -/
theorem foldlM_take_of_spells (spelled : Spells item group) (settles : p.settle = .ok m)
    (admits : m.Admits item) :
    ∃ p', group.foldlM take p = .ok p' ∧ p'.settle = .ok (m.add item) := by
  have one {argument : String} (taken : p.take argument = .ok (settled (m.add item))) :
      ∃ p', [argument].foldlM take p = .ok p' ∧ p'.settle = .ok (m.add item) := by
    refine ⟨settled (m.add item), ?_, rfl⟩
    rw [List.foldlM_cons, taken]
    rfl
  -- A value in an argument of its own takes effect when the next option comes.
  have two {option : Valued} {argument text : String} (value : item = .value option text)
      (taken : p.take argument = .ok (await m option none)) (plain : IsPlain text) :
      ∃ p', [argument, text].foldlM take p = .ok p' ∧ p'.settle = .ok (m.add item) := by
    refine ⟨await m option (some text), ?_, ?_⟩
    · have completed : (await m option none).take text = .ok (await m option (some text)) :=
        take_of_isPlain plain
      rw [List.foldlM_cons, taken]
      show [text].foldlM take (await m option none) = _
      rw [List.foldlM_cons, completed]
      rfl
    · subst value
      exact Matches.assign_of_admits admits
  cases spelled with
  | @long option text =>
    apply one
    rw [take_of_hyphens (option.longName.toList ++ '=' :: text.toList) (by simp),
      longParts_longName_append]
    exact long_some settles admits
  | @longApart option text plain =>
    refine two rfl ?_ plain
    rw [take_of_hyphens option.longName.toList (by simp), longParts_longName]
    exact long_none settles
  | @letter option text c short =>
    apply one
    have value : attachedValue ('=' :: text.toList) = text := String.ofList_toList
    rw [take_of_hyphen ('=' :: text.toList) (by simp) (ne_hyphen_of_letter? short)]
    have taken := letters_cons ('=' :: text.toList) short settles (List.cons_ne_nil _ _)
    rw [value] at taken
    exact taken admits
  | @letterApart option text c short plain =>
    refine two rfl ?_ plain
    rw [take_of_hyphen [] (by simp) (ne_hyphen_of_letter? short)]
    exact letters_singleton short settles
  | @letterJoined option text c short nonempty unequal =>
    apply one
    rw [take_of_hyphen text.toList (by simp) (ne_hyphen_of_letter? short)]
    have taken := letters_cons text.toList short settles (by simpa using nonempty)
    rw [attachedValue_of_ne unequal] at taken
    exact taken admits
  | quiet =>
    apply one
    rw [take_of_hyphens "quiet".toList rfl]
    exact long_quiet settles admits
  | quietLetter =>
    apply one
    rw [take_of_hyphen [] rfl (by decide)]
    exact letters_quiet settles admits

/-- Up to two hyphens alone, the arguments are taken one after the other. -/
theorem parse_append (options : "--" ∉ arguments) (p : Progress) (rest : List String) :
    p.parse (arguments ++ rest) = (arguments.foldlM take p).bind fun p => p.parse rest := by
  induction arguments generalizing p with
  | nil => rfl
  | cons argument arguments ih =>
    rw [List.mem_cons, not_or] at options
    obtain ⟨option, options⟩ := options
    rw [List.cons_append, parse, if_neg (Ne.symm option), List.foldlM_cons]
    cases p.take argument with
    | error error => rfl
    | ok p => exact ih options p

theorem parse_eq_settle (options : "--" ∉ arguments) (p : Progress) :
    p.parse arguments = (arguments.foldlM take p).bind settle := by
  have whole := parse_append options p []
  rwa [List.append_nil] at whole

end Progress

/-- The parser from left to right goes item by item. -/
theorem itemByItem_parse : Parser.ItemByItem parse where
  nil := rfl
  append := by
    intro arguments m item group accepted options admits spelled
    rw [parse, Progress.parse_eq_settle options] at accepted
    cases taken : arguments.foldlM Progress.take {} with
    | error error =>
      rw [taken] at accepted
      cases accepted
    | ok p =>
      rw [taken] at accepted
      obtain ⟨p', takes, settles⟩ := Progress.foldlM_take_of_spells spelled accepted admits
      rw [parse, Progress.parse_append options, taken]
      show p.parse group = _
      rw [Progress.parse_eq_settle spelled.hyphens_not_mem, takes]
      exact settles

end Arguments

end TableShell
