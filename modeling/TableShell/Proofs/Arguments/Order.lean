import TableShell.Proofs.Arguments.Items

/-!
# Arguments in any order

With a parser that goes item by item, arguments that spell items mean what the items ask for. It
does not matter in which order the items stand, as long as the lines to run keep theirs, nor how
each of them is spelled (`arguments_are_read_in_any_order`). Along the arguments, what they have
given so far and what the later items give are together what is wanted (`Matches.Owes`).

## Main definitions

- `Arguments.Asks`: the items that ask for given settings and lines
- `Arguments.Matches.Owes`: what is given and what the later items give are what is wanted
-/

namespace TableShell

namespace Arguments

/-! ### What the items ask for -/

/-- The value that an item has for an option. -/
def Item.text? (option : Valued) : Item → Option String
  | value other text => if other = option then some text else none
  | quiet => none

/-- The values that items have for an option, in their order. -/
def texts (option : Valued) (items : List Item) : List String :=
  items.filterMap (Item.text? option)

@[simp]
theorem texts_nil (option : Valued) : texts option [] = [] := rfl

theorem texts_value_cons (option other : Valued) (text : String) (items : List Item) :
    texts option (.value other text :: items) =
      (if other = option then [text] else []) ++ texts option items := by
  by_cases same : other = option <;> simp [texts, Item.text?, same]

@[simp]
theorem texts_quiet_cons (option : Valued) (items : List Item) :
    texts option (.quiet :: items) = texts option items := rfl

/-- The values that have to be given for an option. -/
def wanted (invocation : Invocation) : Valued → List String
  | .data => invocation.settings.dataFile?.toList
  | .keyColumn => invocation.settings.keyColumn?.toList
  | .prompt => [invocation.settings.prompt]
  | .command => invocation.commands

/-- The items ask for these settings and lines: each option has its values, and the lines to run
stand in their order. Other than that, the items may stand in any order. -/
structure Asks (items : List Item) (invocation : Invocation) : Prop where
  texts : ∀ option, texts option items = wanted invocation option
  quiet : items.count .quiet = invocation.settings.quiet.toNat
  /-- A data file must have a name. -/
  path : invocation.settings.dataFile? ≠ some ""

private theorem length_wanted_le (invocation : Invocation) {option : Valued}
    (single : option.repeats = false) : (wanted invocation option).length ≤ 1 := by
  cases option with
  | data => exact Option.length_toList_le
  | keyColumn => exact Option.length_toList_le
  | prompt => exact Nat.le_refl 1
  | command => cases single

namespace Matches

/-- What has been given together with what the items ask for is what is wanted. -/
structure Owes (m : Matches) (items : List Item) (invocation : Invocation) : Prop where
  texts : ∀ option, m.values option ++ texts option items = wanted invocation option
  quiet : m.quiet.toNat + items.count .quiet = invocation.settings.quiet.toNat
  path : invocation.settings.dataFile? ≠ some ""

variable {m : Matches} {option : Valued} {text : String} {item : Item} {items : List Item}
  {invocation : Invocation}

@[simp]
theorem quiet_put : (m.put option text).quiet = m.quiet := by
  cases option <;> rfl

theorem values_put_self (free : option.repeats ∨ m.values option = []) :
    (m.put option text).values option = m.values option ++ [text] := by
  cases option <;> simp_all [values, put, Valued.repeats]

theorem values_put_of_ne {other : Valued} (ne : option ≠ other) :
    (m.put option text).values other = m.values other := by
  cases option <;> cases other <;> first | rfl | exact absurd rfl ne

theorem owes_of_asks (asks : Asks items invocation) : ({} : Matches).Owes items invocation where
  texts option := by
    rw [← asks.texts option]
    cases option <;> rfl
  quiet := by
    rw [← asks.quiet]
    exact Nat.zero_add _
  path := asks.path

/-- There is room for what is owed. -/
theorem Owes.admits (owes : m.Owes (item :: items) invocation) : m.Admits item := by
  cases item with
  | value option text =>
    have texts := owes.texts option
    rw [texts_value_cons, if_pos rfl] at texts
    constructor
    · cases several : option.repeats with
      | true => exact .inl rfl
      | false =>
        -- There is room for one value only, and this one has not been given before.
        have room := length_wanted_le invocation several
        rw [← texts, List.length_append, List.length_append, List.length_singleton] at room
        exact .inr (List.eq_nil_of_length_eq_zero (by omega))
    · by_contra refused
      obtain ⟨rfl, rfl⟩ : option = .data ∧ text = "" := by simpa [Valued.admits] using refused
      have file : "" ∈ invocation.settings.dataFile?.toList := by
        rw [← wanted, ← texts]
        simp
      exact owes.path (Option.mem_toList.1 file)
  | quiet =>
    -- The flag can be owed once at most, so it has not been set yet.
    have count := owes.quiet
    have most := Bool.toNat_le invocation.settings.quiet
    rw [List.count_cons_self] at count
    cases raised : m.quiet with
    | false => exact raised
    | true =>
      rw [raised, Bool.toNat_true] at count
      omega

/-- When an item that is owed is given, the others stay owed. -/
theorem Owes.add (owes : m.Owes (item :: items) invocation) :
    (m.add item).Owes items invocation := by
  have admits := owes.admits
  cases item with
  | value option text =>
    refine ⟨fun other => ?_, ?_, owes.path⟩
    · rw [← owes.texts other, texts_value_cons, Matches.add]
      by_cases same : option = other
      · subst same
        rw [values_put_self admits.1, if_pos rfl, List.append_assoc]
      · rw [values_put_of_ne same, if_neg same, List.nil_append]
    · rw [Matches.add, quiet_put, ← owes.quiet, List.count_cons_of_ne (by simp)]
  | quiet =>
    have lowered : m.quiet = false := admits
    have raised : (m.add .quiet).quiet.toNat = 1 := rfl
    refine ⟨fun option => ?_, ?_, owes.path⟩
    · rw [← owes.texts option, texts_quiet_cons]
      cases option <;> rfl
    · rw [← owes.quiet, List.count_cons_self, lowered, raised, Bool.toNat_false]
      omega

theorem Owes.invocation_eq (owes : m.Owes [] invocation) : m.invocation = invocation := by
  have given option : m.values option = wanted invocation option := by
    rw [← owes.texts option, texts_nil, List.append_nil]
  have once {a b : Option String} (same : a.toList = b.toList) : a = b :=
    Option.ext fun text => by rw [← Option.mem_toList, same, Option.mem_toList]
  have data : m.data? = invocation.settings.dataFile? := once (given .data)
  have keyColumn : m.keyColumn? = invocation.settings.keyColumn? := once (given .keyColumn)
  have prompt : m.prompt? = some invocation.settings.prompt :=
    Option.toList_eq_singleton_iff.1 (given .prompt)
  have commands : m.commands = invocation.commands := given .command
  have quiet : m.quiet = invocation.settings.quiet := by
    have same : m.quiet.toNat = invocation.settings.quiet.toNat := owes.quiet
    cases left : m.quiet <;> cases right : invocation.settings.quiet <;>
      simp [left, right] at same <;> rfl
  rw [Matches.invocation, prompt, data, keyColumn, commands, quiet, Option.getD_some]

end Matches

/-- The values of the items are found one item after the other. -/
theorem parse_append_of_owes {parse : Parser} (steps : parse.ItemByItem) {items : List Item}
    {groups : List (List String)} (spelled : List.Forall₂ Spells items groups)
    {invocation : Invocation} {seen : List String} {m : Matches} (accepted : parse seen = .ok m)
    (options : "--" ∉ seen) (owes : m.Owes items invocation) :
    ∃ m', parse (seen ++ groups.flatten) = .ok m' ∧ m'.Owes [] invocation := by
  induction spelled generalizing seen m with
  | nil =>
    rw [List.flatten_nil, List.append_nil]
    exact ⟨m, accepted, owes⟩
  | @cons item group items groups first later ih =>
    have next := steps.append accepted options owes.admits first
    have options' : "--" ∉ seen ++ group :=
      List.not_mem_append options first.hyphens_not_mem
    obtain ⟨m', reads, nothing⟩ := ih next options' owes.add
    rw [List.append_assoc] at reads
    exact ⟨m', reads, nothing⟩

/-- With a parser that goes item by item, arguments that spell items are accepted, and they mean
what the items ask for. Neither the order of the options nor the way each of them is spelled makes a
difference, and the texts may be any. -/
theorem arguments_are_read_in_any_order {parse : Parser} (steps : parse.ItemByItem)
    {items : List Item} {groups : List (List String)} {invocation : Invocation}
    (asks : Asks items invocation) (spelled : List.Forall₂ Spells items groups) :
    read groups.flatten parse = .ok invocation := by
  obtain ⟨m, reads, nothing⟩ := parse_append_of_owes steps spelled steps.nil (List.not_mem_nil)
    (Matches.owes_of_asks asks)
  rw [List.nil_append] at reads
  rw [read, reads]
  exact congrArg Except.ok nothing.invocation_eq

/-- Nine arguments that spell seven items, with texts that look like options or hold an equals
sign. -/
theorem arguments_are_read_in_any_order_of_nine :
    read ["-c", "get 1", "--prompt==", "-kID", "--command=--quiet", "-q", "--data", "t.json",
      "-c=-x"] =
      .ok ⟨⟨"=", some "ID", some "t.json", true⟩, ["get 1", "--quiet", "-x"]⟩ := by
  have asks : Asks
      [.value .command "get 1", .value .prompt "=", .value .keyColumn "ID",
        .value .command "--quiet", .quiet, .value .data "t.json", .value .command "-x"]
      ⟨⟨"=", some "ID", some "t.json", true⟩, ["get 1", "--quiet", "-x"]⟩ := by
    constructor
    case texts =>
      intro option
      cases option <;> decide
    case quiet => decide
    case path => decide
  have line : Spells (.value .command "get 1") ["-c", "get 1"] :=
    @Spells.letterApart .command "get 1" 'c' rfl (by decide +kernel)
  have prompt : Spells (.value .prompt "=") ["--prompt=="] := @Spells.long .prompt "="
  have keyColumn : Spells (.value .keyColumn "ID") ["-kID"] :=
    @Spells.letterJoined .keyColumn "ID" 'k' rfl (by decide) (by decide +kernel)
  have optionLike : Spells (.value .command "--quiet") ["--command=--quiet"] :=
    @Spells.long .command "--quiet"
  have data : Spells (.value .data "t.json") ["--data", "t.json"] :=
    @Spells.longApart .data "t.json" (by decide +kernel)
  have hyphened : Spells (.value .command "-x") ["-c=-x"] := @Spells.letter .command "-x" 'c' rfl
  have spelled := List.Forall₂.cons line <| .cons prompt <| .cons keyColumn <| .cons optionLike <|
    .cons .quietLetter <| .cons data <| .cons hyphened .nil
  exact arguments_are_read_in_any_order itemByItem_parse asks spelled

end Arguments

end TableShell
