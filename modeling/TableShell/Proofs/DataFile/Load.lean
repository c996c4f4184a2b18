import TableShell.DataFile
import TableShell.Proofs.Json.Reads
import TableShell.Proofs.Text.ByteOrder
import TableShell.Proofs.Workbook.Modify

/-!
# Loading data files

A data file describes tables by name, in any spelling: with the members of tables in either order,
any blanks between symbols and any spelling of strings, and with tables that are overridden by later
ones. With a decoder that reads such texts as the tables that they describe, these tables are
loaded, unless one of them is not rectangular (`load_of_describes`). The decoder of the program is
of this kind (`faithful_read`). All tables can be described (`exists_describes`), and no text
describes different ones (`Describes.unique`).

## Main definitions

- `TableForm`, `BookForm`: the symbols of a table and of a workbook
- `Describes`: a text describes tables by name
- `Decoder.Faithful`: what is asked of a decoder
-/

namespace TableShell.DataFile

open Json

/-! ### The shape of a data file -/

/-- An array of strings. -/
def stringsForm (ss : List String) : List Symbol :=
  Bracket.square.enclose (ss.map fun s => [.text s])

/-- An array of arrays of strings. -/
def rowsForm (rows : List Row) : List Symbol :=
  Bracket.square.enclose (rows.map stringsForm)

/-- A table is an object with its columns and its rows, in either order. -/
inductive TableForm (t : Table) : List Symbol → Prop
  | columnsFirst : TableForm t (Bracket.curly.enclose
      [Symbol.member "columns" (stringsForm t.columns), Symbol.member "rows" (rowsForm t.rows)])
  | rowsFirst : TableForm t (Bracket.curly.enclose
      [Symbol.member "rows" (rowsForm t.rows), Symbol.member "columns" (stringsForm t.columns)])

/-- The members of an object with tables by name. -/
inductive EntriesForm : List (String × Table) → List (List Symbol) → Prop
  | nil : EntriesForm [] []
  | cons {name : String} {t : Table} {entries : List (String × Table)} {form : List Symbol}
      {parts : List (List Symbol)} (first : TableForm t form) (rest : EntriesForm entries parts) :
      EntriesForm ((name, t) :: entries) (Symbol.member name form :: parts)

/-- A workbook is an object with the member `files`, an object with tables by name. -/
def BookForm (entries : List (String × Table)) (symbols : List Symbol) : Prop :=
  ∃ parts, EntriesForm entries parts ∧
    symbols = Bracket.curly.enclose [Symbol.member "files" (Bracket.curly.enclose parts)]

/-- A text describes tables by name: it is a workbook, and of the tables with one name the last one
counts. -/
def Describes (text : String) (tables : String → Option Table) : Prop :=
  ∃ entries symbols, BookForm entries symbols ∧ Written symbols text.toList ∧
    ∀ name, tables name = entries.reverse.lookup name

/-- What is asked of a decoder: it reads a text that describes tables as these tables. -/
def Decoder.Faithful (decode : Decoder) : Prop :=
  ∀ text tables, Describes text tables →
    ∃ book, decode text = .ok book ∧ ∀ name, book.get? name = tables name

private theorem exists_entriesForm (entries : List (String × Table)) :
    ∃ parts, EntriesForm entries parts := by
  induction entries with
  | nil => exact ⟨[], .nil⟩
  | cons entry entries ih =>
    obtain ⟨parts, rest⟩ := ih
    exact ⟨_, .cons .columnsFirst rest⟩

/-- All tables can be described. -/
theorem exists_describes (book : Workbook) : ∃ text, Describes text book.get? := by
  obtain ⟨parts, form⟩ := exists_entriesForm book.entries.reverse
  obtain ⟨text, written⟩ :=
    exists_written (Bracket.curly.enclose [Symbol.member "files" (Bracket.curly.enclose parts)])
  refine ⟨String.ofList text, _, _, ⟨parts, form, rfl⟩, String.toList_ofList ▸ written, ?_⟩
  intro name
  rw [List.reverse_reverse, Workbook.get?]

/-! ### Reading it -/

theorem reads_strings (ss : List String) : Reads strings (stringsForm ss) ss := by
  apply Reads.array
  rw [List.forall₂_map_left_iff, List.forall₂_same]
  exact fun s _ => Reads.text s

theorem reads_rows (rows : List Row) : Reads (Reader.array strings) (rowsForm rows) rows := by
  apply Reads.array
  rw [List.forall₂_map_left_iff, List.forall₂_same]
  exact fun row _ => reads_strings row

private theorem tableMember_columns {found : TableMembers} (fresh : found.columns? = none) :
    tableMember found "columns" =
      .ok (strings.map fun columns => { found with columns? := some columns }) := by
  simp [tableMember, fresh]

private theorem tableMember_rows {found : TableMembers} (fresh : found.rows? = none) :
    tableMember found "rows" =
      .ok ((Reader.array strings).map fun rows => { found with rows? := some rows }) := by
  simp [tableMember, fresh]

theorem reads_table {t : Table} {form : List Symbol} (table_form : TableForm t form) :
    Reads table form t := by
  have columns {found : TableMembers} (fresh : found.columns? = none) :=
    Reads.member (tableMember_columns fresh) ((reads_strings t.columns).map _)
  have rows {found : TableMembers} (fresh : found.rows? = none) :=
    Reads.member (tableMember_rows fresh) ((reads_rows t.rows).map _)
  cases table_form with
  | columnsFirst =>
    apply Reads.arrayOr
    exact (Reads.object (.cons (columns rfl) (.cons (rows rfl) (.nil _)))).check rfl
  | rowsFirst =>
    apply Reads.arrayOr
    exact (Reads.object (.cons (rows rfl) (.cons (columns rfl) (.nil _)))).check rfl

theorem reads_files {entries : List (String × Table)} {parts : List (List Symbol)}
    (form : EntriesForm entries parts) :
    Reads files (Bracket.curly.enclose parts) (Workbook.ofList entries) := by
  have onto (book : Workbook) :
      ReadsEach (fun book => Reader.member fun name => .ok (table.map (book.insert name))) book
        parts (entries.foldl (fun book entry => book.insert entry.1 entry.2) book) := by
    induction form generalizing book with
    | nil => exact .nil book
    | cons first rest ih => exact .cons (.member rfl ((reads_table first).map _)) (ih _)
  exact Reads.object (onto .empty)

theorem reads_workbook {entries : List (String × Table)} {symbols : List Symbol}
    (form : BookForm entries symbols) :
    Reads workbook symbols (Workbook.ofList entries) := by
  obtain ⟨parts, form, rfl⟩ := form
  have known : workbookMember none "files" = .ok (files.map some) := by simp [workbookMember]
  apply Reads.arrayOr
  exact (Reads.object (.cons (.member known ((reads_files form).map some)) (.nil _))).check rfl

/-- The decoder of the program reads each text that describes tables as these tables. -/
theorem faithful_read : Decoder.Faithful read := by
  rintro text tables ⟨entries, symbols, form, written, last⟩
  have run := (reads_workbook form).run _ [] (forall₂_stands_tokens written)
  rw [List.append_nil] at run
  refine ⟨Workbook.ofList entries, by rw [read, run], ?_⟩
  intro name
  rw [Workbook.get?_ofList, last]

/-- A text does not describe different tables. -/
theorem Describes.unique {text : String} {tables others : String → Option Table}
    (one : Describes text tables) (two : Describes text others) : tables = others := by
  obtain ⟨book, found, known⟩ := faithful_read text tables one
  obtain ⟨other, found', known'⟩ := faithful_read text others two
  obtain rfl : book = other := Except.ok.inj (found.symm.trans found')
  funext name
  rw [← known, known']

/-! ### Loading it -/

variable {decode : Decoder} {text : String}

/-- The bytes of a text are loaded if all tables in it are rectangular. -/
theorem load_of_decode {book : Workbook} (found : decode text = .ok book) :
    load (.bytes text.toUTF8) decode =
      match book.shapeFault? with
      | some (name, fault) => .error (.shape name fault)
      | none => .ok { book } := by
  have decoded : String.fromUTF8? text.toUTF8 = some text := dif_pos text.isValidUTF8
  simp only [load, decoded, found, Store.ofWorkbook]
  cases book.shapeFault? with
  | none => rfl
  | some fault => rfl

/-- Loading a file with the bytes of a text that describes tables gives the store with these tables,
in the order of the bytes of their names, if all of them are rectangular. Otherwise nothing is
loaded, since one of them has a fault. This is so with every decoder that is faithful to the
texts that describe tables. -/
theorem load_of_describes (faithful : decode.Faithful) {tables : String → Option Table}
    (described : Describes text tables) :
    let loaded := load (.bytes text.toUTF8) decode
    ((∀ name t, tables name = some t → t.Rectangular) →
      ∃ book, loaded = .ok { book } ∧ (∀ name, book.get? name = tables name) ∧
        (∀ name, name ∈ book.names ↔ (tables name).isSome) ∧
        book.names.Pairwise fun a b => a.toUTF8.data.toList < b.toUTF8.data.toList) ∧
      ((∃ name t, tables name = some t ∧ ¬t.Rectangular) →
        ∃ name t fault, tables name = some t ∧ t.shapeFault? = some fault ∧
          loaded = .error (.shape name fault)) := by
  intro loaded
  obtain ⟨book, found, known⟩ := faithful text tables described
  have checked := load_of_decode found
  constructor
  · intro shape
    have sound : book.shapeFault? = none := by
      rw [Workbook.shapeFault?_eq_none_iff]
      intro name t there
      exact shape name t (known name ▸ there)
    rw [sound] at checked
    refine ⟨book, checked, known, ?_, book.pairwise_names.imp Utf8.bytes_lt⟩
    intro name
    rw [Workbook.mem_names_iff, known, Option.isSome_iff_exists]
  · rintro ⟨name, t, there, misshapen⟩
    cases first : book.shapeFault? with
    | none =>
      rw [Workbook.shapeFault?_eq_none_iff] at first
      exact absurd (first ((known name).trans there)) misshapen
    | some named =>
      obtain ⟨name, fault⟩ := named
      obtain ⟨t, there, faulty⟩ := Workbook.exists_of_shapeFault? first
      rw [first] at checked
      exact ⟨name, t, fault, (known name).symm.trans there, faulty, checked⟩

/-- A data file with columns and rows in either order, a table that is overridden, blanks and
escapes. -/
def sampleText : String :=
  r#"{"files":{"a":{"columns":[],"rows":[]},
"\u0061" :{"rows":[["\ud83d\uDE00"]],"columns":["id"]}}}"#

/-- The table that counts. -/
def sampleTable : Table :=
  { columns := ["id"], rows := [["😀"]] }

theorem describes_sampleText :
    Describes sampleText fun name => if name = "a" then some sampleTable else none := by
  have plain (s : String) (plain : ∀ c ∈ s.toList, 0x20 ≤ c.toNat ∧ c ≠ '"' ∧ c ≠ '\\') :
      (Symbol.text s).Written ('"' :: s.toList ++ ['"']) := .text (Text.spellsAll_self plain)
  have digit (value : Nat) (c : Char) (known : Text.HexDigit value c) := known
  have a : Text.HexNumeral 'a'.toNat ['0', '0', '6', '1'] :=
    .digits (digit 0 _ (.inl rfl)) (digit 0 _ (.inl rfl)) (digit 6 _ (.inl rfl))
      (digit 1 _ (.inl rfl))
  have leading : Text.HexNumeral 0xD83D ['d', '8', '3', 'd'] :=
    .digits (digit 13 _ (.inl rfl)) (digit 8 _ (.inl rfl)) (digit 3 _ (.inl rfl))
      (digit 13 _ (.inl rfl))
  have trailing : Text.HexNumeral 0xDE00 ['D', 'E', '0', '0'] :=
    .digits (digit 13 _ (.inr rfl)) (digit 14 _ (.inr rfl)) (digit 0 _ (.inl rfl))
      (digit 0 _ (.inl rfl))
  have name : Text.SpellsAll ['a'] _ := .cons (.digits a) .nil
  have cell : Text.SpellsAll ['😀'] _ := .cons (.surrogates (by decide) leading trailing) .nil
  have line_break : '\n' ∈ [' ', '\n', '\t', '\r'] := by decide
  have space : ' ' ∈ [' ', '\n', '\t', '\r'] := by decide
  have columns := plain "columns" (by simp)
  have rows := plain "rows" (by simp)
  refine ⟨[("a", { columns := [], rows := [] }), ("a", sampleTable)], _,
    ⟨_, .cons .columnsFirst (.cons .rowsFirst .nil), rfl⟩, ?_, ?_⟩
  · refine Eq.subst (motive := Written _) ?_ <|
      .symbol (.opening .curly) <| .symbol (plain "files" (by simp)) <| .symbol .colon <|
      .symbol (.opening .curly) <| .symbol (plain "a" (by simp)) <| .symbol .colon <|
      .symbol (.opening .curly) <| .symbol columns <| .symbol .colon <|
      .symbol (.opening .square) <| .symbol (.closing .square) <| .symbol .comma <|
      .symbol rows <| .symbol .colon <| .symbol (.opening .square) <|
      .symbol (.closing .square) <| .symbol (.closing .curly) <| .symbol .comma <|
      .blank line_break <| .symbol (.text name) <| .blank space <| .symbol .colon <|
      .symbol (.opening .curly) <| .symbol rows <| .symbol .colon <|
      .symbol (.opening .square) <| .symbol (.opening .square) <| .symbol (.text cell) <|
      .symbol (.closing .square) <| .symbol (.closing .square) <| .symbol .comma <|
      .symbol columns <| .symbol .colon <| .symbol (.opening .square) <|
      .symbol (plain "id" (by simp)) <| .symbol (.closing .square) <|
      .symbol (.closing .curly) <| .symbol (.closing .curly) <| .symbol (.closing .curly) .nil
    decide +kernel
  · intro other
    by_cases eq : other = "a" <;> simp [Workbook.lookup_cons, eq]

theorem load_of_describes_sampleText :
    Describes sampleText (fun name => if name = "a" then some sampleTable else none) ∧
      ∃ book, load (.bytes sampleText.toUTF8) = .ok { book } ∧
        book.get? "a" = some sampleTable ∧ ∀ name, name ∈ book.names ↔ name = "a" := by
  refine ⟨describes_sampleText, ?_⟩
  have shape : sampleTable.Rectangular := by decide
  have loads := (load_of_describes faithful_read describes_sampleText).1
  obtain ⟨book, loaded, tables, names, -⟩ := loads (by
    intro name t known
    split at known
    next => exact Option.some.inj known ▸ shape
    next => cases known)
  refine ⟨book, loaded, tables "a", ?_⟩
  intro name
  rw [names]
  split <;> simp [*]

end TableShell.DataFile
