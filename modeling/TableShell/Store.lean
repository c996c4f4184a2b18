import TableShell.Chunk
import TableShell.Workbook

/-!
# Stores

A store keeps a workbook in memory and carries out requests on it. Most requests go through
a list of files, and a file that a request cannot be carried out on is skipped with a note.

## Main definitions

- `Store`: a workbook, the key column, and whether notes are printed
- `Store.Fault`: why a file is skipped or a request fails
- `Store.Note`: what is said about a file
- `Store.Outcome`, `Store.overFiles`: a request file by file
-/

namespace TableShell

/-- A workbook that requests are carried out on. -/
structure Store where
  book : Workbook
  /-- The column that identifies rows; `none` stands for the first column of each table. -/
  keyColumn? : Option String := none
  /-- Whether notes are kept back. -/
  quiet : Bool := false
deriving DecidableEq, Inhabited

namespace Store

/-- Why a file is skipped or a request fails. -/
inductive Fault where
  | unknownFile (file : String)
  | unknownColumn (file column : String)
  /-- The file lacks one of two columns. -/
  | unknownColumns (file old new : String)
  /-- The file has no row with the key. -/
  | noSourceRow (file key : String)
  /-- None of the files has a row with the key. -/
  | noSourceRows (key : String)
  /-- There is neither a single new value nor one for each old value. -/
  | valueCount (old new : Nat)
  /-- No column identifies the rows. -/
  | noKeyColumn
  /-- The table is not rectangular where it is looked at. -/
  | access (fault : AccessFault)
deriving DecidableEq, Repr

/-- The wording of a fault. -/
def Fault.message : Fault → String
  | unknownFile file => "ファイルが見つかりません: " ++ file
  | unknownColumn file column => file ++ ": 列'" ++ column ++ "'が見つかりません"
  | unknownColumns file old new =>
    file ++ ": 列'" ++ old ++ "'または'" ++ new ++ "'が見つかりません"
  | noSourceRow file key => file ++ ": 主キー'" ++ key ++ "'の行がありません"
  | noSourceRows key => "主キー'" ++ key ++ "'の行はどのファイルにもありません"
  | valueCount old new =>
    "新しい値の数が不正です: 旧値 " ++ old.repr ++ " 件 / 新値 " ++ new.repr ++ " 件"
  | noKeyColumn => "キー列を決定できません"
  | access .missingCell => "行にセルがありません"
  | access .missingRow => "行がありません"
  | access .missingValue => "新しい値がありません"

/-- What is said about a file. -/
inductive Note where
  /-- The rows that were found. -/
  | found (file : String) (columns : List String) (rows : List Row)
  /-- How many rows were written to. -/
  | updated (file : String) (count : Nat)
  /-- A row was copied from one key to another. -/
  | copied (file source target : String)
  /-- The file was skipped. -/
  | skipped (fault : Fault)
deriving DecidableEq, Repr

namespace Note

/-- A line with the cells of a row. -/
def rowLine (row : Row) : String :=
  "   " ++ " | ".intercalate row

/-- The lines of a note. The columns are shown above the rows if there are rows. -/
def lines : Note → List String
  | found file columns rows =>
    ("📄 " ++ file ++ ": " ++ rows.length.repr ++ " 件")
      :: if rows = [] then [] else rowLine columns :: rows.map rowLine
  | updated file count => ["📄 " ++ file ++ ": " ++ count.repr ++ " 行を更新しました"]
  | copied file source target => ["📄 " ++ file ++ ": '" ++ source ++ "' → '" ++ target ++ "'"]
  | skipped fault => ["⚠️  " ++ fault.message]

/-- Whether a note says that a row was copied. -/
def isCopied : Note → Bool
  | copied .. => true
  | _ => false

end Note

/-- The column that a chunk means in a table: the one it names, or else the key column of the
store, or else the first column of the table. -/
def column? (store : Store) (t : Table) (named? : Option String) : Option String :=
  named? <|> store.keyColumn? <|> t.columns.head?

/-- The store with a table in the place of the one of the given name. -/
def setTable (store : Store) (name : String) (t : Table) : Store :=
  { store with book := store.book.insert name t }

/-- The store of a workbook, provided that all its tables are rectangular. -/
def ofWorkbook (book : Workbook) : Except (String × ShapeFault) Store :=
  match book.shapeFault? with
  | some fault => .error fault
  | none => .ok { book }

/-- Put a table into the store, provided that it is rectangular. -/
def insertTable (store : Store) (name : String) (t : Table) : Except ShapeFault Store :=
  match t.shapeFault? with
  | some fault => .error fault
  | none => .ok (store.setTable name t)

/-- What came of a request. -/
structure Outcome where
  store : Store
  /-- What is said about the files, in order. -/
  notes : List Note := []
  /-- Why the request failed, if it did. -/
  failure? : Option Fault := none
deriving DecidableEq

/-- Act on one file after the other. A fault that is not a reason to skip a file ends it. -/
def overFiles (act : Store → String → Except Fault (Store × Note)) (store : Store) :
    List String → Outcome
  | [] => { store }
  | file :: files =>
    match act store file with
    | .error fault => { store, failure? := some fault }
    | .ok (next, note) =>
      let later := overFiles act next files
      { later with notes := note :: later.notes }

end Store

end TableShell
