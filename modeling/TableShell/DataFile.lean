import TableShell.Json.Skip
import TableShell.Store

/-!
# Data files

A data file holds a workbook as JSON: an object with the member `files`, an object whose
members are tables by name. A table is an object with the members `columns`, an array of
strings, and `rows`, an array of arrays of strings. Members of other names are skipped,
except in `files`, where a table may occur again and the last one counts. A workbook and a
table may also be arrays of their members' values in this order.

## Main definitions

- `DataFile.workbook`: the reader of a workbook
- `DataFile.Decoder`, `DataFile.read`: how a text is read as a workbook
- `DataFile.load`: the store that the content of a file describes
-/

namespace TableShell.DataFile

open Json (Reader)

/-- The strings of an array. -/
def strings : Reader (List String) :=
  Reader.array Reader.text

/-- The members of a table that have been read. -/
structure TableMembers where
  columns? : Option (List String) := none
  rows? : Option (List Row) := none

/-- How the value of a member of a table is read. No member may occur twice. -/
def tableMember (found : TableMembers) (key : String) :
    Except Json.Fault (Reader TableMembers) :=
  if key = "columns" then
    if found.columns?.isSome then .error .misplaced
    else .ok (strings.map fun columns => { found with columns? := some columns })
  else if key = "rows" then
    if found.rows?.isSome then .error .misplaced
    else .ok ((Reader.array strings).map fun rows => { found with rows? := some rows })
  else
    .ok (Reader.skip found)

/-- The table with the members that have been read; both have to be there. -/
def TableMembers.table : TableMembers → Except Json.Fault Table
  | { columns? := some columns, rows? := some rows } => .ok { columns, rows }
  | _ => .error .misplaced

/-- A table. -/
def table : Reader Table :=
  Reader.arrayOr
    (Reader.tuple strings fun columns =>
      (Reader.next (Reader.array strings)).andThen fun rows => Reader.close { columns, rows })
    ((Reader.object tableMember {}).check TableMembers.table)

/-- The tables of a workbook. -/
def files : Reader Workbook :=
  Reader.object (fun book name => .ok (table.map (book.insert name))) .empty

/-- How the value of a member of a workbook is read. -/
def workbookMember (found : Option Workbook) (key : String) :
    Except Json.Fault (Reader (Option Workbook)) :=
  if key = "files" then
    if found.isSome then .error .misplaced else .ok (files.map some)
  else
    .ok (Reader.skip found)

/-- A workbook. -/
def workbook : Reader Workbook :=
  Reader.arrayOr
    (Reader.tuple files fun book => Reader.close book)
    ((Reader.object workbookMember none).check fun
      | some book => .ok book
      | none => .error .misplaced)

/-- How a text is read as a workbook. -/
abbrev Decoder := String → Except Json.Fault Workbook

/-- The workbook that a text describes. Nothing may come after it. -/
def read : Decoder := fun text =>
  match workbook.run (Json.tokens text.toList) with
  | .error fault => .error fault
  | .ok (book, []) => .ok book
  | .ok (_, _ :: _) => .error .malformed

/-- What is found at the place of a data file. -/
inductive Content where
  | missing
  | directory
  | bytes (bytes : ByteArray)

/-- Why a data file gives no store. -/
inductive LoadError where
  | missing
  | directory
  /-- It is no UTF-8. -/
  | notText
  /-- It describes no workbook. -/
  | format (fault : Json.Fault)
  /-- A table is not rectangular. -/
  | shape (name : String) (fault : ShapeFault)
deriving DecidableEq, Repr

/-- The wording of an error with the file of the given path. -/
def LoadError.message (path : String) : LoadError → String
  | missing => "データファイルが存在しません: " ++ path
  | directory => "データファイルを読み込めません: " ++ path
  | notText => "データファイルを読み込めません: " ++ path
  | format _ => "データファイルの形式が不正です: " ++ path
  | shape name fault => fault.message name

/-- The reason behind an error, if there is more to say than its wording does. -/
def LoadError.reason? : LoadError → Option String
  | directory => some "Is a directory (os error 21)"
  | notText => some "stream did not contain valid UTF-8"
  | format .malformed => some "malformed JSON"
  | format .misplaced => some "unexpected JSON value"
  | format .cutOff => some "JSON ends too early"
  | _ => none

/-- The store that the content of a file describes to a decoder. -/
def load (content : Content) (decode : Decoder := read) : Except LoadError Store :=
  match content with
  | .missing => .error .missing
  | .directory => .error .directory
  | .bytes bytes =>
    match String.fromUTF8? bytes with
    | none => .error .notText
    | some text =>
      match decode text with
      | .error fault => .error (.format fault)
      | .ok book =>
        match Store.ofWorkbook book with
        | .error (name, fault) => .error (.shape name fault)
        | .ok store => .ok store

end TableShell.DataFile
