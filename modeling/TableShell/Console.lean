import TableShell.Report

/-!
# Consoles

How a transcript looks: what of it goes to standard output and what to standard error.
A quiet console leaves out the reports of progress, and a silent one all reports. Lines of
the engine and prompts are printed in any case. The screen is cleared by a text, which is the
output of the terminal's own program for it or, where that fails, `clearSequence`.

## Main definitions

- `helpText`: the commands and the form of a field
- `Console`: how much a console shows of the reports
- `Transcript.stdout`, `Transcript.stderr`: the two outputs
-/

namespace TableShell

/-- The forms of the commands, with what they do. -/
def helpEntries : List (String × String) :=
  [("get [field1] [field2] ... in [filename]",
    "指定したファイルで 1 つ以上のフィールドを検索します。"),
   ("get [field1] [field2] ... except [filename]",
    "指定したファイル以外のすべてのファイルで検索します。"),
   ("update [old_field] to [new_field] in [filename1] [filename2] ...",
    "指定したファイルでフィールドの値を別の値に更新します。"),
   ("update [old_field] to [new_field] except [filename1] [filename2] ...",
    "指定したファイル以外のすべてのファイルで値を更新します。"),
   ("copy [key_column] [source_keys] to [target_keys] in [filename1] ...",
    "主キーが source の行を target の行へ複製します（キーは 1-3 のような区間も可）。"),
   ("copy [key_column] [source_keys] to [target_keys] except [filename1] ...",
    "指定したファイル以外のすべてのファイルで行を複製します。"),
   ("exit / q", "プログラムを終了します。"),
   ("clean", "コンソールの表示を消去します。"),
   ("help", "このヘルプを表示します。")]

/-- The form of a field. -/
def fieldForm : String :=
  "field は 値 / 開始-終了 / {列名=値} / {列名=開始-終了} のいずれかで指定します。"

/-- The help text. -/
def helpText : String :=
  "以下は利用可能なすべてのコマンドです：\n"
    ++ String.join (helpEntries.map fun entry => "\n" ++ entry.1 ++ "\n  - " ++ entry.2 ++ "\n")
    ++ "\n" ++ fieldForm ++ "\n"

/-- A list of values in brackets. -/
def formatValues (values : List String) : String :=
  "[" ++ ", ".intercalate values ++ "]"

/-- The name of a column, or the stand-in for the key column. -/
def columnLabel (column? : Option String) : String :=
  column?.getD "<キー列>"

/-- What erases the screen and puts the cursor into its first place, where the terminal has no
program of its own for it. -/
def clearSequence : String := "\x1b[2J\x1b[1;1H"

/-- How much a console shows of the reports. -/
inductive Console where
  /-- Everything. -/
  | verbose
  /-- Everything but progress. -/
  | quiet
  /-- Nothing. -/
  | silent
deriving DecidableEq, Repr

namespace Report

/-- The line of a report of progress. -/
def progress? : Report → Option String
  | searching target =>
    some ("🔍 フィールド'" ++ columnLabel target.column? ++ "-" ++ formatValues target.values
      ++ "'の検索結果：")
  | updating old new =>
    some ("✏️  フィールド'" ++ columnLabel old.column? ++ "-" ++ formatValues old.values
      ++ "'を'" ++ formatValues new.values ++ "'に更新した結果：")
  | copying source target =>
    some ("📋 主キー'" ++ source ++ "'を主キー'" ++ target ++ "'にコピーした結果：")
  | _ => none

/-- What a report writes to standard output, with a text that clears the screen. -/
def stdout (console : Console) (report : Report) (clearing : String := clearSequence) :
    String :=
  match console, report with
  | .silent, _ => ""
  | _, help => "\n" ++ helpText ++ "\n"
  | _, clear => clearing
  | .quiet, _ => ""
  | .verbose, report =>
    match report.progress? with
    | some line => "\n" ++ line ++ "\n"
    | none => ""

/-- What a report writes to standard error. -/
def stderr (console : Console) (report : Report) : String :=
  match console, report with
  | .silent, _ => ""
  | _, warning w => "⚠️  " ++ w.message ++ "\n"
  | _, failure e => (if e.aborts then "❌ " else "✗ ") ++ e.message ++ "\n"
  | _, _ => ""

end Report

namespace Entry

/-- What an entry writes to standard output. -/
def stdout (console : Console) (entry : Entry) (clearing : String := clearSequence) : String :=
  match entry with
  | report r => r.stdout console clearing
  | request _ _ => ""
  | line text => text ++ "\n"
  | prompt text => text

/-- What an entry writes to standard error. -/
def stderr (console : Console) : Entry → String
  | report r => r.stderr console
  | _ => ""

end Entry

namespace Transcript

/-- What a session writes to standard output. -/
def stdout (console : Console) (transcript : Transcript)
    (clearing : String := clearSequence) : String :=
  String.join (transcript.map fun entry => entry.stdout console clearing)

/-- What a session writes to standard error. -/
def stderr (console : Console) (transcript : Transcript) : String :=
  String.join (transcript.map (Entry.stderr console))

end Transcript

end TableShell
