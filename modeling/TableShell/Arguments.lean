/-!
# Command line arguments

A parser turns arguments into the values of the options, and these say what session is asked for.
Any parser can be taken. The one that is given here (`Arguments.parse`) goes from left to right. An
option that takes a value may get it in the same argument or in the next one; in the latter case
the option is settled when the next option comes, or at the end. Only then does it show that it has
no value, or one it must not have.

## Main definitions

- `Settings`, `Invocation`: what the arguments ask for
- `ArgumentError`: why they are not accepted, or what to print in place of a session
- `Arguments.Valued`, `Arguments.Flag`: the options
- `Arguments.Matches`, `Arguments.Parser`: the values of the options, and how they are found
- `Arguments.read`: the meaning of a list of arguments
-/

namespace TableShell

/-- The settings of a session. -/
structure Settings where
  prompt : String := "> "
  /-- The column that identifies rows; `none` stands for the first column of each table. -/
  keyColumn? : Option String := none
  dataFile? : Option String := none
  quiet : Bool := false
deriving DecidableEq, Repr

/-- What the arguments ask for. -/
structure Invocation where
  settings : Settings
  /-- The lines to run in place of the input. -/
  commands : List String
deriving DecidableEq, Repr

/-- Why arguments are not accepted, or what they ask for in place of a session. -/
inductive ArgumentError where
  /-- An argument is not known or has no place. -/
  | unknownArgument
  /-- An option has no value, or an empty one that must not be empty. -/
  | invalidValue
  /-- An option is given twice. -/
  | argumentConflict
  /-- An option that takes no value has one. -/
  | tooManyValues
  | displayHelp
  | displayVersion
deriving DecidableEq, Repr

/-- The text that describes the options. -/
def usageText : String :=
  "An interactive shell for querying, updating and copying rows across tabular files\n\n"
    ++ "Usage: sheet_shell [OPTIONS]\n\n"
    ++ "Options:\n"
    ++ "  -d, --data <DATA>              JSON file with the tables to load (dry-run when omitted)\n"
    ++ "  -k, --key-column <KEY_COLUMN>  "
    ++ "Column used when a field has no {column=...} prefix\n"
    ++ "  -c, --command <COMMANDS>       "
    ++ "Run these commands in order and exit instead of starting the prompt\n"
    ++ "      --prompt <PROMPT>          Prompt shown before each input line [default: \"> \"]\n"
    ++ "  -q, --quiet                    "
    ++ "Suppress progress lines (warnings and errors are still shown)\n"
    ++ "  -h, --help                     Print help\n"
    ++ "  -V, --version                  Print version\n"

/-- The text that names the version. -/
def versionText : String := "sheet_shell 0.1.0\n"

/-- What is printed in place of a session, if the arguments ask for it. -/
def ArgumentError.display? : ArgumentError → Option String
  | displayHelp => some usageText
  | displayVersion => some versionText
  | _ => none

namespace Arguments

/-- The options that take a value. -/
inductive Valued where
  | data
  | keyColumn
  | command
  | prompt
deriving DecidableEq, Repr

/-- The options that take no value. -/
inductive Flag where
  | quiet
  | help
  | version
deriving DecidableEq, Repr

/-- The name of an option behind two hyphens. -/
def Valued.longName : Valued → String
  | data => "data"
  | keyColumn => "key-column"
  | command => "command"
  | prompt => "prompt"

/-- The name of an option behind a single hyphen, if it has one. -/
def Valued.letter? : Valued → Option Char
  | data => some 'd'
  | keyColumn => some 'k'
  | command => some 'c'
  | prompt => none

/-- Only lines to run may be given more than once. -/
def Valued.repeats (option : Valued) : Bool :=
  option == command

/-- Only a data file must have a name. -/
def Valued.admits (option : Valued) (text : String) : Bool :=
  option != data || text != ""

/-- The name of a flag behind two hyphens. -/
def Flag.longName : Flag → String
  | quiet => "quiet"
  | help => "help"
  | version => "version"

/-- The name of a flag behind a single hyphen. -/
def Flag.letter : Flag → Char
  | quiet => 'q'
  | help => 'h'
  | version => 'V'

/-- The first option with a property. -/
def findOption? (valued : Valued → Bool) (flag : Flag → Bool) : Option (Valued ⊕ Flag) :=
  match [Valued.data, .keyColumn, .command, .prompt].find? valued with
  | some option => some (.inl option)
  | none => ([Flag.quiet, .help, .version].find? flag).map .inr

/-- The option with a long name. -/
def longName? (name : String) : Option (Valued ⊕ Flag) :=
  findOption? (·.longName == name) (·.longName == name)

/-- The option with a letter. -/
def letter? (c : Char) : Option (Valued ⊕ Flag) :=
  findOption? (·.letter? == some c) (·.letter == c)

/-- The values that arguments give to the options. -/
structure Matches where
  data? : Option String := none
  keyColumn? : Option String := none
  prompt? : Option String := none
  commands : List String := []
  quiet : Bool := false
deriving DecidableEq, Repr

namespace Matches

/-- The values of an option, in their order. -/
def values (m : Matches) : Valued → List String
  | .data => m.data?.toList
  | .keyColumn => m.keyColumn?.toList
  | .prompt => m.prompt?.toList
  | .command => m.commands

/-- One more value for an option. -/
def put (m : Matches) (option : Valued) (text : String) : Matches :=
  match option with
  | .data => { m with data? := some text }
  | .keyColumn => { m with keyColumn? := some text }
  | .prompt => { m with prompt? := some text }
  | .command => { m with commands := m.commands ++ [text] }

/-- What the values ask for. The prompt need not be given. -/
def invocation (m : Matches) : Invocation :=
  { settings :=
      { prompt := m.prompt?.getD { : Settings }.prompt
        keyColumn? := m.keyColumn?
        dataFile? := m.data?
        quiet := m.quiet }
    commands := m.commands }

/-- Give a value to an option. -/
def assign (m : Matches) (option : Valued) (text : String) : Except ArgumentError Matches :=
  if !option.repeats && m.values option != [] then .error .argumentConflict
  else if !option.admits text then .error .invalidValue
  else .ok (m.put option text)

/-- Set a flag. -/
def raise (m : Matches) : Flag → Except ArgumentError Matches
  | .quiet => if m.quiet then .error .argumentConflict else .ok { m with quiet := true }
  | .help => .error .displayHelp
  | .version => .error .displayVersion

end Matches

/-- How the values of the options are found in arguments. -/
abbrev Parser := List String → Except ArgumentError Matches

/-- The values of the options that are settled, and one option that is not. -/
structure Progress extends Matches where
  /-- An option that is not settled, with its value if that has come already. -/
  pending? : Option (Valued × Option String) := none
deriving DecidableEq, Repr

namespace Progress

/-- Nothing is pending. -/
def settled (m : Matches) : Progress :=
  { toMatches := m }

/-- An option is pending. -/
def await (m : Matches) (option : Valued) (text? : Option String) : Progress :=
  { toMatches := m, pending? := some (option, text?) }

/-- Settle the option that is pending, if there is one. -/
def settle (p : Progress) : Except ArgumentError Matches :=
  match p.pending? with
  | none => .ok p.toMatches
  | some (_, none) => .error .invalidValue
  | some (option, some text) => p.assign option text

/-- An option by its long name, with the value in the same argument if there is one. -/
def long (p : Progress) (name : String) (text? : Option String) : Except ArgumentError Progress :=
  match longName? name, text? with
  | none, _ => .error .unknownArgument
  | some (.inr _), some _ => .error .tooManyValues
  | some (.inr flag), none => do
    let m ← p.settle
    let m ← m.raise flag
    return settled m
  | some (.inl option), some text => do
    let m ← p.settle
    let m ← m.assign option text
    return settled m
  | some (.inl option), none => do
    let m ← p.settle
    return await m option none

/-- The value in an argument after the letter of an option: an equals sign in front of it does
not belong to it. -/
def attachedValue : List Char → String
  | '=' :: value => String.ofList value
  | value => String.ofList value

/-- Options by their letters. What comes after the letter of an option that takes a value is
the value. -/
def letters (p : Progress) : List Char → Except ArgumentError Progress
  | [] => .ok p
  | c :: rest =>
    match letter? c with
    | none => .error .unknownArgument
    | some (.inr flag) => do
      let m ← p.settle
      let m ← m.raise flag
      (settled m).letters rest
    | some (.inl option) => do
      let m ← p.settle
      match rest with
      | [] => return await m option none
      | rest =>
        let m ← m.assign option (attachedValue rest)
        return settled m

/-- An argument that is no option: the value of the pending option, if that has none yet. -/
def bare (p : Progress) (text : String) : Except ArgumentError Progress :=
  match p.pending? with
  | some (option, none) => .ok (await p.toMatches option (some text))
  | _ => .error .unknownArgument

/-- The name and the value of an argument with two hyphens, from after these. -/
def longParts (text : List Char) : String × Option String :=
  (String.ofList (text.takeWhile (· != '=')),
    match text.dropWhile (· != '=') with
    | [] => none
    | _ :: value => some (String.ofList value))

/-- One argument other than two hyphens alone. -/
def take (p : Progress) (argument : String) : Except ArgumentError Progress :=
  match argument.toList with
  | '-' :: '-' :: text => p.long (longParts text).1 (longParts text).2
  | '-' :: c :: cs => p.letters (c :: cs)
  | _ => p.bare argument

/-- The remaining arguments. Two hyphens alone end the options, and nothing may come after
them. -/
def parse (p : Progress) : Parser
  | [] => p.settle
  | argument :: rest =>
    if argument = "--" then
      if rest = [] then p.settle else .error .unknownArgument
    else
      match p.take argument with
      | .error error => .error error
      | .ok p => p.parse rest

end Progress

/-- The values of the options, read from left to right. -/
def parse : Parser :=
  Progress.parse {}

/-- The meaning of a list of arguments. -/
def read (arguments : List String) (parse : Parser := parse) : Except ArgumentError Invocation :=
  (parse arguments).map Matches.invocation

end Arguments

end TableShell
