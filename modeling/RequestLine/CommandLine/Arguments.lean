import RequestLine.CommandLine.UsageError
import RequestLine.Text.Similarity

/-!
# Arguments

Options and positional arguments of one command. An option has a name of two dashes and a word, or
of one dash and a letter; letters may be written together after one dash. The value of an option is
the rest of its argument, or the next argument, whatever that looks like. All arguments after `--`
are positional.

* `Arguments.read`: the options and positional arguments of a command line.
-/

namespace RequestLine.CommandLine

inductive Switch
  | help
  | verbose
  | file
  | timeout
  | raiseForStatus
  | ignoreStatus
  | format
  deriving DecidableEq

def Switch.takesValue : Switch → Bool
  | .file | .timeout | .format => true
  | .help | .verbose | .raiseForStatus | .ignoreStatus => false

/-- The names of the options that a command knows. -/
abbrev SwitchTable := List (Text × Switch)

namespace SwitchTable

def top : SwitchTable := [("-v", .verbose), ("--verbose", .verbose), ("--help", .help)]

def parse : SwitchTable := [("--format", .format), ("--help", .help)]

def run : SwitchTable :=
  [("-f", .file), ("--file", .file), ("--timeout", .timeout),
    ("--raise-for-status", .raiseForStatus), ("--no-raise-for-status", .ignoreStatus),
    ("--format", .format), ("--help", .help)]

/-- The names of two dashes and a word. -/
def longNames (table : SwitchTable) : List Text := (table.map (·.1)).filter (·.startsWith "--")

end SwitchTable

/-- What a command line holds. -/
structure Arguments where
  /-- The options in order, each with its value. -/
  options : List (Switch × Text)
  positional : List Text

namespace Arguments

/-- The arguments with one more option in front. -/
def withOption (s : Switch) (value : Text) (a : Arguments) : Arguments :=
  { a with options := (s, value) :: a.options }

/-- Reads letters written together, the last of which may take the rest or the next argument as its
value: the options, and the option that still needs a value. -/
def readLetters (table : SwitchTable) :
    Text → Except UsageError (List (Switch × Text) × Option (Switch × Text))
  | [] => .ok ([], none)
  | c :: r =>
    let name : Text := ['-', c]
    match table.lookup name with
    | none => .error (.noSuchOption name [])
    | some s =>
      if s.takesValue then
        if r.isEmpty then .ok ([], some (s, name)) else .ok ([(s, r)], none)
      else do
        let (options, pending) ← readLetters table r
        return ((s, []) :: options, pending)

/-- Reads one argument that starts with a dash: the options in it, and the option that still needs a
value. -/
def readSwitch (table : SwitchTable) (argument : Text) :
    Except UsageError (List (Switch × Text) × Option (Switch × Text)) :=
  let name : Text := argument.takeWhile (· ≠ CodePoint.ofChar '=')
  let value : Option Text :=
    if name.length < argument.length then some (argument.drop (name.length + 1)) else none
  if name.startsWith "--" && (table.lookup name).isSome then
    match table.lookup name with
    | none => .error (.noSuchOption name [])
    | some s =>
      match s.takesValue, value with
      | true, some v => .ok ([(s, v)], none)
      | true, none => .ok ([], some (s, name))
      | false, some _ => .error (.takesNoValue name)
      | false, none => .ok ([(s, [])], none)
  else if argument.startsWith "--" then
    .error (.noSuchOption name (Similarity.closeMatches name table.longNames))
  else readLetters table (argument.drop 1)

/-- Whether an argument is an option rather than positional. -/
def isSwitch (argument : Text) : Bool := argument.startsWith "-" && 1 < argument.length

/-- The options and positional arguments of a command line. Unless they may be `mixed`, everything
from the first positional argument on is positional. -/
def read (table : SwitchTable) (mixed : Bool) : List Text → Except UsageError Arguments
  | [] => .ok ⟨[], []⟩
  | a :: r =>
    if a = Text.ofString "--" then .ok ⟨[], r⟩
    else if isSwitch a then do
      let (options, pending) ← readSwitch table a
      let rest ←
        match pending with
        | none => read table mixed r
        | some (s, name) =>
          match r with
          | value :: r₁ => (read table mixed r₁).map (·.withOption s value)
          | [] => throw (.needsValue name)
      return { rest with options := options ++ rest.options }
    else if mixed then do
      let rest ← read table mixed r
      return { rest with positional := a :: rest.positional }
    else .ok ⟨[], a :: r⟩

/-- The last value of an option. -/
def value? (a : Arguments) (s : Switch) : Option Text :=
  (a.options.reverse.find? (fun p => p.1 = s)).map (·.2)

def has (a : Arguments) (s : Switch) : Bool := a.options.any (fun p => p.1 = s)

end Arguments

end RequestLine.CommandLine
