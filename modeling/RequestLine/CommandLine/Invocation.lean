import RequestLine.CommandLine.Arguments
import RequestLine.Number.Reading
import RequestLine.Yaml.Display

/-!
# Invocations

What a command line asks for, once its options, its environment and the files it names are known.
Options are judged in the order in which they were given, then the arguments, then the environment.

* `Invocation.read`: the invocation of a command line.
* `Invocation.paths`: the files that a command line names.
-/

namespace RequestLine.CommandLine

inductive Format
  | json
  | yaml
  deriving DecidableEq

namespace Format

def name : Format → Text
  | json => "json"
  | yaml => "yaml"

def all : List Format := [.json, .yaml]

def ofName? (t : Text) : Option Format := all.find? (fun f => f.name = t)

end Format

inductive PathTarget
  | directory
  | file (bytes : List UInt8)

/-- What stands around a command line. An empty variable counts as none. -/
structure Environment where
  timeout : Option Text
  raiseForStatus : Option Text
  /-- What stands at a path, if something does. -/
  target? : Text → Option PathTarget
  setOrder : Yaml.SetOrder

namespace Environment

/-- The value of a variable that is set. -/
def filled? (v : Option Text) : Option Text := v.filter (fun t => !t.isEmpty)

end Environment

inductive Command
  /-- The usage of the program: by request, or because there are no arguments at all. -/
  | help (requested : Bool)
  | parse (statement : Text) (format : Format)
  | run (statement : Option Text) (file : Option PathTarget) (timeout : Option Double)
      (raiseForStatus : Bool) (format : Format)

/-- A command, and whether its log is shown. -/
structure Invocation where
  verbose : Bool
  command : Command

namespace Invocation

/-- The spellings of booleans in the environment, in code point order. -/
def boolSpellings : List (Text × Bool) :=
  [("", false), ("0", false), ("1", true), ("f", false), ("false", false), ("n", false),
    ("no", false), ("off", false), ("on", true), ("t", true), ("true", true), ("y", true),
    ("yes", true)]

/-- The boolean of a text, in any case and with white space around it. -/
def readBool? (t : Text) : Option Bool := boolSpellings.lookup (lowerAscii t.trim)

def formatOf (a : Arguments) : Except UsageError Format :=
  match a.value? .format with
  | none => .ok .json
  | some v =>
    match Format.ofName? v with
    | some f => .ok f
    | none => .error (.notAChoice "'--format'" v (Format.all.map Format.name))

def timeoutOf (v : Text) : Except UsageError Double :=
  match readDouble? v with
  | some x => .ok x
  | none => .error (.notAFloat "'--timeout'" v)

/-- The timeout of the arguments, or else of the environment. -/
def timeout (env : Environment) (a : Arguments) : Except UsageError (Option Double) :=
  match (a.value? .timeout).or (Environment.filled? env.timeout) with
  | none => .ok none
  | some v => (timeoutOf v).map some

/-- Whether statuses count, by the arguments, or else by the environment, or else they do. -/
def raiseForStatus (env : Environment) (a : Arguments) : Except UsageError Bool :=
  match a.options.reverse.find? (fun p => p.1 = .raiseForStatus ∨ p.1 = .ignoreStatus) with
  | some p => .ok (p.1 = .raiseForStatus)
  | none =>
    match Environment.filled? env.raiseForStatus with
    | none => .ok true
    | some v =>
      match readBool? v with
      | some b => .ok b
      | none => .error (.notABoolean "'--raise-for-status'" v (boolSpellings.map (·.1)))

def file (env : Environment) (a : Arguments) : Except UsageError (Option PathTarget) :=
  match a.value? .file with
  | none => .ok none
  | some path =>
    match env.target? path with
    | some target => .ok (some target)
    | none => .error (.noSuchPath "'-f' / '--file'" path)

/-- Judges the value of an option that was given. -/
def check (env : Environment) (a : Arguments) : Switch → Except UsageError Unit
  | .format => (formatOf a).map fun _ => ()
  | .timeout => (timeout env a).map fun _ => ()
  | .file => (file env a).map fun _ => ()
  | .help | .verbose | .raiseForStatus | .ignoreStatus => .ok ()

/-- At most one positional argument. -/
def single (positional : List Text) : Except UsageError (Option Text) :=
  match positional with
  | [] => .ok none
  | [x] => .ok (some x)
  | _ :: extra => .error (.unexpectedArguments extra)

def readParse (env : Environment) (args : List Text) : Except UsageError Command := do
  let a ← Arguments.read .parse true args
  if a.has .help then return .help true
  a.options.forM fun p => check env a p.1
  if a.positional.isEmpty then throw (.missingArgument "STATEMENT")
  return .parse ((← single a.positional).getD []) (← formatOf a)

/-- The command `run` with its arguments. A statement and a file exclude each other, and an empty
statement is none. -/
def readRun (env : Environment) (args : List Text) : Except UsageError Command := do
  let a ← Arguments.read .run true args
  if a.has .help then return .help true
  a.options.forM fun p => check env a p.1
  let timeout ← timeout env a
  let raise ← raiseForStatus env a
  let statement := Environment.filled? (← single a.positional)
  let file ← file env a
  if statement.isSome == file.isSome then throw .statementOrFile
  return .run statement file timeout raise (← formatOf a)

def commandNames : List Text := ["parse", "run"]

/-- What is wrong with arguments that start with no command: what is wrong with them as options, if
anything is, or else the first of them. -/
def readUnknown (name : Text) (rest : List Text) : Except UsageError Command := do
  let a ← Arguments.read .top false (name :: rest)
  if a.has .help then return .help true
  throw (.noSuchCommand name (Similarity.closeMatches name commandNames))

/-- The invocation of a command line. -/
def read (env : Environment) (args : List Text) : Except UsageError Invocation := do
  if args.isEmpty then return ⟨false, .help false⟩
  let a ← Arguments.read .top false args
  let verbose := a.has .verbose
  if a.has .help then return ⟨verbose, .help true⟩
  match a.positional with
  | [] => throw .missingCommand
  | name :: rest =>
    if name = Text.ofString "parse" then return ⟨verbose, ← readParse env rest⟩
    else if name = Text.ofString "run" then return ⟨verbose, ← readRun env rest⟩
    else return ⟨verbose, ← readUnknown name rest⟩

/-- The files that a command line may name. -/
def paths (args : List Text) : List Text :=
  match Arguments.read .top false args with
  | .ok ⟨_, _ :: rest⟩ =>
    match Arguments.read .run true rest with
    | .ok a => (a.options.filter (fun p => p.1 = .file)).map (·.2)
    | .error _ => []
  | _ => []

end Invocation

end RequestLine.CommandLine
