import RequestLine.CommandLine.Invocation
import RequestLine.Exchange.Answer
import RequestLine.Source
import RequestLine.Text.Control
import RequestLine.Yaml.Printer

/-!
# Reports

What a command line prints, sends and ends with.

* `Report.ofArguments`: the report of a command line in its environment and its session.
* `Progress.ofStatements`: handles statements one after the other in one session, and prints each
  result whatever came before it.
-/

namespace RequestLine.CommandLine

/-- How a command ends. -/
inductive Ending
  | exit (code : Nat)
  /-- The usage of the program is to be shown, by request or because there are no arguments. -/
  | usage (requested : Bool)
  /-- A request was interrupted. -/
  | interrupted (i : Interruption)
  /-- A text to print holds a surrogate. -/
  | unprintable
  /-- A file of statements could not be read. -/
  | unreadable (e : Source.LoadError)
  /-- A directory was named as file of statements. -/
  | directory

/-- The exit code after the usage has been shown. -/
def usageCode (requested : Bool) : Nat := if requested then 0 else 2

/-- What a command does. -/
structure Report where
  stdout : Text
  /-- The log and the line of an error. The usage of a command that stands in front of the error of a
  command line is left out. -/
  stderr : Text
  calls : List Call
  ending : Ending

/-- An object in a format, without white space at its end. -/
def Format.render : Format → Dictionary Text Json → Text
  | json, members => (Json.object members).indented
  | yaml, members => (Yaml.render members).trimEnd

/-- The members of an object. -/
def membersOf : Json → Dictionary Text Json
  | .obj members => members
  | _ => []

def line (t : Text) : Text := t ++ "\n"

/-- The line of an error, without control sequences. -/
def errorLine (message : Text) : Text := line (Text.plain ("Error: " ++ message))

/-- The line in front of the result of a statement, without control sequences. -/
def titleLine (statement : Text) : Text := line (Text.plain ("# " ++ statement))

/-- The lines of a log that is shown. -/
def logLines (verbose : Bool) (log : List LogEntry) : Text :=
  if verbose then log.flatMap (fun e => line e.text) else []

/-- What has been done for the statements of a run. -/
structure Progress where
  stdout : Text
  log : List LogEntry
  calls : List Call
  /-- How many statements failed. -/
  failed : Nat
  /-- What ended the run before its last statement. -/
  stopped : Option Ending

namespace Progress

def none : Progress := ⟨[], [], [], 0, .none⟩

/-- What is printed for a statement: its result, under a line with the statement if there are
several. Both formats escape control characters in a result. -/
def block (format : Format) (titled : Bool) (statement : Text) (data : Json) : Text :=
  (if titled then titleLine statement else []) ++ line (format.render (membersOf data))

/-- Handles statements in order. -/
def ofStatements (c : Client) (format : Format) (titled : Bool) :
    List Text → Session → Progress
  | [], _ => none
  | statement :: r, s =>
    let step := c.answer [("reqline", .str statement)] s
    match step.result with
    | .error i => ⟨[], step.log, step.calls, 0, some (.interrupted i)⟩
    | .ok answer =>
      let text := block format titled statement answer.data
      if text.hasSurrogate then ⟨[], step.log, step.calls, 0, some .unprintable⟩
      else
        let rest := ofStatements c format titled r step.session
        { stdout := text ++ rest.stdout
          log := step.log ++ rest.log
          calls := step.calls ++ rest.calls
          failed := (if answer.succeeded then 0 else 1) + rest.failed
          stopped := rest.stopped }

end Progress

namespace Report

/-- The message of a run some of whose statements failed. -/
def failureMessage (failed total : Nat) : Text :=
  decimalDigits failed ++ " of " ++ decimalDigits total ++ " statements failed."

/-- The report of the command `parse`. -/
def ofParse (verbose : Bool) (statement : Text) (format : Format) : Report :=
  match Request.parse statement with
  | .error e => ⟨[], errorLine e.message, [], .exit 1⟩
  | .ok r =>
    let text := line (format.render (membersOf r.toJson))
    let log := logLines verbose [.parsed r.method r.fullUrl]
    if text.hasSurrogate then ⟨[], log, [], .unprintable⟩ else ⟨text, log, [], .exit 0⟩

def ofRun (verbose : Bool) (c : Client) (format : Format) (statements : List Text) (s : Session) :
    Report :=
  let p := Progress.ofStatements c format (1 < statements.length) statements s
  let log := logLines verbose p.log
  match p.stopped with
  | some e => ⟨p.stdout, log, p.calls, e⟩
  | none =>
    if p.failed = 0 then ⟨p.stdout, log, p.calls, .exit 0⟩
    else
      ⟨p.stdout, log ++ errorLine (failureMessage p.failed statements.length), p.calls, .exit 1⟩

def ofInvocation (env : Environment) (i : Invocation) (s : Session) : Report :=
  match i.command with
  | .help requested => ⟨[], [], [], .usage requested⟩
  | .parse statement format => ofParse i.verbose statement format
  | .run statement file timeout raise format =>
    let c : Client := ⟨timeout.map .double, raise⟩
    match file with
    | none => ofRun i.verbose c format statement.toList s
    | some .directory => ⟨[], [], [], .directory⟩
    | some (.file bytes) =>
      match Source.load env.setOrder bytes with
      | .error e => ⟨[], [], [], .unreadable e⟩
      | .ok statements => ofRun i.verbose c format statements s

/-- The report of a command line. -/
def ofArguments (env : Environment) (args : List Text) (s : Session) : Report :=
  match Invocation.read env args with
  | .ok i => ofInvocation env i s
  | .error e => ⟨[], errorLine e.message, [], .exit 2⟩

end Report

end RequestLine.CommandLine
