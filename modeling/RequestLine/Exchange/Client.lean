import RequestLine.Exchange.Transport

/-!
# Clients

A client sends requests over one session. What it does is a function of the session: the outcomes
that the transport still has, and the times that the clock will show.

* `IsReading`: the times that a clock can show.
* `Client.send`: sends a request and shapes the response into an envelope.
* `Client.run`: parses a statement and sends it.
* `Step`: the result of a step with the calls it made, the lines it logged and the session it left.
-/

namespace RequestLine

/-- A time that a clock can show, which counts seconds in 64 bits, one of them for the sign. -/
def IsReading : Double → Prop
  | .finite _ m => m.units ≤ Nat.pow 2 63 * unitsOfOne
  | .infinite _ | .nan => False

/-- What the outside still has in store. -/
structure Session where
  outcomes : Script Outcome
  /-- Seconds since the epoch. A clock shows times that are readings. -/
  clock : Script Double

/-- A line of the log. -/
inductive LogEntry
  | parsed (method : Method) (fullUrl : Text)
  | sending (method : Method) (url : Text)
  | received (status duration : Int)

def LogEntry.text : LogEntry → Text
  | parsed m url => "DEBUG reqline.parser.statement: Parsed reqline: " ++ m.name ++ " " ++ url
  | sending m url => "DEBUG reqline.client: Sending " ++ m.name ++ " " ++ url
  | received status duration =>
    "DEBUG reqline.client: Received " ++ integerText status ++ " in " ++ integerText duration ++
      " ms"

/-- A result together with everything done on the way to it. -/
structure Step (α : Type) where
  result : α
  calls : List Call
  log : List LogEntry
  session : Session

/-- A request and its response with their times in milliseconds. -/
structure Envelope where
  query : Json
  body : Json
  headers : Json
  fullUrl : Text
  status : Int
  start : Int
  stop : Int
  data : Json

namespace Envelope

def duration (e : Envelope) : Int := e.stop - e.start

def toJson (e : Envelope) : Json :=
  .object [
    ("request", .object [("query", e.query), ("body", e.body), ("headers", e.headers),
      ("full_url", .str e.fullUrl)]),
    ("response", .object [("http_status", .int e.status), ("duration", .int e.duration),
      ("request_start_timestamp", .int e.start), ("request_stop_timestamp", .int e.stop),
      ("response_data", e.data)])]

end Envelope

/-- A failure of the transport, with the status and the data of the response that came with it. -/
structure ExecutionError where
  message : Text
  status : Option Int
  data : Option Json

namespace ExecutionError

def code : Text := "EXECUTION_FAILED"

/-- The failure with a message; an empty message is replaced by the name of the cause. -/
def ofMessage (message : Text) (r : Option Response) : ExecutionError where
  message := if message.isEmpty then code else message
  status := r.map Response.status
  data := r.map Response.data

end ExecutionError

/-- What ends a run without an answer. -/
inductive Interruption
  /-- A raw body holds a surrogate and has no bytes. -/
  | unencodableBody
  /-- The transport broke. -/
  | broken (fault : Text)
  /-- The clock shows a time with infinitely many milliseconds. -/
  | endlessTime

/-- Why a statement has no envelope. -/
inductive Failure
  | statement (e : StatementError)
  | execution (e : ExecutionError)
  | interrupted (i : Interruption)

/-- Sends requests. -/
structure Client where
  timeout : Option Number
  /-- Whether a status from 400 to 599 is a failure. -/
  raiseForStatus : Bool

namespace Client

/-- Milliseconds of a time in seconds: the double product, its fraction cut off, unless it is not
finite. -/
def milliseconds? (seconds : Double) : Option Int :=
  let product := seconds.mul (.ofInt 1000)
  if product.isFinite then some product.truncate else none

/-- The response of an outcome, or the failure that it is. -/
def judge (c : Client) (url : Text) : Outcome → Except Failure Response
  | .response r =>
    match if c.raiseForStatus then r.complaint? url else none with
    | some message => .error (.execution (.ofMessage message (some r)))
    | none => .ok r
  | .failed message => .error (.execution (.ofMessage message none))
  | .refused message r => .error (.execution (.ofMessage message (some r)))
  | .broken fault => .error (.interrupted (.broken fault))

/-- Sends a request. The clock is read before sending and, if a response is accepted, after it. -/
def send (c : Client) (r : Request) (s : Session) : Step (Except Failure Envelope) :=
  match Call.ofRequest? c.timeout r with
  | none => ⟨.error (.interrupted .unencodableBody), [], [], s⟩
  | some call =>
    let sending := LogEntry.sending r.method r.url
    match milliseconds? s.clock.first with
    | none => ⟨.error (.interrupted .endlessTime), [], [sending], ⟨s.outcomes, s.clock.rest⟩⟩
    | some start =>
      let s₁ : Session := ⟨s.outcomes.rest, s.clock.rest⟩
      match c.judge r.url s.outcomes.first with
      | .error e => ⟨.error e, [call], [sending], s₁⟩
      | .ok response =>
        let s₂ : Session := ⟨s₁.outcomes, s₁.clock.rest⟩
        match milliseconds? s₁.clock.first with
        | none => ⟨.error (.interrupted .endlessTime), [call], [sending], s₂⟩
        | some stop =>
          let envelope : Envelope :=
            ⟨r.query, r.body, r.headers, r.fullUrl, response.status, start, stop, response.data⟩
          ⟨.ok envelope, [call], [sending, .received response.status envelope.duration], s₂⟩

/-- Parses a statement and sends its request. -/
def run (c : Client) (statement : Json) (s : Session) : Step (Except Failure Envelope) :=
  match Request.ofJson statement with
  | .error e => ⟨.error (.statement e), [], [], s⟩
  | .ok r =>
    let step := c.send r s
    { step with log := .parsed r.method r.fullUrl :: step.log }

end Client

/-- Takes steps one after the other, each in the session that the one before it left. -/
def runAll {α β : Type} (f : α → Session → Step β) : List α → Session → List (Step β)
  | [], _ => []
  | x :: r, s =>
    let step := f x s
    step :: runAll f r step.session

end RequestLine
