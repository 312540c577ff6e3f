import RequestLine.Exchange.Client

/-!
# Answers

The inbound boundary: a payload comes in, and an answer with a status and data goes out.

* `Client.answer`: the answer to a payload. Statements that are missing or rejected and requests
  that fail are bad requests; a response makes an answer that carries its envelope.
-/

namespace RequestLine

inductive Answer
  | created (e : Envelope)
  | badRequest (message : Text)

namespace Answer

def status : Answer → Nat
  | created _ => 201
  | badRequest _ => 400

/-- Whether the payload was carried out. -/
def succeeded (a : Answer) : Bool := a.status == 201

def data : Answer → Json
  | created e => e.toJson
  | badRequest message => .object [("error", .bool true), ("message", .str message)]

end Answer

/-- Whether a value counts as no statement at all; empty arrays and objects do here. -/
def isMissing : Json → Bool
  | .arr items => items.isEmpty
  | .obj members => members.isEmpty
  | v => v.isEmptyValue

namespace Client

/-- The answer to a payload, unless it is interrupted. -/
def answer (c : Client) (payload : Dictionary Text Json) (s : Session) :
    Step (Except Interruption Answer) :=
  let statement := (payload.get? "reqline").getD .null
  if isMissing statement then ⟨.ok (.badRequest "Missing reqline parameter"), [], [], s⟩
  else
    let step := c.run statement s
    { step with
      result := match step.result with
        | .ok e => .ok (.created e)
        | .error (.statement e) => .ok (.badRequest e.message)
        | .error (.execution e) => .ok (.badRequest e.message)
        | .error (.interrupted i) => .error i }

end Client

end RequestLine
