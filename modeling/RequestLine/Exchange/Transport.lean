import RequestLine.Exchange.Script
import RequestLine.Json.Reader
import RequestLine.Statement.Request

/-!
# Transport

What is handed to the transport, and what comes back.

* `Call`: one request as it is sent. The query is no part of it: only the plain URL is sent.
* `Call.ofRequest?`: the call that sends a request.
* `Outcome`: a response, or one of three ways to fail.
* `Response.data`: the JSON value of a body, or its text.
-/

namespace RequestLine

/-- What a call carries beside its headers. -/
inductive Payload
  | none
  /-- The UTF-8 bytes of a text. -/
  | raw (bytes : List UInt8)
  /-- A JSON value. -/
  | json (value : Json)

/-- A request as it is sent. -/
structure Call where
  method : Method
  url : Text
  headers : List (Text × Text)
  /-- Seconds; without a timeout the transport waits for ever. -/
  timeout : Option Number
  payload : Payload

namespace Call

/-- The headers that a value gives: one for each member of an object, none for other values. -/
def headersOf : Json → List (Text × Text)
  | .obj members => members.map fun m => (m.1, m.2.plainText)
  | _ => []

/-- The payload of a request. Only a POST whose body has keys carries one, raw if the body is a
text; a text with a surrogate has no bytes. -/
def payload? (r : Request) : Option Payload :=
  match r.method with
  | .get => some .none
  | .post =>
    if r.body.keys.isEmpty then some .none
    else
      match r.body with
      | .str t => (Utf8.encode? t).map .raw
      | v => some (.json v)

/-- The call that sends a request, unless its body has no bytes. -/
def ofRequest? (timeout : Option Number) (r : Request) : Option Call :=
  (payload? r).map fun p => ⟨r.method, r.url, headersOf r.headers, timeout, p⟩

end Call

/-- What comes back. The bytes of the body are decoded once: its JSON value and its text are read
from the same code points. -/
structure Response where
  status : Int
  reason : Text
  body : Text
  /-- Where the response came from if a URL was asked for: a transport may complete a URL, and follow
  it to another one. -/
  origin : Text → Text

namespace Response

/-- The JSON value of the body, constants allowed; the text of a body that is no JSON text. -/
def data (r : Response) : Json := (Json.parse? .withConstants r.body).getD (.str r.body)

/-- The complaint about a status from 400 to 599. It names the URL that the response came from. -/
def complaint? (r : Response) (url : Text) : Option Text :=
  let side : Option Text :=
    if 400 ≤ r.status ∧ r.status < 500 then some "Client"
    else if 500 ≤ r.status ∧ r.status < 600 then some "Server"
    else none
  side.map fun s =>
    integerText r.status ++ " " ++ s ++ " Error: " ++ r.reason ++ " for url: " ++ r.origin url

end Response

/-- What the transport does with a call. -/
inductive Outcome
  | response (r : Response)
  | failed (message : Text)
  | refused (message : Text) (r : Response)
  /-- Something other than the request failed. -/
  | broken (fault : Text)

end RequestLine
