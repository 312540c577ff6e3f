import RequestLine.Statement.FullUrl
import RequestLine.Statement.Section
import RequestLine.Statement.Segment

/-!
# Requests

What an accepted statement describes.

* `Request.ofSections`: the request of a statement's sections.
* `Request.parse`: the request of a statement. The spacing of all segments is judged first, then
  each section in order, then the required keywords, then the query.
* `Request.ofJson`: the same for a value that may be no text.
-/

namespace RequestLine

/-- A request, ready to be sent. -/
structure Request where
  method : Method
  url : Text
  headers : Json
  query : Json
  body : Json
  fullUrl : Text

namespace Request

/-- Why sections make no request. -/
inductive BuildError
  | noSection (keyword : Keyword)
  | malformedQuery
  /-- The method is not one of the two, or the URL is no text. -/
  | illTyped
  deriving DecidableEq

/-- The method that a value names. -/
def methodOf? : Json → Option Method
  | .str t => Method.ofName? t
  | _ => none

/-- The text of a value that is one. -/
def textOf? : Json → Option Text
  | .str t => some t
  | _ => none

/-- The request of a statement's sections. A query that cannot be encoded is reported before a
method or URL of the wrong kind. -/
def ofSections (s : Sections) : Except BuildError Request :=
  match s.get? .url, s.get? .http with
  | none, _ => .error (.noSection .url)
  | _, none => .error (.noSection .http)
  | some url, some method =>
    let query := s.valueOrEmpty .query
    match fullUrl? ((textOf? url).getD []) query with
    | none => .error .malformedQuery
    | some fullUrl =>
      match methodOf? method, textOf? url with
      | some method, some url =>
        .ok ⟨method, url, s.valueOrEmpty .headers, query, s.valueOrEmpty .body, fullUrl⟩
      | _, _ => .error .illTyped

/-- The sections of a statement's text. -/
def readSections (statement : Text) : Except StatementError (List Section) := do
  (← cleanSegments (segments statement)).mapM Section.read

/-- The request of sections that have been read, so that their method and URL are right. -/
def ofReadSections (ss : List Section) : Except StatementError Request := do
  match ofSections (← Sections.ofList ss) with
  | .ok r => return r
  | .error (.noSection k) => throw (.missingKeyword k)
  | .error .malformedQuery => throw .malformedQuery
  | .error .illTyped => throw .notAStatement

/-- The request that a statement describes. -/
def parse (statement : Text) : Except StatementError Request :=
  if statement.isEmpty then .error .notAStatement
  else do ofReadSections (← readSections statement)

/-- The request that a value describes; only texts describe one. -/
def ofJson : Json → Except StatementError Request
  | .str statement => parse statement
  | _ => .error .notAStatement

def toJson (r : Request) : Json :=
  .object [("method", .str r.method.name), ("url", .str r.url), ("headers", r.headers),
    ("query", r.query), ("body", r.body), ("fullUrl", .str r.fullUrl)]

end Request

end RequestLine
