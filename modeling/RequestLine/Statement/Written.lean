import RequestLine.Json.Printer
import RequestLine.Statement.Request

/-!
# Written requests

A request as a statement with one section for each keyword, in the order of `Keyword.all`. JSON
values are compact and in ASCII, and a pipe in a string is escaped, so that the only pipes are those
between the sections.

* `Request.written`: the statement of a request.
* `joinSections`: sections with a pipe and its two spaces between each two.
-/

namespace RequestLine

/-- The sections of a statement with the pipes between them. -/
def joinSections (sections : List Text) : Text := Text.joinWith " | " sections

/-- The text of a section. -/
def sectionText (k : Keyword) (value : Text) : Text := k.name ++ " " ++ value

namespace Json

/-- A code point in a string of a statement. -/
def Escape.inStatement (c : CodePoint) : Text :=
  if c = pipe then Escape.numeric c else Escape.ascii c

/-- The text of a value in a statement. -/
def statementText (v : Json) : Text := v.compact Escape.inStatement

end Json

namespace Request

/-- The text of the value that a request has for a keyword. -/
def valueText (r : Request) : Keyword → Text
  | .http => r.method.name
  | .url => r.url
  | .headers => r.headers.statementText
  | .query => r.query.statementText
  | .body => r.body.statementText

/-- The statement that describes a request. -/
def written (r : Request) : Text :=
  joinSections (Keyword.all.map fun k => sectionText k (r.valueText k))

end Request

end RequestLine
