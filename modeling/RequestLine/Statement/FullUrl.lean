import RequestLine.Json.Entries
import RequestLine.Json.PlainText
import RequestLine.Text.Percent

/-!
# Full URLs

The URL of a request together with its query.

* `queryPairs`: the keys of a query with the plain texts of their items.
* `queryText?`: the pairs percent-encoded as `key=text`, joined with `&`.
* `fullUrl?`: the URL, a question mark and the query text; the URL alone if the query has no keys.
-/

namespace RequestLine

/-- The keys of a query with the plain texts of their items. -/
def queryPairs (query : Json) : List (Text × Text) :=
  query.entries.map fun e => (e.1, e.2.plainText)

/-- A key and a text in percent encoding. -/
def encodePair? (p : Text × Text) : Option Text := do
  let key ← Percent.encode? p.1
  let text ← Percent.encode? p.2
  some (key ++ "=" ++ text)

/-- The text of a query, unless a pair cannot be percent-encoded. -/
def queryText? (query : Json) : Option Text :=
  ((queryPairs query).mapM encodePair?).map (Text.joinWith "&")

/-- The URL with its query, unless the query cannot be percent-encoded. -/
def fullUrl? (url : Text) (query : Json) : Option Text :=
  if query.entries.isEmpty then some url
  else (queryText? query).map fun t => url ++ "?" ++ t

end RequestLine
