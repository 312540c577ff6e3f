import RequestLine.Text.Basic

/-!
# Keywords and methods

* `Keyword`: the five words that start a section, two of them required in every statement.
* `Method`: the two request methods.
* `ofName?_name`, `eq_name_of_ofName?`: a name and its word determine each other.
-/

namespace RequestLine

/-- The word that starts a section. -/
inductive Keyword
  | http
  | url
  | headers
  | query
  | body
  deriving DecidableEq

namespace Keyword

def all : List Keyword := [.http, .url, .headers, .query, .body]

/-- The keywords that every statement has. -/
def required : List Keyword := [.http, .url]

def name : Keyword → Text
  | .http => "HTTP"
  | .url => "URL"
  | .headers => "HEADERS"
  | .query => "QUERY"
  | .body => "BODY"

def ofName? (t : Text) : Option Keyword := all.find? (fun k => k.name = t)

theorem ofName?_name (k : Keyword) : ofName? k.name = some k := by
  cases k <;> decide

theorem eq_name_of_ofName? {t : Text} {k : Keyword} (h : ofName? t = some k) : t = k.name := by
  have h₁ := List.find?_some (l := all) h
  exact (of_decide_eq_true h₁).symm

end Keyword

/-- A request method. -/
inductive Method
  | get
  | post
  deriving DecidableEq

namespace Method

def all : List Method := [.get, .post]

def name : Method → Text
  | .get => "GET"
  | .post => "POST"

def ofName? (t : Text) : Option Method := all.find? (fun m => m.name = t)

theorem ofName?_name (m : Method) : ofName? m.name = some m := by
  cases m <;> decide

theorem eq_name_of_ofName? {t : Text} {m : Method} (h : ofName? t = some m) : t = m.name := by
  have h₁ := List.find?_some (l := all) h
  exact (of_decide_eq_true h₁).symm

end Method

end RequestLine
