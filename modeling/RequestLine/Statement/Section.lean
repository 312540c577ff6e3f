import RequestLine.Json.Reader
import RequestLine.Statement.Error
import RequestLine.Text.UpperCase

/-!
# Sections

A section is a keyword, one space, and a value: a method after `HTTP`, any text after `URL`, a JSON
text after the others. The first rule that a section breaks is the one reported.

* `Section.read`: the section of a trimmed text.
-/

namespace RequestLine

/-- A keyword with its value. Methods and URLs are texts. -/
structure Section where
  keyword : Keyword
  value : Json

namespace Section

/-- The keyword of a word. A word that only its case keeps from being one is told apart. -/
def readKeyword (word : Text) : Except StatementError Keyword :=
  match Keyword.ofName? word with
  | some k => .ok k
  | none =>
    if (Keyword.ofName? word.upperCase).isSome then .error .keywordCase
    else .error (.unknownKeyword word)

def checkMethod (word : Text) : Except StatementError Unit :=
  if (Method.ofName? word).isSome then .ok ()
  else if (Method.ofName? word.upperCase).isSome then .error .methodCase
  else .error .unsupportedMethod

/-- The value that a text has after a keyword. -/
def readValue (k : Keyword) (t : Text) : Except StatementError Json :=
  match k with
  | .http =>
    match checkMethod t with
    | .ok () => .ok (.str t)
    | .error e => .error e
  | .url => .ok (.str t)
  | .headers | .query | .body =>
    match Json.parse? .strict t with
    | some v => .ok v
    | none => .error (.malformedJson k)

/-- The section that a trimmed text writes. -/
def read (t : Text) : Except StatementError Section := do
  let word := t.takeWhile (· ≠ CodePoint.ofChar ' ')
  match t.drop word.length with
  | [] => throw .missingSpace
  | _ :: value =>
    let k ← readKeyword word
    if Text.startsWith value " " then throw .doubledSpace
    return ⟨k, ← readValue k value⟩

end Section

/-- The sections of a statement by keyword, in the order in which the keywords first came. -/
abbrev Sections := Dictionary Keyword Json

namespace Sections

/-- The values of some sections; the last section of a keyword counts. -/
def collect (ss : List Section) : Sections :=
  Dictionary.ofPairs (ss.map fun s => (s.keyword, s.value))

/-- The values of some sections among which the required keywords are. -/
def ofList (ss : List Section) : Except StatementError Sections :=
  let all := collect ss
  match Keyword.required.find? (fun k => (all.get? k).isNone) with
  | some k => .error (.missingKeyword k)
  | none => .ok all

/-- The value of an optional keyword: the empty object where there is none, or only an empty
scalar. -/
def valueOrEmpty (s : Sections) (k : Keyword) : Json :=
  match s.get? k with
  | some v => if v.isEmptyValue then .obj [] else v
  | none => .obj []

end Sections

end RequestLine
