import RequestLine.Statement.Request

/-!
# Verdicts

What reading a statement comes to, for callers who look into a result and handle no failures.

* `Verdict.ofJson`: the verdict on a value.
-/

namespace RequestLine

/-- The request that a statement describes, or the code and the message of its error. -/
structure Verdict where
  request : Option Request
  code : Option Text
  message : Option Text

namespace Verdict

/-- Whether there is a request. -/
def accepted (v : Verdict) : Bool := v.request.isSome

def ofJson (statement : Json) : Verdict :=
  match Request.ofJson statement with
  | .ok r => ⟨some r, none, none⟩
  | .error e => ⟨none, some e.code, some e.message⟩

end Verdict

end RequestLine
