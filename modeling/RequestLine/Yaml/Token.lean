import RequestLine.Text.Basic
import RequestLine.Yaml.Error

/-!
# YAML tokens

* `Token`: the marks, names and scalars of a document. Indentation has become tokens of its own, and
  so has a place where the text goes on without a token.
* `Directive`: what a line that starts with a percent sign says.
-/

namespace RequestLine.Yaml

/-- A line before a document. -/
inductive Directive
  | version (major minor : Nat)
  | tag (handle start : Text)
  | other

inductive Token
  | directive (d : Directive)
  | documentStart
  | documentEnd
  | blockSequenceStart
  | blockMappingStart
  | blockEnd
  | flowSequenceStart
  | flowSequenceEnd
  | flowMappingStart
  | flowMappingEnd
  | blockEntry
  | flowEntry
  | key
  | value
  | alias (name : Text)
  | anchor (name : Text)
  | tag (handle : Option Text) (suffix : Text)
  | scalar (text : Text) (plain : Bool)
  | unreadable (e : Error)

end RequestLine.Yaml
