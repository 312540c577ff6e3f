/-!
# Errors in YAML texts

* `Yaml.Fault`: what is wrong with a document whose form is right.
* `Yaml.Error`: why a text holds no data.
-/

namespace RequestLine.Yaml

/-- What is wrong with a document whose form is right. -/
inductive Fault
  /-- A scalar is no number, date or character of its kind. -/
  | invalidScalar
  /-- An escape goes past thirty-one bits, or a double has too many parts to the base sixty. -/
  | outOfRange
  | tooManyDigits
  /-- A scalar with the tag of booleans is no spelling of one. -/
  | unknownBoolean
  /-- A scalar with the tag of numbers has no digits at all. -/
  | missingNumber
  /-- A scalar with the tag of timestamps has not their form. -/
  | notATimestamp
  | timestampMapping
  /-- A mapping stands for the value of its key `=`, and that value for the mapping. -/
  | endlessDefault
  deriving DecidableEq

/-- Why a text holds no data. -/
inductive Error
  /-- The text is no YAML document, or one with tags that are not known. -/
  | malformed
  | fault (f : Fault)
  deriving DecidableEq

end RequestLine.Yaml
