import RequestLine.Text.Quoted

/-!
# Usage errors

* `UsageError`: what is wrong with a command line.
* `UsageError.message`: the text for people.
-/

namespace RequestLine.CommandLine

/-- What is wrong with a command line. -/
inductive UsageError
  | missingCommand
  | noSuchCommand (name : Text) (similar : List Text)
  | noSuchOption (name : Text) (similar : List Text)
  | needsValue (option : Text)
  | takesNoValue (option : Text)
  | missingArgument (name : Text)
  | unexpectedArguments (arguments : List Text)
  | notAFloat (option value : Text)
  | notABoolean (option value : Text) (spellings : List Text)
  | notAChoice (option value : Text) (choices : List Text)
  | noSuchPath (option path : Text)
  /-- A statement and a file were given, or neither. -/
  | statementOrFile
  deriving DecidableEq

namespace UsageError

def invalidValue (option : Text) : Text := "Invalid value for " ++ option ++ ": "

/-- Names in quotes with commas between them. -/
def listed (names : List Text) : Text := Text.joinWith ", " (names.map Text.quoted)

/-- The hint at names that may have been meant. -/
def hint : List Text → Text
  | [] => []
  | [x] => " Did you mean " ++ x.quoted ++ "?"
  | xs => " (Did you mean one of: " ++ listed xs ++ "?)"

/-- The message of an error. Options whose value is wrong come with their quotes. -/
def message : UsageError → Text
  | missingCommand => "Missing command."
  | noSuchCommand name similar => "No such command " ++ name.quoted ++ "." ++ hint similar
  | noSuchOption name similar => "No such option " ++ name.quoted ++ "." ++ hint similar
  | needsValue option => "Option " ++ option.quoted ++ " requires an argument."
  | takesNoValue option => "Option " ++ option.quoted ++ " does not take a value."
  | missingArgument name => "Missing argument " ++ name.quoted ++ "."
  | unexpectedArguments arguments =>
    (if arguments.length = 1 then Text.ofString "Got unexpected extra argument ("
      else Text.ofString "Got unexpected extra arguments (") ++
      Text.joinWith " " arguments ++ ")"
  | notAFloat option value => invalidValue option ++ value.quoted ++ " is not a valid float."
  | notABoolean option value spellings =>
    invalidValue option ++ value.quoted ++ " is not a valid boolean. Recognized values: " ++
      Text.joinWith ", " spellings
  | notAChoice option value choices =>
    invalidValue option ++ value.quoted ++ " is not one of " ++ listed choices ++ "."
  | noSuchPath option path => invalidValue option ++ "Path " ++ path.quoted ++ " does not exist."
  | statementOrFile => "Provide either STATEMENT or --file, not both."

end UsageError

end RequestLine.CommandLine
