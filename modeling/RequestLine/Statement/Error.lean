import RequestLine.Statement.Keyword

/-!
# Statement errors

The causes for which a statement is rejected.

* `StatementError`: one constructor for each cause.
* `StatementError.code`: the name by which a caller branches on the cause.
* `StatementError.message`: the text for people.
-/

namespace RequestLine

/-- Why a statement is rejected. -/
inductive StatementError
  /-- The statement is empty, or no text at all. -/
  | notAStatement
  /-- A space next to a pipe is missing, or one stands before the first section. -/
  | pipeSpacing
  /-- Two spaces stand where one belongs. -/
  | doubledSpace
  /-- No space separates a keyword from its value. -/
  | missingSpace
  | keywordCase
  /-- A section starts with a word that is no keyword. -/
  | unknownKeyword (word : Text)
  | methodCase
  | unsupportedMethod
  | malformedJson (keyword : Keyword)
  | missingKeyword (keyword : Keyword)
  /-- A key or an item of the query cannot be percent-encoded. -/
  | malformedQuery
  deriving DecidableEq

namespace StatementError

def code : StatementError → Text
  | notAStatement => "INVALID_STATEMENT"
  | pipeSpacing => "INVALID_PIPE_DEL_SPACING"
  | doubledSpace => "MULTIPLE_SPACES_FOUND"
  | missingSpace => "MISSING_SPACE_AFTER_KEYWORD"
  | keywordCase => "KEYWORDS_MUST_BE_UPPERCASE"
  | unknownKeyword _ => "UNKNOWN_KEYWORD"
  | methodCase => "METHOD_MUST_BE_UPPERCASE"
  | unsupportedMethod => "INVALID_HTTP_METHOD"
  | malformedJson _ => "INVALID_JSON"
  | missingKeyword k => "MISSING_" ++ k.name
  | malformedQuery => "MALFORMED_QUERY"

def message : StatementError → Text
  | notAStatement => "Invalid reqline statement"
  | pipeSpacing => "Invalid spacing around pipe delimiter"
  | doubledSpace => "Multiple spaces found where single space expected"
  | missingSpace => "Missing space after keyword"
  | keywordCase => "Keywords must be uppercase"
  | unknownKeyword word => "Unknown keyword: " ++ word
  | methodCase => "HTTP method must be uppercase"
  | unsupportedMethod => "Invalid HTTP method. Only GET and POST are supported"
  | malformedJson k => "Invalid JSON format in " ++ k.name ++ " section"
  | missingKeyword k => "Missing required " ++ k.name ++ " keyword"
  | malformedQuery => "URI malformed"

end StatementError

end RequestLine
