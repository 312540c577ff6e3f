import RequestLine.Statement.Error
import RequestLine.Text.Blank

/-!
# Segments

A statement is cut at its pipes. Exactly one space stands on each side of a pipe between two
sections, and none at the start of the statement.

* `pieces`: the non-empty pieces between the pipes.
* `segments`: the pieces with their places.
* `Segment.fault?`: the first spacing rule that a segment breaks.
* `Segment.clean`: the trimmed text of a segment that breaks none.
-/

namespace RequestLine

/-- The code point between sections. -/
def pipe : CodePoint := '|'

/-- A piece of a statement, its place among the pieces, and their number. -/
structure Segment where
  text : Text
  index : Int
  total : Int
  deriving DecidableEq

/-- The non-empty pieces of a statement between its pipes. -/
def pieces (statement : Text) : List Text := (statement.splitOn pipe).filter (fun p => !p.isEmpty)

/-- The pieces of a statement with their places. -/
def segments (statement : Text) : List Segment :=
  let ps := pieces statement
  ps.zipIdx.map fun p => ⟨p.1, p.2, ps.length⟩

namespace Segment

def isFirst (s : Segment) : Bool := s.index == 0

def isLast (s : Segment) : Bool := s.index == s.total - 1

/-- The fault at the start of a segment. -/
def leadingFault? (s : Segment) : Option StatementError :=
  if s.isFirst then if s.text.startsWith " " then some .pipeSpacing else none
  else if !s.text.startsWith " " then some .pipeSpacing
  else if s.text.startsWith "  " then some .doubledSpace
  else none

/-- The fault at the end of a segment; the last one may end as it likes. -/
def trailingFault? (s : Segment) : Option StatementError :=
  if s.isLast then none
  else if !s.text.endsWith " " then some .pipeSpacing
  else if s.text.endsWith "  " then some .doubledSpace
  else none

/-- The fault in the spacing of a segment, its start judged before its end. -/
def fault? (s : Segment) : Option StatementError := s.leadingFault?.or s.trailingFault?

/-- The trimmed text of a segment. -/
def clean (s : Segment) : Except StatementError Text :=
  match s.fault? with
  | some e => .error e
  | none => .ok s.text.trim

end Segment

/-- The trimmed texts of all segments, or the fault of the first that has one. -/
def cleanSegments (ss : List Segment) : Except StatementError (List Text) := ss.mapM Segment.clean

end RequestLine
