import ClassNaming.Text.Occurrence

/-!
# Lines and columns

A line ends with a line feed, before which one carriage return is dropped.  What follows the last
line feed is a line of its own if it is not empty, and keeps a carriage return at its end.  Columns
are separated by tabs.

## Main Definitions

* `lines` - the lines of a text
* `withoutReturns` - a line without the carriage returns at its end
* `columns` - the tab-separated columns of a line
-/

namespace ClassNaming.Text

/-- A line that a line feed ended, without the carriage return directly before it. -/
def endedLine (line : List Char) : List Char :=
  match line.reverse with
  | '\r' :: rest => rest.reverse
  | _ => line

/-- The lines among the pieces between line feeds: all pieces but the last were ended by one. -/
def linesOfPieces : List (List Char) → List (List Char)
  | [] => []
  | [last] => if last.isEmpty then [] else [last]
  | piece :: more => endedLine piece :: linesOfPieces more

/-- The lines of a text. -/
def lines (text : String) : List String :=
  (linesOfPieces (splitAtEach '\n' text.toList)).map String.ofList

/-- A line without any carriage return at its end. -/
def withoutReturns (line : String) : String :=
  String.ofList ((line.toList.reverse.dropWhile (· == '\r')).reverse)

/-- The columns of a line, separated by tabs: at least one. -/
def columns (line : String) : List String :=
  (splitAtEach '\t' line.toList).map String.ofList

end ClassNaming.Text
