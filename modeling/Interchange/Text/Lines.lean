/-!
# Lines of a text

A line ends at a line feed, and a carriage return right before the line feed belongs to the
line end. What follows the last line feed is a line only if it is not empty.
-/
namespace Interchange.Text

/-- A reversed line without the carriage return of its line end. -/
def dropReturn : List Char → List Char
  | '\r' :: rest => rest
  | line => line

/-- The lines of a text whose first line continues the given reversed one. -/
def linesFrom (current : List Char) : List Char → List (List Char)
  | [] => if current.isEmpty then [] else [current.reverse]
  | c :: rest =>
    if c = '\n' then (dropReturn current).reverse :: linesFrom [] rest
    else linesFrom (c :: current) rest

/-- The lines of a text in order, without their line ends. -/
def lines (text : List Char) : List (List Char) := linesFrom [] text

end Interchange.Text
