/-!
# Lines

A line ends with a newline, or with a carriage return and a newline; neither belongs to the line. A
carriage return that no newline follows does. A text that ends with a newline has no further line.
-/
namespace SessionHost.Text

/-- A finished line, given in reverse, without the carriage return before its newline. -/
def finishLine : List Char → String
  | '\r' :: line => String.ofList line.reverse
  | line => String.ofList line.reverse

/-- Reads on with the line `line` begun and the lines `done` behind it, both kept in reverse. -/
def linesFrom (done : List String) (line : List Char) : List Char → List String
  | [] => (if line.isEmpty then done else String.ofList line.reverse :: done).reverse
  | '\n' :: rest => linesFrom (finishLine line :: done) [] rest
  | c :: rest => linesFrom done (c :: line) rest

def lines (s : String) : List String := linesFrom [] [] s.toList

/-- The text `s` without the carriage returns and newlines at its end. -/
def dropLineEnd (s : String) : String :=
  String.ofList ((s.toList.reverse.dropWhile fun c => c == '\r' || c == '\n').reverse)

end SessionHost.Text
