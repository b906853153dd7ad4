/-!
# Lines of a text

A line ends before a line feed, or before the carriage return that stands right in front of
it, or at the end of the text. Nothing follows the last line feed of a text that ends with
one.
-/

namespace Attest.Text

/-- The lines of a text; `current` is the line so far, last character first. -/
def linesFrom (current : List Char) : List Char → List String
  | [] => if current.isEmpty then [] else [String.ofList current.reverse]
  | '\n' :: rest => String.ofList (withoutReturn current).reverse :: linesFrom [] rest
  | c :: rest => linesFrom (c :: current) rest
where
  /-- Drops a carriage return at the end of a line. -/
  withoutReturn : List Char → List Char
    | '\r' :: line => line
    | line => line

/-- The lines of a text. -/
def lines (text : String) : List String := linesFrom [] text.toList

end Attest.Text
