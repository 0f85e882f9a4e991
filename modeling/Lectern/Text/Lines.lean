import Lectern.Text.Basic

/-!
# Lines

A line ends at a line feed, or at a carriage return with a line feed behind it; the last line
may end with the text. A text that ends with a line feed has no empty last line, and a carriage
return that no line feed follows belongs to its line.
-/

namespace Lectern.Text

/-- The lines of a text, without their ends. -/
def lines : Text → List Text
  | [] => []
  | '\n' :: rest => [] :: lines rest
  | '\r' :: '\n' :: rest => [] :: lines rest
  | c :: rest =>
    match lines rest with
    | [] => [[c]]
    | line :: more => (c :: line) :: more

end Lectern.Text
