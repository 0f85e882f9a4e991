import Lectern.Deck.Params
import Lectern.Text.Word

/-!
# Element headers

The line that opens an element: two number signs, a type word, and perhaps a parameter list that
ends the line. Blanks may stand around each part.
-/

namespace Lectern

/-- The type word of an element header and the text of its parameter list. -/
structure ElementHeader where
  typeName : Text
  list : Text
  deriving DecidableEq

namespace ElementHeader

/-- The parameter list behind a type word: nothing, or all between the first parenthesis and one
that ends the text. -/
def list? (afterName : Text) : Option Text :=
  match Text.trimStart afterName with
  | [] => some []
  | '(' :: inner =>
    if inner.getLast? = some ')' ∧ '\n' ∉ inner then some inner.dropLast else none
  | _ => none

/-- Reads an element header. -/
def ofLine? (line : Text) : Option ElementHeader :=
  match Text.trim line with
  | '#' :: '#' :: rest =>
    let named := Text.trimStart rest
    let typeName := named.takeWhile Text.isWordChar
    if typeName = [] then none
    else (list? (named.dropWhile Text.isWordChar)).map fun list => ⟨typeName, list⟩
  | _ => none

/-- The parameters of the header. -/
def params (header : ElementHeader) : Params := .ofText header.list

end ElementHeader
end Lectern
