import Lectern.Deck.Remark
import Lectern.Text.Digit

/-!
# Lines of slide content

A content line opens a column, stands for a button, code or an image, is a bullet, or is plain.
The marks of the first four are looked for in this order; a bullet has a dash in front, or a
bracketed remark with a dash behind it anywhere in the line.
-/

namespace Lectern

/-- What a line of slide content is. -/
inductive BodyLine where
  | column (width : Option Nat)
  | button
  | code
  | image (source : Option Text)
  | bullet (text : Text)
  | plain
  deriving DecidableEq

namespace BodyLine

/-- What follows an equals sign and the blanks around it. -/
def afterEquals? (text : Text) : Option Text :=
  match Text.trimStart text with
  | '=' :: after => some (Text.trimStart after)
  | _ => none

/-- Whether the line opens a column. -/
def isColumnMarker (line : Text) : Bool :=
  let start := Text.trimStart line
  List.isPrefixOf ("### column" : Text) start || List.isPrefixOf ("### Column" : Text) start

/-- The digits of a `width=` that the text starts with, in any case. -/
def widthDigits? (text : Text) : Option Text := do
  let value ← afterEquals? (← Text.dropCaseless "width" text)
  let digits := value.takeWhile Text.isDecimalDigit
  if digits = [] then none else some digits

/-- Declared widths stay below this bound; a larger number declares none. -/
def widthBound : Nat := UInt64.size

/-- The width that a column marker declares. -/
def columnWidth? (line : Text) : Option Nat :=
  if isColumnMarker line then
    (Text.firstMatch widthDigits? line).bind (Text.parseBelow widthBound)
  else none

/-- Whether the character opens or closes a quoted path. -/
def isQuote (c : Char) : Bool := c == '"' || c == '\''

/-- The path of a `source="..."` that the text starts with; either quote closes it. -/
def sourceValue? (text : Text) : Option Text := do
  match ← afterEquals? (← List.isPrefixOf? ("source" : Text) text) with
  | opening :: rest =>
    let path := rest.takeWhile fun c => !isQuote c && c != '\n'
    match rest.dropWhile fun c => !isQuote c && c != '\n' with
    | closing :: _ => if isQuote opening && isQuote closing then some path else none
    | [] => none
  | [] => none

/-- The image path of a line. -/
def imageSource? (line : Text) : Option Text := Text.firstMatch sourceValue? line

/-- Whether a remark with a dash stands somewhere in the line. -/
def hasRemarkBullet (line : Text) : Bool := (Text.firstMatch Remark.afterDash? line).isSome

/-- The bullet text of a line; `none` for a line that is no bullet. -/
def bulletText? (line : Text) : Option Text :=
  let start := Text.trimStart line
  if hasRemarkBullet line then some (Text.trim (Remark.stripDashed start))
  else
    match start with
    | '-' :: rest => some (Text.trim rest)
    | _ => none

/-- What a line of slide content is. -/
def classify (line : Text) : BodyLine :=
  let isMarker := List.isPrefixOf ("###" : Text) (Text.trimStart line)
  if isColumnMarker line then .column (columnWidth? line)
  else if isMarker && Text.mentions "Button" line then .button
  else if isMarker && Text.mentions "Code" line then .code
  else if isMarker && Text.mentions "Image" line then .image (imageSource? line)
  else
    match bulletText? line with
    | some text => .bullet text
    | none => .plain

end BodyLine
end Lectern
