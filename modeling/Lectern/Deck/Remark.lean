import Lectern.Text.Blank
import Lectern.Text.Replace
import Lectern.Text.Word

/-!
# Bracketed remarks

A remark such as `[!note]` or `[!speaker:anna]` speaks to the author's tools and never reaches a
slide. A remark with a dash behind it makes its line a bullet.
-/

namespace Lectern.Remark

/-- The characters inside a remark. -/
def isRemarkChar (c : Char) : Bool := Text.isWordChar c || c == ':' || c == ',' || c == '-'

/-- What follows a remark that the text starts with. -/
def after? : Text → Option Text
  | '[' :: '!' :: rest =>
    if rest.takeWhile isRemarkChar = [] then none
    else
      match rest.dropWhile isRemarkChar with
      | ']' :: after => some after
      | _ => none
  | _ => none

/-- What follows a remark with a dash behind it. -/
def afterDash? (text : Text) : Option Text :=
  match (after? text).map Text.trimStart with
  | some ('-' :: after) => some after
  | _ => none

/-- The text without its remarks. -/
def strip (text : Text) : Text := Text.replace (fun rest => (after? rest).map ([], ·)) text

/-- The text without its remarks that have a dash behind them, the dashes included. -/
def stripDashed (text : Text) : Text :=
  Text.replace (fun rest => (afterDash? rest).map ([], ·)) text

end Lectern.Remark
