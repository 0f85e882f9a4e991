import Lectern.Number.Shortest
import Lectern.Text.Quoted

/-!
# Problems in value texts

Why reading a value tree from text stops. A text may end too early, break the form, or have the
right form and the wrong content; the first problem in the text is the one reported.
-/

namespace Lectern.Json

/-- What stands where something else is expected. -/
inductive Found where
  | null
  | bool (value : Bool)
  | integer (negative : Bool) (magnitude : Nat)
  | float (negative : Bool) (magnitude : Rat)
  | text (value : Text)
  | list
  | object
  deriving DecidableEq

/-- The wording for what stands there. -/
def Found.describe : Found → Text
  | .null => "null"
  | .bool value => "boolean `" ++ (if value then "true" else "false") ++ "`"
  | .integer negative magnitude =>
    "integer `" ++ (if negative then "-" else "") ++ Text.ofNat magnitude ++ "`"
  | .float negative magnitude =>
    "floating point `" ++ (if negative then "-" else "") ++ Shortest.write magnitude ++ "`"
  | .text value => "string " ++ Text.quoted value
  | .list => "sequence"
  | .object => "map"

/-- Why reading stops. -/
inductive Cause where
  | endInList
  | endInObject
  | endInText
  | endInValue
  | expectedColon
  | expectedListComma
  | expectedObjectComma
  | expectedWord
  | expectedValue
  | badEscape
  | badNumber
  | numberTooLarge
  | controlCharacter
  | keyNotText
  | loneSurrogate
  | unfinishedPair
  | trailingComma
  | trailingCharacters
  | invalidType (found : Found) (expected : Text)
  | unknownVariant (name : Text) (expected : List Text)
  | duplicateField (name : Text)
  deriving DecidableEq

/-- Whether the text ends early, is malformed, or has the wrong content. -/
inductive Category where
  | earlyEnd
  | malformed
  | content
  deriving DecidableEq

/-- The category of a cause. -/
def Cause.category : Cause → Category
  | .endInList | .endInObject | .endInText | .endInValue => .earlyEnd
  | .invalidType .. | .unknownVariant .. | .duplicateField .. => .content
  | _ => .malformed

/-- The wording of a cause. -/
def Cause.message : Cause → Text
  | .endInList => "EOF while parsing a list"
  | .endInObject => "EOF while parsing an object"
  | .endInText => "EOF while parsing a string"
  | .endInValue => "EOF while parsing a value"
  | .expectedColon => "expected `:`"
  | .expectedListComma => "expected `,` or `]`"
  | .expectedObjectComma => "expected `,` or `\x7d`"
  | .expectedWord => "expected ident"
  | .expectedValue => "expected value"
  | .badEscape => "invalid escape"
  | .badNumber => "invalid number"
  | .numberTooLarge => "number out of range"
  | .controlCharacter => "control character (\\u0000-\\u001F) found while parsing a string"
  | .keyNotText => "key must be a string"
  | .loneSurrogate => "lone leading surrogate in hex escape"
  | .unfinishedPair => "unexpected end of hex escape"
  | .trailingComma => "trailing comma"
  | .trailingCharacters => "trailing characters"
  | .invalidType found expected => "invalid type: " ++ found.describe ++ ", expected " ++ expected
  | .unknownVariant name expected =>
    "unknown variant `" ++ name ++ "`, expected one of "
      ++ (", " : Text).intercalate (expected.map fun known => "`" ++ known ++ "`")
  | .duplicateField name => "duplicate field `" ++ name ++ "`"

/-- A cause and what was not yet read when it was noticed. A problem may be noticed at bytes that
were only looked at; so many bytes of what is unread count as read. -/
structure Problem where
  cause : Cause
  unread : Text
  ahead : Nat
  deriving DecidableEq

/-- The byte that ends a line. -/
def lineFeed : UInt8 := 10

/-- The line that a run of bytes leads to, counted from one, and the number of bytes on it. -/
def lineAndColumn (read : List UInt8) : Nat × Nat :=
  (1 + read.count lineFeed, (read.reverse.takeWhile (· ≠ lineFeed)).length)

/-- The line of a problem and the number of bytes read on it. -/
def Problem.position (problem : Problem) (source : Text) : Nat × Nat :=
  let behind := Text.byteLength problem.unread - problem.ahead
  lineAndColumn ((Text.utf8 source).take (Text.byteLength source - behind))

/-- The wording of a problem, with its place in the source. -/
def Problem.message (problem : Problem) (source : Text) : Text :=
  let (line, column) := problem.position source
  problem.cause.message ++ " at line " ++ Text.ofNat line ++ " column " ++ Text.ofNat column

end Lectern.Json
