import Lectern.Language.Table
import Lectern.Text.Blank
import Lectern.Text.Lowercase

/-!
# Language tags

Decks tag slides with language codes, in any case and with blanks around them. A code is
identified by its length and by the first table that has it: two-letter codes, three-letter codes,
bibliographic codes. Codes of one language match, and codes that no table has match themselves in
any case.
-/

namespace Lectern.Language

/-- The tables that a code may come from. -/
inductive CodeSystem where
  | part1
  | part2T
  | part2B
  deriving DecidableEq

/-- Why a code has no answer. -/
inductive CodeError where
  | invalid (code : Text)
  | cannotNormalize (code : Text)
  | unknownLanguage (part3 : Text)
  deriving DecidableEq

/-- The wording of an error. -/
def CodeError.message : CodeError → Text
  | .invalid code => "Invalid language code: " ++ code
  | .cannotNormalize code => "Cannot normalize invalid language code: " ++ code
  | .unknownLanguage part3 => "Failed to get language from code: " ++ part3

section

variable [Registry]

/-- The table that has a code, and the three-letter code of its language. -/
def identify? (code : Text) : Option (CodeSystem × Text) :=
  let key := Text.lowercase (Text.trim code)
  if Text.byteLength key = 2 then (Registry.part3? key).map fun part3 => (.part1, part3)
  else if Text.byteLength key = 3 then
    if (Registry.name? key).isSome then some (.part2T, key)
    else (bibliographic.lookup key).map fun part3 => (.part2B, part3)
  else none

/-- The table that has a code. -/
def codeSystem (code : Text) : Except CodeError CodeSystem :=
  match identify? code with
  | some (system, _) => .ok system
  | none => .error (.invalid code)

/-- Slides are to be tagged with two-letter codes. -/
def isSlideCode (code : Text) : Bool := (identify? code).map Prod.fst = some .part1

/-- The three-letter code of the language of a code. -/
def normalize (code : Text) : Except CodeError Text :=
  match identify? code with
  | some (_, part3) => .ok part3
  | none => .error (.cannotNormalize code)

/-- The English name of the language of a code. -/
def englishName (code : Text) : Except CodeError Text :=
  match normalize code with
  | .error error => .error error
  | .ok part3 =>
    match Registry.name? part3 with
    | some name => .ok name
    | none => .error (.unknownLanguage part3)

/-- Whether two codes stand for the same language. -/
def codesMatch (a b : Text) : Bool :=
  Text.equalIgnoringCase (Text.trim a) (Text.trim b)
    || match identify? a, identify? b with
      | some (_, x), some (_, y) => x = y
      | _, _ => false

/-- The tag that a request means: the request itself if it is a tag, else the first tag that
matches it. -/
def resolve? (requested : Text) (tags : List Text) : Option Text :=
  match tags.find? (· = requested) with
  | some tag => some tag
  | none => tags.find? (codesMatch · requested)

end

end Lectern.Language
