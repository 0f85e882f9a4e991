import Lectern.OrderedMap
import Lectern.Text.Blank

/-!
# Element parameters

The list in the parentheses of `## Slide(title="Intro", lang="EN")`. Commas cut it into tokens,
quoted or not, and a token binds a key where it has an equals sign. Tokens without one bind
nothing; those that are not blank are worth a notice.
-/

namespace Lectern

/-- The parameters of an element, by key. -/
abbrev Params := OrderedMap Text Text

namespace Params

/-- The text without one double quote in front and one behind, each on its own. -/
def stripQuotes (text : Text) : Text :=
  let opened := match text with
    | '"' :: rest => rest
    | _ => text
  if opened.getLast? = some '"' then opened.dropLast else opened

/-- The parts between commas. -/
def tokens (text : Text) : List Text := text.splitOn ','

/-- The binding of a token: key and value stand around its first equals sign. -/
def binding? (token : Text) : Option (Text × Text) :=
  (Text.cutAt '=' token).map fun (key, value) => (Text.trim key, stripQuotes (Text.trim value))

/-- The parameters of a list; the last binding of a key counts. -/
def ofText (text : Text) : Params := .ofList ((tokens text).filterMap binding?)

/-- The tokens that bind nothing and are not blank, trimmed. -/
def unboundTokens (text : Text) : List Text :=
  let isUnbound token := (binding? token).isNone && !Text.isBlankText token
  ((tokens text).filter isUnbound).map Text.trim

end Params
end Lectern
