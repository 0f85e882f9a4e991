import Lectern.Check.Diagnostic
import Lectern.Text.Lowercase

/-!
# Header checks

A deck needs a header block with the keys `title` and `author`. Keys that no tool knows, in any
case, are worth a warning each time they occur.
-/

namespace Lectern.Check

/-- The keys that authors are expected to use. -/
def knownHeaderKeys : List Text := ["title", "author", "style", "date", "version", "description"]

/-- The keys that a header must have, as written here. -/
def requiredHeaderKeys : List Text := ["title", "author"]

/-- The diagnostics for the entries of a header block, or for a deck without one. -/
def headerDiagnostics : Option (List (Text × Text)) → List Diagnostic
  | none => [.error .header .headerMissing]
  | some entries =>
    let keys := entries.map Prod.fst
    (requiredHeaderKeys.filter fun key => !keys.contains key).map
        (fun key => .error .header (.headerKeyMissing key))
      ++ (keys.filter fun key => !knownHeaderKeys.contains (Text.lowercase key)).map
        (fun key => .warning .header (.headerKeyUnknown key))

end Lectern.Check
