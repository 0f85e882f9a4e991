import Lectern.Check.Header
import Lectern.Check.Report
import Lectern.Check.Scenes
import Lectern.Check.Slides
import Lectern.Deck.Parser

/-!
# Deck checks

All checks of a deck, in order: header, scenes, slides. The header is checked on the source text,
since a document no longer shows which keys were written.
-/

namespace Lectern.Check

/-- The report for a document and the source text that its header is taken from. -/
def checkDocument (source : Text) (document : Document) : Report :=
  ⟨headerDiagnostics (Header.entries? source) ++ scenesDiagnostics document
    ++ slidesDiagnostics document⟩

/-- The report for a source text. -/
def checkSource (source : Text) : Report := checkDocument source (Document.parse source)

end Lectern.Check
