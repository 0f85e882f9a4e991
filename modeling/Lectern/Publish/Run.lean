import Lectern.Check.Basic
import Lectern.Config.Written
import Lectern.Deck.Written
import Lectern.Publish.Outputs
import Lectern.Session.Host

/-!
# Publishing decks

Commands on deck files, for any host: render one deck or all decks below a folder, check a deck,
show its tree, and load or save a configuration. A run changes nothing before all outputs of its
deck are rendered. Outputs that exist are left alone unless overwriting is forced, and in a folder
a deck that fails does not stop the others.
-/

namespace Lectern

/-- What reading a deck tells. -/
def Document.parseNotices (source : Text) (document : Document) : List Notice :=
  (Document.unboundTokens source).map .unboundToken
    ++ [.parsed document.header.title document.scenes.length]

/-- What rendering a deck tells. -/
def Output.notices (outputs : List Output) : List Notice :=
  .rendering outputs.length
    :: outputs.map fun output => .rendered output.lines.length (Latex.activeFilter output.language)

/-- What checking a deck tells. -/
def Check.Report.notice (report : Check.Report) : Notice :=
  .checked report.errorCount report.warningCount

/-- The outcome for a folder: how many decks were rendered and failed, and what was written. -/
structure FolderSummary where
  processed : Nat
  failed : Nat
  written : List Path
  deriving DecidableEq

/-- The extension of deck files. -/
def deckExtension : Text := "vmd"

variable {m : Type → Type} [Monad m] [Host m]

/-- The deck files below a folder. -/
def findDecks (folder : Path) : ExceptT Failure m (List Path) :=
  Host.filesWithExtension folder deckExtension

/-- Reads a deck from a file and tells so; gives its source too. -/
def loadDeck (input : Path) : ExceptT Failure m (Text × Document) := do
  let source ← Host.readText .read input
  let document := Document.parse source
  Host.notifyAll (Document.parseNotices source document)
  pure (source, document)

/-- Loads a configuration; without a file at the path it is the standard one. -/
def Config.load (path : Path) : ExceptT Failure m Config := do
  if ← Host.exists? path then
    let source ← Host.readText .readConfig path
    match Config.parse source with
    | .ok config => pure config
    | .error problem => throw (.config (some path) (.unreadable source problem))
  else pure Config.standard

/-- Saves a configuration. -/
def Config.save (config : Config) (path : Path) : ExceptT Failure m Unit :=
  Host.orFail (.file .writeConfig path) (Host.writeBytes path (Text.toBytes config.write))

namespace Publisher

/-- Writes outputs one after another and gives the paths written. -/
def writeOutputs (publisher : Publisher) (input : Path) (force : Bool) :
    List Output → ExceptT Failure m (List Path)
  | [] => pure []
  | output :: rest => do
    let path := publisher.outputPath input output.language
    if !force && (← Host.exists? path) then
      Host.notify (.skipped path)
      publisher.writeOutputs input force rest
    else
      Host.writeText path output.latex
      let name? := output.language.bind fun code => (Language.englishName code).toOption
      Host.notify (.written path name?)
      pure (path :: (← publisher.writeOutputs input force rest))

/-- Tells the findings for a deck that is about to be rendered. -/
def checkBefore (publisher : Publisher) (source : Text) (document : Document) :
    ExceptT Failure m Unit := do
  if publisher.config.checks.beforeRender then
    let report := Check.checkDocument source document
    Host.notifyAll (report.notice :: report.diagnostics.map .finding)

/-- Renders a deck file and gives the paths written. -/
def run (publisher : Publisher) (input : Path) (force : Bool) : ExceptT Failure m (List Path) := do
  if !(← Host.isFile input) then throw (.fileMissing input)
  let (source, document) ← loadDeck input
  publisher.checkBefore source document
  match publisher.render document with
  | .error error => throw (.render input error)
  | .ok outputs =>
    Host.notifyAll (Output.notices outputs)
    publisher.writeOutputs input force outputs

/-- Renders deck files one after another; a failure is told and counted. -/
def runAll (publisher : Publisher) (force : Bool) : List Path → m FolderSummary
  | [] => pure ⟨0, 0, []⟩
  | deck :: rest => do
    match ← (publisher.run deck force).run with
    | .ok written =>
      let others ← publisher.runAll force rest
      pure ⟨others.processed + 1, others.failed, written ++ others.written⟩
    | .error failure =>
      Host.notify (.deckFailed deck failure)
      let others ← publisher.runAll force rest
      pure ⟨others.processed, others.failed + 1, others.written⟩

/-- Renders every deck below a folder. -/
def runFolder (publisher : Publisher) (folder : Path) (force : Bool) :
    ExceptT Failure m FolderSummary := do
  if !(← Host.isFolder folder) then throw (.folderMissing folder)
  match ← findDecks folder with
  | [] =>
    Host.notify (.noDecks folder)
    pure ⟨0, 0, []⟩
  | decks =>
    let summary ← liftM (publisher.runAll force decks : m FolderSummary)
    Host.notify (.folderFinished summary.processed summary.failed)
    pure summary

end Publisher

/-- Checks a deck file. -/
def checkFile (input : Path) : ExceptT Failure m Check.Report := do
  let (source, document) ← loadDeck input
  let report := Check.checkDocument source document
  Host.notify report.notice
  pure report

/-- The tree of a deck file. -/
def treeOfFile (input : Path) : ExceptT Failure m Json := do
  let (_, document) ← loadDeck input
  pure document.toJson

end Lectern
