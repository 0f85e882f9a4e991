import Lectern.Cli.Options
import Lectern.Publish.Run

/-!
# Carrying out command lines

The program on any host: it reads its arguments, loads the configuration, carries out the command
and gives an exit code. A failure is told as the last notice.
-/

namespace Lectern.Cli

variable {m : Type → Type} [Monad m] [Host m]

/-- The exit codes: success, a failed command, and arguments that cannot be used. -/
inductive ExitCode where
  | success
  | failure
  | usage
  deriving DecidableEq

/-- The number of an exit code. -/
def ExitCode.toNat : ExitCode → Nat
  | success => 0
  | failure => 1
  | usage => 2

/-- The name and version of the program. -/
def versionLine : Text := "vmdtex 1.0.0"

/-- What the program can do, in short. -/
def helpText : Text := Text.joinLines
  ["Render slide deck markup to LaTeX Beamer",
    "",
    "Usage: vmdtex [OPTIONS] [INPUT_PATH]",
    "       vmdtex render [OPTIONS] [INPUT_PATH]",
    "       vmdtex check [--strict] [--json] <INPUT_PATH>",
    "       vmdtex ast <INPUT_PATH>",
    "       vmdtex completions <SHELL>",
    "       vmdtex help [COMMAND]",
    "",
    "Options:",
    "  -f, --force-overwrite            Force overwrite of existing output files",
    "  -o, --output-dir <OUTPUT_DIR>    Directory for output files",
    "  -L, --lang <LANG>                Render only the slides of this language",
    "      --check                      Log deck check findings before rendering",
    "  -c, --config-path <CONFIG_PATH>  Configuration file path",
    "  -l, --log-level <LOG_LEVEL>      Set logging level",
    "  -h, --help                       Print help",
    "  -V, --version                    Print version"]

/-- The words that a shell completes. -/
def completionWords : Text := [' '].intercalate commandNames

/-- A script that makes a shell complete the names of the commands. -/
def completionScript (shell : Text) : Text :=
  if shell = "fish" then
    "complete -c vmdtex -n __fish_use_subcommand -f -a '" ++ completionWords ++ "'"
  else if shell = "zsh" then
    "#compdef vmdtex\n_arguments '1:command:(" ++ completionWords ++ ")' '*:file:_files'"
  else if shell = "elvish" then
    "set edit:completion:arg-completer[vmdtex] = \x7b|@words| put " ++ completionWords ++ " \x7d"
  else if shell = "powershell" then
    "Register-ArgumentCompleter -Native -CommandName vmdtex -ScriptBlock \x7b '" ++ completionWords
      ++ "'.Split(' ') \x7d"
  else "complete -o default -W '" ++ completionWords ++ "' vmdtex"

/-- The publisher for a configuration and a language. -/
def publisherFor (config : Config) (language : Option Text) : ExceptT Failure m Publisher :=
  match Publisher.ofConfig config language with
  | .ok publisher => pure publisher
  | .error failure => throw failure

/-- The configuration with what the options of rendering change. -/
def RenderOptions.adjust (options : RenderOptions) (config : Config) : Config :=
  { config with
    output := { config.output with
      directory := options.directory <|> config.output.directory }
    checks := { config.checks with
      beforeRender := options.check || config.checks.beforeRender } }

/-- Gives a hint where a deck has a slide without a language. -/
def hintFor : Failure → ExceptT Failure m Unit
  | .render _ (.deck (.missingLanguage ..)) => Host.notify .languageHint
  | _ => pure ()

/-- Renders a deck file and says so if nothing was written. -/
def renderFile (publisher : Publisher) (input : Path) (force : Bool) : ExceptT Failure m Unit := do
  let written ← tryCatch (publisher.run input force) fun failure => do
    hintFor failure
    throw failure
  if written = [] then Host.notify (.nothingWritten input)

/-- Renders the decks of a folder; one that fails is a failure of the whole. -/
def renderFolder (publisher : Publisher) (input : Path) (force : Bool) :
    ExceptT Failure m Unit := do
  let summary ← publisher.runFolder input force
  if 0 < summary.failed then throw (.decksFailed summary.failed)

/-- Renders a deck file or the decks of a folder. -/
def render (config : Config) (options : RenderOptions) : ExceptT Failure m Unit := do
  match options.input with
  | none => throw .inputNeeded
  | some input =>
    let publisher ← publisherFor (options.adjust config) options.language
    match ← Host.kind? input with
    | some .file => renderFile publisher input options.force
    | some .folder => renderFolder publisher input options.force
    | none => throw (.inputMissing input)

/-- Prints diagnostics behind the path of their deck. -/
def printDiagnostics (input : Path) : List Check.Diagnostic → ExceptT Failure m Unit
  | [] => pure ()
  | diagnostic :: rest => do
    Host.print (input ++ ": " ++ diagnostic.describe)
    printDiagnostics input rest

/-- Checks a deck file and prints what was found, as a tree of values or line by line. -/
def check (config : Config) (input : Path) (strict json : Bool) : ExceptT Failure m Unit := do
  let strict := strict || config.checks.strict
  let _ ← publisherFor config none
  let report ← checkFile input
  if json then Host.print report.toJson.write
  else
    printDiagnostics input report.diagnostics
    Host.notify (.checkSummary report.errorCount report.warningCount)
  if !report.passed strict then throw (.deck (.checksFailed report.diagnostics.length))

/-- Prints the tree of a deck file. -/
def tree (config : Config) (input : Path) : ExceptT Failure m Unit := do
  let _ ← publisherFor config none
  Host.print (← treeOfFile input).write

/-- Carries out a command under a configuration. -/
def Command.execute (config : Config) : Command → ExceptT Failure m Unit
  | .render options => Cli.render config options
  | .check input strict json => Cli.check config input strict json
  | .tree input => Cli.tree config input
  | .completions shell => Host.print (completionScript shell)

/-- Loads the configuration, sets the threshold for notices, and carries out the command. -/
def Invocation.execute (invocation : Invocation) : ExceptT Failure m Unit := do
  let loaded ← Config.load invocation.configPath
  let config := { loaded with level := invocation.level.getD loaded.level }
  Host.setThreshold config.level
  invocation.command.execute config

/-- Runs the program. -/
def run (arguments : List Text) : m ExitCode := do
  match parse arguments with
  | .error .help =>
    Host.print helpText
    pure .success
  | .error .version =>
    Host.print versionLine
    pure .success
  | .error .usage => pure .usage
  | .ok invocation =>
    Host.setThreshold .info
    match ← invocation.execute.run with
    | .ok () => pure .success
    | .error failure =>
      Host.notify (.failed failure)
      pure .failure

end Lectern.Cli
