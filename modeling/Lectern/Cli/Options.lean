import Lectern.Files.Path
import Lectern.Session.Level

/-!
# Command lines

The arguments of the program: switches, with or without a value, and operands. Arguments are read
from left to right and the first one that cannot stand where it does, or that asks for help or
the version, decides. The name of a command hands the remaining arguments to that command.
-/

namespace Lectern.Cli

/-- Why arguments name no command to carry out. -/
inductive Stop where
  | help
  | version
  | usage
  deriving DecidableEq

/-- A switch: its long name, its letter, and the values it takes if it takes one. -/
structure Switch where
  long : Text
  letter : Option Char
  value? : Option (Text → Bool)

/-- The arguments that may stand in one place: switches, operands, and names of commands. -/
structure Scope where
  switches : List Switch
  operands : List (Text → Bool)
  required : Bool
  commands : List Text

/-- The arguments given so far: values by switch, and operands in order. -/
structure Given where
  values : List (Text × Text)
  operands : List Text

namespace Given

/-- No arguments. -/
def empty : Given := ⟨[], []⟩

/-- Whether a switch is given. -/
def has (given : Given) (long : Text) : Bool := (given.values.lookup long).isSome

/-- The value of a switch. -/
def value? (given : Given) (long : Text) : Option Text := given.values.lookup long

end Given

namespace Scope

/-- The arguments with a switch added. A switch may be given once, with a value it takes. -/
def give (given : Given) (switch : Switch) (value : Text) : Except Stop Given :=
  if given.has switch.long || !switch.value?.all (· value) then .error .usage
  else .ok { given with values := (switch.long, value) :: given.values }

/-- The arguments with an operand added, if it is one that the place accepts. -/
def giveOperand (given : Given) (accepts : Text → Bool) (operand : Text) : Except Stop Given :=
  if accepts operand then .ok { given with operands := given.operands ++ [operand] }
  else .error .usage

/-- What the next operand has to be, if there is a place for one more. -/
def nextOperand? (scope : Scope) (given : Given) : Option (Text → Bool) :=
  scope.operands[given.operands.length]?

/-- The arguments with an operand added. -/
def addOperand (scope : Scope) (given : Given) (operand : Text) : Except Stop Given :=
  match scope.nextOperand? given with
  | some accepts => giveOperand given accepts operand
  | none => .error .usage

/-- Reads letters behind one dash. Behind the letter of a switch with a value stands that value,
or nothing, and then the switch is left to take the next argument. -/
def letters (scope : Scope) (given : Given) : Text → Except Stop (Given × Option Switch)
  | [] => .ok (given, none)
  | letter :: rest =>
    if letter = 'h' then .error .help
    else if letter = 'V' ∧ scope.commands ≠ [] then .error .version
    else
      match scope.switches.find? (·.letter = some letter) with
      | none => .error .usage
      | some switch =>
        match switch.value?, rest with
        | none, _ => do scope.letters (← give given switch []) rest
        | some _, [] => .ok (given, some switch)
        | some _, '=' :: value => do .ok (← give given switch value, none)
        | some _, value => do .ok (← give given switch value, none)

/-- Reads a name behind two dashes, with a value attached by an equals sign or not. -/
def longName (scope : Scope) (given : Given) (argument : Text) :
    Except Stop (Given × Option Switch) :=
  let (name, value?) := match Text.cutAt '=' argument with
    | some (name, value) => (name, some value)
    | none => (argument, none)
  if value? = none ∧ name = "help" then .error .help
  else if value? = none ∧ name = "version" ∧ scope.commands ≠ [] then .error .version
  else
    match scope.switches.find? (·.long = name) with
    | none => .error .usage
    | some switch =>
      match switch.value?, value? with
      | none, none => do .ok (← give given switch [], none)
      | none, some _ => .error .usage
      | some _, some value => do .ok (← give given switch value, none)
      | some _, none => .ok (given, some switch)

/-- Reads a switch argument; `none` for an operand. -/
def switchArgument? (scope : Scope) (given : Given) :
    Text → Option (Except Stop (Given × Option Switch))
  | '-' :: '-' :: name => some (scope.longName given name)
  | '-' :: letter :: rest => some (scope.letters given (letter :: rest))
  | _ => none

/-- Whether an argument looks like a switch and not like a value. -/
def looksLikeSwitch : Text → Bool
  | '-' :: _ :: _ => true
  | _ => false

/-- Reads arguments up to the name of a command, and gives it with the arguments behind it. A
value or operand that is refused is told when the argument behind it is read, and the name of a
command is looked for first; an operand without a place is told at once. -/
def read (scope : Scope) (given : Except Stop Given) :
    List Text → Except Stop Given × Option (Text × List Text)
  | [] => (given, none)
  | argument :: rest =>
    if argument ∈ scope.commands then (given, some (argument, rest))
    else
      match given with
      | .error stop => (.error stop, none)
      | .ok given =>
        if argument = "--" then (rest.foldlM scope.addOperand given, none)
        else
          match scope.switchArgument? given argument with
          | none =>
            match scope.nextOperand? given with
            | none => (.error .usage, none)
            | some accepts => scope.read (giveOperand given accepts argument) rest
          | some (.error stop) => (.error stop, none)
          | some (.ok (given, none)) => scope.read (.ok given) rest
          | some (.ok (given, some switch)) =>
            match rest with
            | [] => (.error .usage, none)
            | value :: others =>
              if looksLikeSwitch value then (.error .usage, none)
              else scope.read (give given switch value) others

/-- Reads all arguments of a command, which must have the operands it requires. -/
def readAll (scope : Scope) (arguments : List Text) : Except Stop Given := do
  let given ← (scope.read (.ok .empty) arguments).1
  if scope.required ∧ given.operands.length < scope.operands.length then .error .usage
  else .ok given

end Scope

/-- Any value will do. -/
def anyText : Text → Bool := fun _ => true

/-- A path may not be empty. -/
def anyPath : Text → Bool := fun value => value ≠ []

/-- One of several words. -/
def oneOf (words : List Text) : Text → Bool := fun value => value ∈ words

/-- The switches that all commands share. -/
def sharedSwitches : List Switch :=
  [⟨"config-path", some 'c', some anyText⟩,
    ⟨"log-level", some 'l', some (oneOf (Level.named.map Prod.fst))⟩]

/-- The switches of rendering. -/
def renderSwitches : List Switch :=
  [⟨"force-overwrite", some 'f', none⟩, ⟨"output-dir", some 'o', some anyPath⟩,
    ⟨"lang", some 'L', some anyText⟩, ⟨"check", none, none⟩]

/-- The shells that completions are made for. -/
def shells : List Text := ["bash", "elvish", "fish", "powershell", "zsh"]

/-- The commands by name, with what may stand behind the name. -/
def commandScopes : List (Text × Scope) :=
  [("render", ⟨renderSwitches ++ sharedSwitches, [anyPath], false, []⟩),
    ("check",
      ⟨[⟨"strict", none, none⟩, ⟨"json", none, none⟩] ++ sharedSwitches, [anyPath], true, []⟩),
    ("ast", ⟨sharedSwitches, [anyPath], true, []⟩),
    ("completions", ⟨sharedSwitches, [oneOf shells], true, []⟩)]

/-- The names of all commands. -/
def commandNames : List Text := commandScopes.map Prod.fst ++ [("help" : Text)]

/-- What may stand before the name of a command: without one, the arguments of rendering. -/
def mainScope : Scope := ⟨renderSwitches ++ sharedSwitches, [anyPath], false, commandNames⟩

/-- How to render. -/
structure RenderOptions where
  input : Option Path
  force : Bool
  directory : Option Path
  language : Option Text
  check : Bool
  deriving DecidableEq

/-- What to carry out. -/
inductive Command where
  | render (options : RenderOptions)
  | check (input : Path) (strict json : Bool)
  | tree (input : Path)
  | completions (shell : Text)
  deriving DecidableEq

/-- A command with the settings that all commands share. -/
structure Invocation where
  command : Command
  configPath : Path
  level : Option Level
  deriving DecidableEq

/-- The options of rendering among the arguments. -/
def Given.renderOptions (given : Given) : RenderOptions where
  input := given.operands.head?
  force := given.has "force-overwrite"
  directory := given.value? "output-dir"
  language := given.value? "lang"
  check := given.has "check"

/-- The command with this name and these arguments. -/
def Given.command (given : Given) (name : Text) : Command :=
  let operand := given.operands.head?.getD []
  if name = "check" then .check operand (given.has "strict") (given.has "json")
  else if name = "ast" then .tree operand
  else if name = "completions" then .completions operand
  else .render given.renderOptions

/-- An invocation; shared settings given behind the command's name go before those in front. -/
def invocation (command : Command) (before behind : Given) : Invocation :=
  let setting? := fun long : Text => behind.value? long <|> before.value? long
  ⟨command, (setting? "config-path").getD "vmdtex.json",
    (setting? "log-level").bind fun name => Level.named.lookup name⟩

/-- Whether help can be asked for with these arguments behind `help`. -/
def isHelpTopic : List Text → Bool
  | [] => true
  | [topic] => topic ∈ commandNames
  | _ => false

/-- Reads the arguments of the program. -/
def parse (arguments : List Text) : Except Stop Invocation := do
  match mainScope.read (.ok .empty) arguments with
  | (given, none) =>
    let given ← given
    .ok (invocation (.render given.renderOptions) given .empty)
  | (before, some (name, rest)) =>
    match commandScopes.lookup name with
    | none => .error (if isHelpTopic rest then .help else .usage)
    | some scope =>
      let behind ← scope.readAll rest
      .ok (invocation (behind.command name) (← before) behind)

end Lectern.Cli
