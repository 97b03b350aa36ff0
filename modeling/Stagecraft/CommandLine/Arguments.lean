/-
Arguments in order: options with their values, and words. An option has a long name and perhaps a
letter; its value stands in the same argument or in the next one. A value in an argument of its own
may not look like an option. After `--` there are only words. An option that is unknown, lacks a
value, has a value that cannot be read, or is given twice without reason is an error of usage.
-/

import Stagecraft.Decimal.Reading
import Stagecraft.CommandLine.Invocation

namespace Stagecraft

namespace CommandLine

/-- What an option takes. -/
inductive ValueKind where
  /-- No value. -/
  | nothing
  | text
  | path
  | natural
  | decimal
deriving DecidableEq

structure Choice where
  name : String
  letter : Option Char
  kind : ValueKind
  isRepeatable : Bool

/-- Whether a value can be read. -/
def ValueKind.accepts (kind : ValueKind) (value : String) : Bool :=
  match kind with
  | .nothing => false
  | .text => true
  | .path => value != ""
  | .natural => (Decimal.readBelow? (Nat.pow 2 64) value).isSome
  | .decimal => (Decimal.read? value).isSome

/-! ### Scanning -/

/-- The options and words met so far. An option without a value has an empty one. -/
structure Given where
  options : List (String × String)
  words : List String

namespace Given

def none : Given := ⟨[], []⟩

def has (given : Given) (name : String) : Bool :=
  given.options.any (·.1 == name)

def value? (given : Given) (name : String) : Option String :=
  given.options.lookup name

def values (given : Given) (name : String) : List String :=
  (given.options.filter (·.1 == name)).map (·.2)

def addOption (given : Given) (choice : Choice) (value : String) : Except Stop Given :=
  if given.has choice.name && !choice.isRepeatable then .error .usage
  else .ok { given with options := given.options ++ [(choice.name, value)] }

/-- Words are paths. -/
def addWord (given : Given) (word : String) : Except Stop Given :=
  if ValueKind.path.accepts word then .ok { given with words := given.words ++ [word] }
  else .error .usage

end Given

/-- Whether an argument is an option; a single dash is a word. -/
def looksLikeOption (argument : String) : Bool :=
  match argument.toList with
  | ['-'] => false
  | '-' :: _ => true
  | _ => false

/-- The option that an argument names, with the value in the same argument. -/
def named? (choices : List Choice) (argument : String) : Option (Choice × Option String) :=
  match argument.toList with
  | '-' :: '-' :: rest => do
    let name := rest.takeWhile (· != '=')
    let choice ← choices.find? (·.name == String.ofList name)
    let value := match rest.dropWhile (· != '=') with
      | [] => none
      | _ :: value => some (String.ofList value)
    return (choice, value)
  | '-' :: letter :: rest => do
    let choice ← choices.find? (·.letter == some letter)
    let value := match rest with
      | [] => none
      | '=' :: value => some (String.ofList value)
      | value => some (String.ofList value)
    return (choice, value)
  | _ => none

def helpName : String := "help"

def versionName : String := "version"

/-- Take up an option without a value. Those that stop everything do so at once. -/
def addFlag (given : Given) (choice : Choice) (argument : String) (attached : Option String) :
    Except Stop Given :=
  if attached.isSome && argument.startsWith "--" then .error .usage
  else if choice.name = helpName then .error .help
  else if choice.name = versionName then .error .version
  else given.addOption choice ""

def addValue (given : Given) (choice : Choice) (value : String) : Except Stop Given :=
  if choice.kind.accepts value then given.addOption choice value else .error .usage

/-- Take up arguments until there are more words than `room`; what is left begins with the word
that has no room. -/
def scan (choices : List Choice) (room : Nat) (given : Given) :
    List String → Except Stop (Given × List String)
  | [] => .ok (given, [])
  | argument :: rest =>
    if argument = "--" then do
      if given.words.length + rest.length ≤ room then
        let given ← rest.foldlM Given.addWord given
        return (given, [])
      else throw .usage
    else if looksLikeOption argument then
      match named? choices argument with
      | none => .error .usage
      | some (choice, attached) =>
        if choice.kind = .nothing then do
          let given ← addFlag given choice argument attached
          scan choices room given rest
        else match attached, rest with
          | some value, rest => do
            let given ← addValue given choice value
            scan choices room given rest
          | none, [] => .error .usage
          | none, value :: rest =>
            if looksLikeOption value then .error .usage
            else do
              let given ← addValue given choice value
              scan choices room given rest
    else if given.words.length < room then do
      let given ← given.addWord argument
      scan choices room given rest
    else .ok (given, argument :: rest)
termination_by arguments => arguments.length

/-! ### The options -/

def help : Choice := ⟨helpName, some 'h', .nothing, false⟩

def version : Choice := ⟨versionName, some 'V', .nothing, false⟩

/-- Options that may stand before or after the name of the task. -/
def everywhere : List Choice :=
  [⟨"config", some 'c', .path, false⟩, ⟨"tick-rate", none, .decimal, false⟩, help]

def compileChoices : List Choice :=
  [⟨"output", some 'o', .path, false⟩, ⟨"ir", none, .nothing, false⟩] ++ everywhere

def simulateChoices : List Choice :=
  [⟨"frames", some 'f', .natural, false⟩, ⟨"watch", some 'w', .text, true⟩,
    ⟨"click", none, .text, false⟩, ⟨"lua", none, .nothing, false⟩] ++ everywhere

/-- The frames that are run if no number is given. -/
def standardFrames : Nat := 60

/-- The arguments of a task, which fill its room for words. -/
def scanTask (choices : List Choice) (room : Nat) (arguments : List String) :
    Except Stop Given := do
  let (given, left) ← scan choices room .none arguments
  if left.isEmpty ∧ given.words.length = room then return given else throw .usage

/-- A task and the options given after its name. -/
def readTask (name : String) (arguments : List String) : Except Stop (Task × Given) :=
  match name with
  | "compile" => do
    let given ← scanTask compileChoices 1 arguments
    return (.compile (given.words.headD "") (given.value? "output") (given.has "ir"), given)
  | "simulate" => do
    let given ← scanTask simulateChoices 1 arguments
    let frames := (given.value? "frames").bind (Decimal.readBelow? (Nat.pow 2 64))
    return (.simulate (given.words.headD "") (frames.getD standardFrames) (given.values "watch")
      (given.value? "click") (given.has "lua"), given)
  | "init-config" => do
    let given ← scanTask everywhere 0 arguments
    return (.initConfig, given)
  | "help" =>
    match arguments with
    | [] => .error .help
    | [topic] =>
      if ["compile", "simulate", "init-config", "help"].contains topic then .error .help
      else .error .usage
    | _ => .error .usage
  | _ => .error .usage

/-- Read the command line. Of an option given before and after the name of the task the later one
counts. -/
def parse (arguments : List String) : Except Stop Invocation := do
  let (before, left) ← scan (version :: everywhere) 0 .none arguments
  match left with
  | [] => throw .usage
  | name :: rest =>
    let (task, after) ← readTask name rest
    let value? (name : String) : Option String := (after.value? name).or (before.value? name)
    return {
      settingsPath := value? "config"
      rate := (value? "tick-rate").bind Decimal.read?
      task }

end CommandLine

end Stagecraft
