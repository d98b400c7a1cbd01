import FilterPlan.CommandLine.EnvironmentFile
import FilterPlan.CommandLine.Option

/-!
# Invocations

The arguments of the program are options and words. The first word is the command, `explain`; behind it come
a kind and the parameters of a request, each as `key=value`. Behind an argument `--` every argument is a word.
The command `help` explains the commands.
-/

namespace FilterPlan.CommandLine

/-- What an argument means, or an argument together with the value behind it. -/
inductive Argument where
  /-- An option with its value, which is attached to it or makes an argument of its own. -/
  | option (name : OptionName) (value : Text) (isAttached : Bool)
  /-- A word. -/
  | word (text : Text)
  /-- The request for the version. -/
  | version
  /-- The request for help. -/
  | help
  /-- The end of the options. -/
  | separator
  /-- An option that does not exist, lacks its value, or has one and takes none. -/
  | unknown
deriving DecidableEq, Repr

namespace Argument

/-- One argument on its own: what it means, or an option whose value is the next one. -/
inductive Head where
  /-- It has a meaning of its own. -/
  | complete (argument : Argument)
  /-- It is an option without its value. -/
  | awaiting (name : OptionName)
deriving DecidableEq, Repr

/-- Reads what stands behind two dashes. -/
def ofWord (t : Text) : Head :=
  match Text.cutAt? '=' t with
  | some (optionWord, value) =>
    match OptionName.ofWord? optionWord with
    | some name => .complete (.option name value true)
    | none => .complete .unknown
  | none =>
    match OptionName.ofWord? t with
    | some name => .awaiting name
    | none => .complete (if t = "version" then .version else if t = "help" then .help else .unknown)

/-- Reads a letter behind one dash, and what follows it. -/
def ofLetter (letter : Char) (rest : Text) : Head :=
  match OptionName.ofLetter? letter with
  | some name =>
    if rest.isEmpty then .awaiting name
    else .complete (.option name ((Text.after? "=" rest).getD rest) true)
  | none => .complete (if letter = 'V' then .version else if letter = 'h' then .help else .unknown)

/-- Reads one argument. A dash alone is a word. -/
def ofText : Text → Head
  | ['-'] => .complete (.word "-")
  | ['-', '-'] => .complete .separator
  | '-' :: '-' :: t => ofWord t
  | '-' :: letter :: t => ofLetter letter t
  | t => .complete (.word t)

/-- Whether the argument begins like an option, so that it is not the value of one before it. -/
def isDashed : Text → Bool
  | '-' :: _ :: _ => true
  | _ => false

/-- Reads the arguments. -/
def ofTexts : List Text → List Argument
  | [] => []
  | t :: rest =>
    match ofText t with
    | .complete .separator => .separator :: rest.map .word
    | .complete argument => argument :: ofTexts rest
    | .awaiting name =>
      match rest with
      | [] => [.unknown]
      | value :: rest => if isDashed value then [.unknown] else .option name value false :: ofTexts rest

end Argument

/-- What the program is to do. -/
structure Invocation where
  /-- The settings. -/
  overrides : Overrides
  /-- The kind of the entities. -/
  kind : Text
  /-- The file with the schemas. -/
  schemaPath : Text
  /-- The file with the references. -/
  userPath? : Option Text
  /-- The parameters of the request, in order. -/
  params : List (Text × Text)
deriving DecidableEq, Repr

/-- Why there is nothing to explain. -/
inductive Stop where
  /-- The version is asked for. -/
  | version
  /-- Help is asked for. -/
  | help
  /-- The arguments are of no known form. -/
  | usage
deriving DecidableEq, Repr

/-- What the arguments behind the command have said so far. -/
structure Explained where
  /-- The options. -/
  given : Given := {}
  /-- The kind of the entities. -/
  kind? : Option Text := none
  /-- The parameters of the request, in order. -/
  params : List (Text × Text) := []
deriving DecidableEq, Repr

namespace Explained

/-- Reads a parameter. The key must not be empty; the value may hold further equality signs. -/
def param? (t : Text) : Option (Text × Text) :=
  match Text.cutAt? '=' t with
  | some (key, value) => if key.isEmpty then none else some (key, value)
  | none => none

/-- Takes a word: first the kind, then parameters. -/
def addWord? (e : Explained) (t : Text) : Option Explained :=
  if e.kind?.isSome then (param? t).map fun param => { e with params := e.params ++ [param] }
  else some { e with kind? := some t }

/-- Takes an argument. -/
def step (e : Explained) : Argument → Except Stop Explained
  | .option name value _ =>
    match e.given.add? name value with
    | some given => .ok { e with given := given }
    | none => .error .usage
  | .word t =>
    match e.addWord? t with
    | some e => .ok e
    | none => .error .usage
  | .separator => .ok e
  | .help => .error .help
  | .version | .unknown => .error .usage

end Explained

/-- The options before the command. A value that makes an argument of its own is read only when the next option
comes or the arguments behind the command have been read, so the request for help does not depend on it. -/
structure Leading where
  /-- The options whose values have been read. -/
  given : Given := {}
  /-- The option whose value is still to be read. -/
  pending? : Option (OptionName × Text) := none
deriving DecidableEq, Repr

namespace Leading

/-- All the options. -/
def settle? (leading : Leading) : Option Given :=
  match leading.pending? with
  | some (name, value) => leading.given.add? name value
  | none => some leading.given

/-- Takes an option with its value. -/
def add? (leading : Leading) (name : OptionName) (value : Text) (isAttached : Bool) : Option Leading := do
  let given ← leading.settle?
  if !name.isShared then none
  else if isAttached then return { given := ← given.add? name value }
  else return { given := given, pending? := some (name, value) }

end Leading

namespace Invocation

/-- The name of the command. -/
def commandName : Text := "explain"

/-- The name of the command that explains the commands. -/
def helpName : Text := "help"

/-- The invocation that the options before the command and the arguments behind it add up to. Behind counts
more than before, and both count more than the environment. -/
def complete? (environment : Environment) (before : Given) (e : Explained) : Option Invocation := do
  let filled ← e.given.fillAll? environment.get?
  let _ ← before.fillAll? environment.get?
  return {
    overrides := (filled.overrides.overlay before.overrides).overlay e.given.overrides
    kind := ← e.kind?
    schemaPath := ← e.given.schemaPath?
    userPath? := e.given.userPath?
    params := e.params }

/-- Reads the arguments behind the command. -/
def ofCommand (environment : Environment) (leading : Leading) (arguments : List Argument) :
    Except Stop Invocation := do
  let e ← arguments.foldlM Explained.step {}
  match leading.settle?.bind (complete? environment · e) with
  | some invocation => .ok invocation
  | none => .error .usage

/-- What the command `help` leads to: it takes the name of a command or nothing. -/
def stopOfHelp : List Argument → Stop
  | [] => .help
  | [.word t] => if t = commandName || t = helpName then .help else .usage
  | _ => .usage

/-- Reads the arguments from the beginning, given the options passed so far. -/
def ofArguments (environment : Environment) (leading : Leading) : List Argument → Except Stop Invocation
  | .option name value isAttached :: rest =>
    match leading.add? name value isAttached with
    | some leading => ofArguments environment leading rest
    | none => .error .usage
  | .word t :: rest =>
    if t = commandName then ofCommand environment leading rest
    else .error (if t = helpName then stopOfHelp rest else .usage)
  | .version :: _ => .error (if leading.settle?.isSome then .version else .usage)
  | .help :: _ => .error (if leading.settle?.isSome then .help else .usage)
  | _ => .error .usage

/-- Reads the arguments of the program. -/
def ofTexts (environment : Environment) (args : List Text) : Except Stop Invocation :=
  ofArguments environment {} (Argument.ofTexts args)

end Invocation

end FilterPlan.CommandLine
