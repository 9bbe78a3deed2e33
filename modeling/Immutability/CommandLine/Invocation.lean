import Immutability.CommandLine.Argument

/-!
# The commands of the program

* `CheckOptions` and `InitOptions` are the options of the two commands, and `Command` is one of
  them with its options;
* `Invocation.parse` reads the arguments of the program.
-/

namespace Immutability.CommandLine

/-- The options of the command that analyses classes. -/
structure CheckOptions where
  /-- The classes to analyse. -/
  classes : List String
  /-- Directories and archives with classes. -/
  classpath : List String
  /-- A file that lists classes to analyse. -/
  classList : Option String
  /-- The pattern that the names of analysed classes match. -/
  pattern : Option String
  config : Option String
  presets : List String
  failFast : Bool
  format : String
  report : String
  summary : Bool
  parallel : Bool
  deriving DecidableEq, Repr

/-- The options of the command that writes a configuration file. -/
structure InitOptions where
  output : String
  template : String
  /-- Whether to list the templates instead. -/
  list : Bool
  deriving DecidableEq, Repr

inductive Command where
  | check (o : CheckOptions)
  | init (o : InitOptions)
  deriving DecidableEq, Repr

/-- A command, and how much the program is to say about its work. -/
structure Invocation where
  command : Command
  verbosity : Nat
  deriving DecidableEq, Repr

def verboseOption : OptionSpec :=
  { name := "verbose", letter := 'v', arity := .none, repeatable := true }

def helpOption : OptionSpec :=
  { name := "help", letter := 'h', arity := .none, request := some .help }

def versionOption : OptionSpec :=
  { name := "version", letter := 'V', arity := .none, request := some .version }

/-- The options in front of a command. -/
def programOptions : List OptionSpec := [verboseOption, helpOption, versionOption]

def checkOptions : List OptionSpec :=
  [{ name := "classpath", letter := 'p', arity := .many, repeatable := true, allowsEmpty := false },
   { name := "class-list", letter := none, arity := .one, allowsEmpty := false },
   { name := "match", letter := 'm', arity := .one },
   { name := "config", letter := 'c', arity := .one, allowsEmpty := false },
   { name := "preset", letter := none, arity := .one, repeatable := true },
   { name := "fail-fast", letter := none, arity := .none },
   { name := "format", letter := 'f', arity := .one },
   { name := "report", letter := 'r', arity := .one },
   { name := "summary", letter := none, arity := .none },
   { name := "parallel", letter := none, arity := .none },
   verboseOption, helpOption]

def initOptions : List OptionSpec :=
  [{ name := "output", letter := 'o', arity := .one, allowsEmpty := false },
   { name := "template", letter := 't', arity := .one },
   { name := "list", letter := 'l', arity := .none },
   verboseOption, helpOption]

/-- The options of an analysis; there must be a classpath. -/
def CheckOptions.ofArguments (a : Arguments) : Except Usage CheckOptions :=
  if a.count "classpath" = 0 then .error .missingArgument
  else
    .ok {
      classes := a.words
      classpath := a.values "classpath"
      classList := a.value? "class-list"
      pattern := a.value? "match"
      config := a.value? "config"
      presets := a.values "preset"
      failFast := a.count "fail-fast" ≠ 0
      format := (a.value? "format").getD "pretty"
      report := (a.value? "report").getD "all"
      summary := a.count "summary" ≠ 0
      parallel := a.count "parallel" ≠ 0 }

/-- The name of the template that is used if none is given. -/
def defaultTemplate : String := "minimal"

def InitOptions.ofArguments (a : Arguments) : InitOptions where
  output := (a.value? "output").getD "mutcheck.yaml"
  template := (a.value? "template").getD defaultTemplate
  list := a.count "list" ≠ 0

/-- The names of commands. -/
inductive CommandName where
  | check
  | init
  | help
  deriving DecidableEq, Repr

def CommandName.ofString? : String → Option CommandName
  | "check" => some check
  | "analyse" => some check
  | "init" => some init
  | "help" => some help
  | _ => none

namespace Invocation

/-- The verbosity counts up to 255. It is that behind the command, if given there. -/
def verbosityOf (before behind : Arguments) : Nat :=
  let n := behind.count "verbose"
  min 255 (if n = 0 then before.count "verbose" else n)

/-- The arguments behind the name of a command. Help can be had on one command. -/
def ofCommand (before : Arguments) (rest : List String) :
    CommandName → Except Usage Invocation
  | .check => do
    let a ← Arguments.scan checkOptions true false {} rest
    return ⟨.check (← CheckOptions.ofArguments a), verbosityOf before a⟩
  | .init => do
    let a ← Arguments.scan initOptions false false {} rest
    return ⟨.init (InitOptions.ofArguments a), verbosityOf before a⟩
  | .help =>
    match rest with
    | [] => .error .help
    | [name] => .error (if (CommandName.ofString? name).isSome then .help else .unknownCommand)
    | _ => .error .unknownCommand

/-- The arguments up to the command, and the command. A command cannot stand behind two hyphens. -/
def parseFrom (before : Arguments) : List String → Except Usage Invocation
  | [] => .error (if before.occurrences.isEmpty then .nothingGiven else .missingCommand)
  | arg :: rest =>
    match CommandName.ofString? arg with
    | some name => ofCommand before rest name
    | none =>
      if arg = "--" then
        match rest with
        | [] => .error (if before.occurrences.isEmpty then .nothingGiven else .missingCommand)
        | word :: _ =>
          .error (if (CommandName.ofString? word).isSome then .unknownArgument else .unknownCommand)
      else if Arguments.isOption arg then do
        parseFrom (← before.option programOptions arg) rest
      else .error .unknownCommand

/-- The command that the arguments of the program ask for. -/
def parse (args : List String) : Except Usage Invocation := parseFrom {} args

end Invocation

end Immutability.CommandLine
