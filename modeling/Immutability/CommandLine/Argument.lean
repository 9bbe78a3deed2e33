/-!
# Arguments of a command

* `OptionSpec` describes an option, and `Occurrence` is one use of it;
* `Arguments` collects what has been read, and `Arguments.option` reads one argument that starts
  with a hyphen;
* `Arguments.scan` reads all arguments of a command;
* `Usage` is what stops the reading: a request for help, or a mistake.
-/

namespace Immutability.CommandLine

/-- Why no command is run. -/
inductive Usage where
  | help
  | version
  /-- There are no arguments at all. -/
  | nothingGiven
  | missingCommand
  | unknownCommand
  | unknownArgument
  | missingArgument
  /-- An option has no value, or an empty one. -/
  | missingValue
  /-- An option that takes no value has one. -/
  | needlessValue
  /-- An option is given twice. -/
  | repeated
  deriving DecidableEq, Repr

/-- The exit code: asking for help is no mistake. -/
def Usage.exitCode : Usage → Nat
  | help | version => 0
  | _ => 2

/-- How many values an option takes. -/
inductive Arity where
  | none
  | one
  /-- All arguments up to the next option. -/
  | many
  deriving DecidableEq, Repr

/-- An option of a command. -/
structure OptionSpec where
  name : String
  letter : Option Char
  arity : Arity
  /-- Whether the option may be given more than once. -/
  repeatable : Bool := false
  /-- Whether a value may be empty. -/
  allowsEmpty : Bool := true
  /-- What the option asks for instead of a run of the command. -/
  request : Option Usage := .none
  deriving DecidableEq, Repr

/-- One use of an option, with its values. -/
structure Occurrence where
  option : String
  values : List String
  deriving DecidableEq, Repr

/-- An option whose values have been read but not checked. -/
structure Pending where
  option : OptionSpec
  values : List String
  /-- Whether the next argument can still be a value. -/
  isOpen : Bool
  deriving DecidableEq, Repr

/-- What has been read of the arguments. -/
structure Arguments where
  occurrences : List Occurrence := []
  words : List String := []
  pending : Option Pending := none
  deriving DecidableEq, Repr

namespace Arguments

/-- How often an option was used. -/
def count (a : Arguments) (name : String) : Nat := a.occurrences.countP (·.option == name)

/-- All values of an option. -/
def values (a : Arguments) (name : String) : List String :=
  (a.occurrences.filter (·.option == name)).flatMap (·.values)

/-- The value of an option. -/
def value? (a : Arguments) (name : String) : Option String := (a.values name).head?

/-- Record the use of an option, which may be refused or stop the reading. -/
def add (a : Arguments) (o : OptionSpec) (values : List String) : Except Usage Arguments :=
  match o.request with
  | some u => .error u
  | none =>
    if o.arity ≠ .none && values.isEmpty then .error .missingValue
    else if !o.repeatable && a.count o.name ≠ 0 then .error .repeated
    else if !o.allowsEmpty && values.contains "" then .error .missingValue
    else .ok { a with occurrences := a.occurrences ++ [⟨o.name, values⟩] }

/-- Record the pending option, if there is one. -/
def settle (a : Arguments) : Except Usage Arguments :=
  match a.pending with
  | none => .ok a
  | some p => add { a with pending := none } p.option p.values

/-- Use an option whose value, if it has one, is attached to it. -/
def use (a : Arguments) (o : OptionSpec) (attached : Option String) : Except Usage Arguments := do
  let a ← a.settle
  match o.arity, attached with
  | .none, _ => a.add o []
  | _, some v => a.add o [v]
  | _, none => return { a with pending := some ⟨o, [], true⟩ }

/-- The name of a long option, and the value attached to it. -/
def splitLong (arg : String) : String × Option String :=
  let cs := arg.toList.drop 2
  let name := String.ofList (cs.takeWhile (· ≠ '='))
  match cs.dropWhile (· ≠ '=') with
  | _ :: value => (name, some (String.ofList value))
  | [] => (name, none)

/-- Use a long option. -/
def long (options : List OptionSpec) (a : Arguments) (arg : String) : Except Usage Arguments :=
  let (name, value) := splitLong arg
  match options.find? (·.name == name) with
  | none => .error .unknownArgument
  | some o =>
    if o.arity = .none && value.isSome then .error .needlessValue else a.use o value

/-- Use the options whose letters are given. What follows the letter of an option that takes a value
is its value; an equality sign in front of it does not count. -/
def short (options : List OptionSpec) (a : Arguments) : List Char → Except Usage Arguments
  | [] => .ok a
  | c :: rest =>
    match options.find? (·.letter == some c) with
    | none => .error .unknownArgument
    | some o =>
      match o.arity, rest with
      | .none, rest => do short options (← a.use o none) rest
      | _, [] => a.use o none
      | _, '=' :: rest => a.use o (some (String.ofList rest))
      | _, rest => a.use o (some (String.ofList rest))

/-- Whether an argument is the name of an option. -/
def isOption (arg : String) : Bool := arg.length > 1 && arg.toList.head? == some '-'

/-- Use the options that an argument names. -/
def option (options : List OptionSpec) (a : Arguments) (arg : String) : Except Usage Arguments :=
  match arg.toList with
  | '-' :: '-' :: _ => a.long options arg
  | _ :: letters => a.short options letters
  | [] => .error .unknownArgument

/-- Take an argument that is not the name of an option: a value of the pending option, or a word. -/
def word (takesWords : Bool) (a : Arguments) (arg : String) : Except Usage Arguments :=
  if takesWords then do
    let a ← a.settle
    return { a with words := a.words ++ [arg] }
  else .error .unknownArgument

/-- Take a value of the pending option, if it is open. -/
def pendingValue? (a : Arguments) (arg : String) : Option Arguments :=
  match a.pending with
  | some ⟨o, values, true⟩ =>
    some { a with pending := some ⟨o, values ++ [arg], o.arity == .many⟩ }
  | _ => none

/-- Read all arguments of a command. Behind two hyphens there are words only. -/
def scan (options : List OptionSpec) (takesWords : Bool) (wordsOnly : Bool) (a : Arguments) :
    List String → Except Usage Arguments
  | [] => a.settle
  | arg :: rest => do
    if wordsOnly then scan options takesWords true (← a.word takesWords arg) rest
    else if arg = "--" then scan options takesWords true a rest
    else if isOption arg then scan options takesWords false (← a.option options arg) rest
    else
      match a.pendingValue? arg with
      | some a => scan options takesWords false a rest
      | none => scan options takesWords false (← a.word takesWords arg) rest

end Arguments

end Immutability.CommandLine
