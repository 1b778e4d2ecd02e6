/-!
Arguments on a command line.

Arguments are read from left to right against a grammar of flags, options with a
value and at most one positional argument.  A long name stands behind two hyphens
with its value behind an equals sign or in the next argument; a short name is one
letter, and several may share a hyphen.  Behind a bare `--` everything is
positional.  What the arguments lack or have too often is looked at in the end.
-/

namespace LockScript
namespace Command

/-- Why arguments are not carried out. -/
inductive Usage where
  | helpShown
  | versionShown (line : String)
  | missingCommand
  | unknownCommand
  | unknownArgument
  | missingArgument
  | emptyValue
  | repeatedOption
  | invalidValue
deriving DecidableEq, Repr

/-- An option that takes a value. -/
structure Rule where
  /-- The name behind two hyphens. -/
  name : String
  /-- The letter behind one hyphen. -/
  letter? : Option Char := none
  required : Bool := false
  repeatable : Bool := false
  choices? : Option (List String) := none
  fallback? : Option String := none
deriving DecidableEq, Repr

structure Flag where
  name : String
  letter : Char
deriving DecidableEq, Repr

structure Positional where
  name : String
  required : Bool := false
deriving DecidableEq, Repr

/-- What may stand on the command line at one level. -/
structure Grammar where
  version : String
  flags : List Flag := []
  rules : List Rule := []
  positional? : Option Positional := none
deriving DecidableEq, Repr

structure Found where
  /-- The names in the order they were given. -/
  seen : List String := []
  /-- The values in the order they were given, each with its name. -/
  given : List (String × String) := []
deriving DecidableEq, Repr

namespace Found

def count (found : Found) (name : String) : Nat :=
  found.seen.count name

def values (found : Found) (name : String) : List String :=
  (found.given.filter (fun entry => entry.1 == name)).map Prod.snd

/-- The first value given under a name. -/
def value? (found : Found) (name : String) : Option String :=
  (found.values name).head?

def addName (found : Found) (name : String) : Found :=
  { found with seen := found.seen ++ [name] }

def addValue (found : Found) (name value : String) : Found :=
  { found with given := found.given ++ [(name, value)] }

end Found

structure Progress where
  found : Found := {}
  pending? : Option Rule := none
  /-- A bare `--` has been met. -/
  trailing : Bool := false
deriving DecidableEq, Repr

namespace Grammar

def readPositional (grammar : Grammar) (progress : Progress) (argument : String) :
    Except Usage Progress :=
  match grammar.positional? with
  | some positional =>
    if progress.found.count positional.name = 0 then
      let found := (progress.found.addName positional.name).addValue positional.name argument
      .ok { progress with found }
    else .error .unknownArgument
  | none => .error .unknownArgument

/-- An option, with its value if that has come with it.  Equals signs in front of the value are
dropped. -/
def readOption (progress : Progress) (rule : Rule) (value? : Option (List Char)) : Progress :=
  let found := progress.found.addName rule.name
  match value? with
  | some value =>
    let value := String.ofList (value.dropWhile (· == '='))
    { progress with found := found.addValue rule.name value, pending? := none }
  | none => { progress with found, pending? := some rule }

/-- An option without a value.  Help and version exist at every level and end the reading. -/
def readFlag (grammar : Grammar) (progress : Progress) (name : String) : Except Usage Progress :=
  if name = "help" then .error .helpShown
  else if name = "version" then .error (.versionShown grammar.version)
  else .ok { progress with found := progress.found.addName name, pending? := none }

def allFlags (grammar : Grammar) : List Flag :=
  grammar.flags ++ [⟨"help", 'h'⟩, ⟨"version", 'V'⟩]

/-- A long name, perhaps with a value behind an equals sign.  A value behind a flag is ignored. -/
def readLong (grammar : Grammar) (progress : Progress) (argument : List Char) :
    Except Usage Progress :=
  let body := argument.dropWhile (· == '-')
  let name := String.ofList (body.takeWhile (· != '='))
  let value? := match body.dropWhile (· != '=') with
    | [] => none
    | _ :: value => some value
  match grammar.rules.find? (fun rule => rule.name == name) with
  | some rule => .ok (readOption progress rule value?)
  | none =>
    match grammar.allFlags.find? (fun flag => flag.name == name) with
    | some flag => grammar.readFlag progress flag.name
    | none => .error .unknownArgument

/-- Short names behind one hyphen.  An option takes what is left as its value. -/
def readShort (grammar : Grammar) (progress : Progress) : List Char → Except Usage Progress
  | [] => .ok progress
  | letter :: rest =>
    match grammar.rules.find? (fun rule => rule.letter? == some letter) with
    | some rule => .ok (readOption progress rule (if rest.isEmpty then none else some rest))
    | none =>
      match grammar.allFlags.find? (fun flag => flag.letter == letter) with
      | some flag => do grammar.readShort (← grammar.readFlag progress flag.name) rest
      | none => .error .unknownArgument

/-- One argument.  A single hyphen is a value. -/
def readArgument (grammar : Grammar) (progress : Progress) (argument : String) :
    Except Usage Progress :=
  if progress.trailing then grammar.readPositional progress argument
  else match argument.toList with
    | ['-', '-'] => .ok { progress with trailing := true }
    | '-' :: '-' :: rest => grammar.readLong progress rest
    | '-' :: letter :: rest => grammar.readShort progress (letter :: rest)
    | _ =>
      match progress.pending? with
      | some rule =>
        let found := progress.found.addValue rule.name argument
        .ok { progress with found, pending? := none }
      | none => grammar.readPositional progress argument

/-- Arguments up to the first that names a command, with that name and what follows it. -/
def read (grammar : Grammar) (isCommand : String → Bool) (progress : Progress) :
    List String → Except Usage (Progress × Option (String × List String))
  | [] => .ok (progress, none)
  | argument :: rest =>
    if !progress.trailing && progress.pending?.isNone && isCommand argument then
      .ok (progress, some (argument, rest))
    else do grammar.read isCommand (← grammar.readArgument progress argument) rest

def fillIn (grammar : Grammar) (found : Found) : Found :=
  grammar.rules.foldl (fun found rule =>
    match rule.fallback? with
    | some value =>
      if (found.values rule.name).isEmpty then found.addValue rule.name value else found
    | none => found) found

def requiredNames (grammar : Grammar) : List String :=
  let positional := grammar.positional?.toList.filter Positional.required
  (grammar.rules.filter Rule.required).map Rule.name ++ positional.map Positional.name

/-- What is wrong with one option: it has no value, a value it may not have, or was given too
often. -/
def problem? (found : Found) (rule : Rule) : Option Usage :=
  let values := found.values rule.name
  let fits (value : String) := match rule.choices? with
    | some choices => choices.contains value
    | none => true
  if found.count rule.name = 0 then none
  else if values.isEmpty then some .emptyValue
  else if !values.all fits then some .invalidValue
  else if 1 < found.count rule.name && !rule.repeatable then some .repeatedOption
  else none

def check (grammar : Grammar) (progress : Progress) : Except Usage Found :=
  let found := grammar.fillIn progress.found
  let lacksValue := match progress.pending? with
    | some rule => (found.values rule.name).isEmpty
    | none => false
  if !grammar.requiredNames.all (fun name => 0 < found.count name) then .error .missingArgument
  else if lacksValue then .error .emptyValue
  else match grammar.rules.findSome? (problem? found) with
    | some usage => .error usage
    | none => .ok found

end Grammar

structure Program where
  top : Grammar
  commands : List (String × Grammar)
  /-- The program can do without a command and takes any name for one. -/
  lenient : Bool := false

structure Invocation where
  verbosity : Nat
  command? : Option (String × Found)
deriving DecidableEq, Repr

namespace Program

def helpName : String := "help"

def isCommand (program : Program) (argument : String) : Bool :=
  argument == helpName || (program.commands.lookup argument).isSome ||
    (program.lenient && argument.toList.head? != some '-')

/-- Help on the commands that follow; there are no commands below a command. -/
def help (program : Program) : List String → Usage
  | [] => .helpShown
  | [name] =>
    if name == helpName || (program.commands.lookup name).isSome then .helpShown
    else .unknownCommand
  | _ => .unknownCommand

def read (program : Program) (arguments : List String) : Except Usage Invocation := do
  let (progress, command?) ← program.top.read program.isCommand {} arguments
  let verbosity := progress.found.count "verbose"
  match command? with
  | none => if program.lenient then return ⟨verbosity, none⟩ else throw .missingCommand
  | some (name, rest) =>
    if name = helpName then throw (program.help rest)
    match program.commands.lookup name with
    | none => return ⟨verbosity, some (name, {})⟩
    | some grammar =>
      let (progress, _) ← grammar.read (fun _ => false) {} rest
      return ⟨verbosity, some (name, ← grammar.check progress)⟩

end Program
end Command
end LockScript
