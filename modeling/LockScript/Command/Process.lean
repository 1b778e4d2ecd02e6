import LockScript.Command.Session
import LockScript.Log.Filter

/-!
The program as a process: what it prints and the code it ends with.
-/

namespace LockScript
namespace Command

structure Completion where
  code : Nat
  output : String
  errors : List String
deriving DecidableEq, Repr

/-- The threshold of the log for a number of requests to be more talkative. -/
def thresholdOf (verbosity : Nat) : Log.Threshold :=
  match verbosity with
  | 0 => .upTo .warn
  | 1 => .upTo .debug
  | _ => .upTo .trace

/-- The code of a process whose arguments are not carried out.  To ask for help or the version is
not an error. -/
def Usage.code : Usage → Nat
  | helpShown | versionShown _ => 0
  | _ => 1

def helpLines : List String :=
  [programName ++ " " ++ programVersion, "", "USAGE:",
   "    " ++ programName ++ " [-v] <COMMAND> [ARGUMENTS]", "", "COMMANDS:"] ++
    commands.map (fun command => "    " ++ command.1)

def Usage.text : Usage → String
  | helpShown => "\n".intercalate helpLines
  | versionShown line => line
  | missingCommand => "error: a command is required"
  | unknownCommand => "error: there is no such command"
  | unknownArgument => "error: an argument is not known here"
  | missingArgument => "error: a required argument is missing"
  | emptyValue => "error: an option lacks its value"
  | repeatedOption => "error: an option is given more than once"
  | invalidValue => "error: an option has a value that it cannot have"

def Usage.completion (usage : Usage) : Completion :=
  if usage.code = 0 then ⟨0, usage.text ++ "\n", []⟩ else ⟨usage.code, "", [usage.text]⟩

/-- Carries out the arguments as a process, with the text that says which log records to print. -/
def complete (surroundings : Surroundings) (specification? : Option String)
    (invocation : Invocation) : Completion :=
  let outcome := carryOut surroundings invocation
  let specification := match specification? with
    | some text => Log.Specification.ofText text
    | none => {}
  let lines := Log.lines (thresholdOf invocation.verbosity) specification outcome.transcript.log
  match outcome.result with
  | .ok _ => ⟨0, outcome.transcript.output, lines⟩
  | .error failure =>
    ⟨1, outcome.transcript.output, lines ++ ["Error: " ++ Text.quote failure.text]⟩

end Command
end LockScript
