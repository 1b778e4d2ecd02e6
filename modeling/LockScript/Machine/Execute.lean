import LockScript.Log.Record
import LockScript.Machine.Run
import LockScript.Script.Decoding

/-!
The ways to run a script, and the records they leave.

A rejection is recorded with its reason.  Executing also records every completed
instruction, whereas tracing returns the instructions and does not record them.
-/

namespace LockScript
namespace Machine

def Step.record (step : Step) : Log.Record :=
  .from .vm .trace <|
    "#" ++ toString step.pc ++ " " ++ step.instruction.text ++
      " depth=" ++ toString step.stack.depth ++ " memory=" ++ toString step.stack.memory

def Verdict.records : Verdict → List Log.Record
  | .rejected reason => [.from .vm .debug ("Script rejected: " ++ reason.name)]
  | _ => []

def Verdict.logged (verdict : Verdict) : Log.Logged Verdict :=
  (verdict, verdict.records)

def Run.logged (run : Run) : Log.Logged Verdict :=
  (run.verdict, run.steps.map Step.record ++ run.verdict.records)

def execute (context : Context) (script : Script) : Log.Logged Verdict :=
  (run context script .empty).logged

def trace (context : Context) (script : Script) : Log.Logged Run :=
  let run := run context script .empty
  (run, run.verdict.records)

/-- The values below a lock script: those of the unlock script, then the parameters with the first
one on top. -/
def witness (unlock : Script) (params : List Bytes) : List Bytes :=
  unlock.pushedValues ++ params.reverse

/-- Runs a lock script on the values of an unlock script and parameters.  A lock with too many
signature checks is turned down without a record. -/
def unlock (context : Context) (unlock : Script) (params : List Bytes) (lock : Script) :
    Log.Logged Verdict :=
  if lock.tooManyChecks then (.rejected .tooManySignatureChecks, [])
  else if !unlock.pushOnly then Verdict.logged (.rejected .invalidUnlockScript)
  else match Stack.empty.pushAll context.limits (witness unlock params) with
    | .error reason => Verdict.logged (.rejected reason)
    | .ok stack => (run context lock stack).logged

/-- Reads a script and runs it.  Bytes that are no script are an error and not a rejection. -/
def verify (context : Context) (bytes : Bytes) : Except DecodeError (Log.Logged Verdict) :=
  (Script.decode bytes).map (execute context)

end Machine
end LockScript
