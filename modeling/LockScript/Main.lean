import LockScript.Command.Process

/-!
The program `cscript`: collects what a request needs from the outside, carries the
request out and prints the result.
-/

namespace LockScript
namespace Command

def logVariable : String := "RUST_LOG"

/-- How many random strings are drawn for a key.  Nearly every string is a private key. -/
def candidateCount : Nat := 16

/-- Reads a stream up to the end of a line.  The bytes read so far are given last first. -/
partial def readLine (stream : IO.FS.Stream) (before : Bytes) : IO Bytes := do
  match (← stream.read 1).toList with
  | [] => return before.reverse
  | byte :: _ =>
    if byte = 10 then return (byte :: before).reverse
    else readLine stream (byte :: before)

def loadFile (path : String) : IO (Except FileFault Bytes) := do
  try
    return .ok (← IO.FS.readBinFile path).toList
  catch
    | .noFileOrDirectory .. => return .error .missing
    | .permissionDenied .. => return .error .denied
    | .inappropriateType .. => return .error .directory
    | e => return .error (.other (toString e))

def drawCandidates : IO (List Key.PrivateKey) := do
  let draws ← (List.range candidateCount).mapM (fun _ => IO.getRandomBytes 32)
  return draws.filterMap (fun draw => Octets.ofBytes? 32 draw.toList)

def surroundingsOf (request : Request) : IO Surroundings := do
  let input ← if request.readsInput then readLine (← IO.getStdin) [] else pure []
  let file ← match request.config? with
    | some path => loadFile path
    | none => pure (.error .missing)
  return { input, fileAt := fun _ => file, candidates := ← drawCandidates }

def report (completion : Completion) : IO UInt32 := do
  for line in completion.errors do
    IO.eprintln line
  IO.print completion.output
  return UInt32.ofNat completion.code

def runProcess (arguments : List String) : IO UInt32 := do
  match program.read arguments with
  | .error usage => report usage.completion
  | .ok invocation =>
    let surroundings ← match Request.ofInvocation invocation with
      | .ok request => surroundingsOf request
      | .error _ => pure {}
    report (complete surroundings (← IO.getEnv logVariable) invocation)

end Command
end LockScript

def main (arguments : List String) : IO UInt32 :=
  LockScript.Command.runProcess arguments
