import LockScript.Command.Request
import LockScript.Command.Value
import LockScript.Key.Ecdsa
import LockScript.Log.Record
import LockScript.Machine.Execute
import LockScript.Script.Basic
import LockScript.Settings.Document

/-!
Carrying out a request.

A session reads from its surroundings and writes lines and log records.  What has
been written stays written when a command fails later on.
-/

namespace LockScript
namespace Command

structure Surroundings where
  input : Bytes := []
  fileAt : String → Except FileFault Bytes := fun _ => .error .missing
  /-- Random strings, from which new private keys are taken. -/
  candidates : List Key.PrivateKey := []

structure Transcript where
  lines : List String := []
  log : List Log.Record := []
deriving DecidableEq, Repr

def Transcript.output (transcript : Transcript) : String :=
  String.join (transcript.lines.map (· ++ "\n"))

abbrev Session := ReaderT Surroundings (ExceptT Failure (StateM Transcript))

namespace Session

def print (line : String) : Session Unit :=
  modify (fun transcript => { transcript with lines := transcript.lines ++ [line] })

def printAll (lines : List String) : Session Unit :=
  modify (fun transcript => { transcript with lines := transcript.lines ++ lines })

def record (records : List Log.Record) : Session Unit :=
  modify (fun transcript => { transcript with log := transcript.log ++ records })

def logged {α : Type} (result : Log.Logged α) : Session α := do
  record result.2
  return result.1

def orFail {ε α : Type} (failure : ε → Failure) : Except ε α → Session α
  | .ok a => return a
  | .error e => throw (failure e)

/-- The bytes of an argument, or of a line of standard input in its place. -/
def bytesOf : Option String → Session Bytes
  | some text => orFail id (readHex text)
  | none => do
    match decodeText? (firstLine (← read).input) with
    | some text => orFail id (readHex text)
    | none => throw .input

/-- The message of an argument; zeros if there is none. -/
def messageOf : Option String → Session Key.Message
  | some text => orFail id (readMessage text)
  | none => return Octets.zero 32

def settingsOf : Option String → Session (Machine.Ceiling → Option Nat)
  | none => return fun _ => none
  | some path => do
    let bytes ← orFail Failure.file ((← read).fileAt path)
    match decodeText? bytes with
    | none => throw (.file .notText)
    | some text =>
      match Settings.read? text with
      | some changes => return changes
      | none => throw .settings

/-- The records about the limits of a run: what they are, and a warning for each that is zero. -/
def limitRecords (limits : Machine.Limits) : List Log.Record :=
  .from .tool .debug ("VM limits: " ++ limits.inspect) ::
    limits.zeros.map (fun ceiling => .from .tool .warn ("VM limit " ++ ceiling.name ++ " is 0"))

/-- The limits of a run: the standard ones, changed by the settings file, changed by options. -/
def limitsOf (source : LimitSource) : Session Machine.Limits := do
  let settings ← settingsOf source.config?
  let options ← orFail Failure.ceiling (readCeilings source.texts)
  let limits := (Machine.Limits.standard.update settings).update options
  record (limitRecords limits)
  return limits

/-- The line of a step: position, instruction, and the stack with its bottom first. -/
def stepLine (step : Machine.Step) : String :=
  let items := step.stack.values.map (fun value => "0x" ++ Text.Hex.encode value)
  "#" ++ toString step.pc ++ " " ++ step.instruction.text ++ " [" ++ ", ".intercalate items ++ "]"

def digestOf (name : String) (value : Bytes) : Session Bytes :=
  match Digest.Algorithm.ofName? name with
  | some algorithm => return algorithm.digest value
  | none => throw (.algorithm name)

def perform : Request → Session Unit
  | .tokenize script? => do
    let tokens ← orFail Failure.script (Script.tokenize (← bytesOf script?))
    print (" ".intercalate tokens)
  | .decode script? => do
    let script ← orFail Failure.script (Script.decode (← bytesOf script?))
    printAll script.listing
  | .execute lock unlock? params message? source => do
    let lock ← orFail id (readHex lock)
    let lock ← orFail Failure.lockScript (Script.decode lock)
    let unlock ← match unlock? with
      | none => pure []
      | some text => do
        orFail Failure.unlockScript (Script.decode (← orFail id (readHex text)))
    let params ← orFail id (params.mapM readHex)
    let message ← messageOf message?
    let limits ← limitsOf source
    let verdict ← logged (Machine.unlock { message, limits } unlock params lock)
    print verdict.text
  | .trace script? message? source => do
    let script ← orFail Failure.script (Script.decode (← bytesOf script?))
    let message ← messageOf message?
    let limits ← limitsOf source
    let run ← logged (Machine.trace { message, limits } script)
    printAll (run.steps.map stepLine)
    print run.verdict.text
  | .hash algorithm value? => do
    let value ← bytesOf value?
    print (Text.Hex.encode (← digestOf algorithm value))
  | .keygen => do
    let pair ← orFail Failure.generating (Key.Pair.generate (← read).candidates)
    printAll pair.lines
  | .publicKey key => do
    let key ← orFail id (readPrivateKey key)
    let pair ← orFail Failure.publicKey (Key.Pair.ofPrivate key)
    print (Text.Hex.encode pair.publicKey.bytes)
  | .sign key message => do
    let key ← orFail id (readPrivateKey key)
    let message ← orFail id (readMessage message)
    let signature ← orFail Failure.signing (Key.sign key message)
    print signature.text

end Session

structure Outcome where
  result : Except Failure Unit
  transcript : Transcript

def carryOut (surroundings : Surroundings) (invocation : Invocation) : Outcome :=
  match Request.ofInvocation invocation with
  | .error failure => ⟨.error failure, {}⟩
  | .ok request =>
    let (result, transcript) := ((Session.perform request).run surroundings).run.run {}
    ⟨result, transcript⟩

end Command
end LockScript
