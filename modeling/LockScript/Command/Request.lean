import LockScript.Command.Arguments
import LockScript.Command.Failure

/-!
What a command is asked to do, as it stands on the command line.
-/

namespace LockScript
namespace Command

open Machine (Ceiling)

structure LimitSource where
  /-- The path of a settings file. -/
  config? : Option String
  texts : Ceiling → Option String

/-- A request, with texts not yet read.  A script or value left out is on standard input. -/
inductive Request where
  | tokenize (script? : Option String)
  | decode (script? : Option String)
  | execute (lock : String) (unlock? : Option String) (params : List String)
      (message? : Option String) (limits : LimitSource)
  | trace (script? message? : Option String) (limits : LimitSource)
  | hash (algorithm : String) (value? : Option String)
  | keygen
  | publicKey (key : String)
  | sign (key message : String)

namespace Request

def required (found : Found) (name : String) : Except Failure String :=
  match found.value? name with
  | some value => .ok value
  | none => .error (.argument name)

def limitsOf (found : Found) : LimitSource where
  config? := found.value? "config"
  texts ceiling := found.value? ceiling.option

def ofCommand (name : String) (found : Found) : Except Failure Request :=
  match name with
  | "tokenize" => return .tokenize (found.value? "SCRIPT")
  | "decode" => return .decode (found.value? "SCRIPT")
  | "execute" =>
    return .execute (← required found "lock") (found.value? "unlock") (found.values "param")
      (found.value? "message") (limitsOf found)
  | "trace" => return .trace (found.value? "SCRIPT") (found.value? "message") (limitsOf found)
  | "hash" =>
    let algorithm := (found.value? "algorithm").getD Digest.Algorithm.blake256.name
    return .hash algorithm (found.value? "VALUE")
  | "keygen" => return .keygen
  | "public" => return .publicKey (← required found "PRIVATE")
  | "sign" => return .sign (← required found "private") (← required found "message")
  | _ => throw .command

def ofInvocation (invocation : Invocation) : Except Failure Request :=
  match invocation.command? with
  | some (name, found) => ofCommand name found
  | none => .error .command

def readsInput : Request → Bool
  | tokenize script? | decode script? | trace script? _ _ => script?.isNone
  | hash _ value? => value?.isNone
  | _ => false

def config? : Request → Option String
  | execute _ _ _ _ limits | trace _ _ limits => limits.config?
  | _ => none

end Request
end Command
end LockScript
