import LockScript.Key.Error
import LockScript.Machine.Limits
import LockScript.Script.Decoding

/-!
Why a command fails.

A script that is rejected is not a failure: the command did what it was asked to.
-/

namespace LockScript
namespace Command

inductive FileFault where
  | missing
  | denied
  | directory
  | notText
  /-- Any other fault, in the words of the operating system. -/
  | other (description : String)
deriving DecidableEq, Repr

def notTextMessage : String := "stream did not contain valid UTF-8"

namespace FileFault

def system (code : Nat) (kind message : String) : String :=
  "Os \x7b code: " ++ toString code ++ ", kind: " ++ kind ++ ", message: " ++ Text.quote message ++
    " \x7d"

def inspect : FileFault → String
  | missing => system 2 "NotFound" "No such file or directory"
  | denied => system 13 "PermissionDenied" "Permission denied"
  | directory => system 21 "IsADirectory" "Is a directory"
  | notText =>
    "Error \x7b kind: InvalidData, message: " ++ Text.quote notTextMessage ++ " \x7d"
  | other description => description

end FileFault

inductive Failure where
  | command
  /-- An argument that the command cannot do without is not there. -/
  | argument (name : String)
  | hex (text : String) (error : Text.Hex.Error)
  /-- The line on standard input is not text. -/
  | input
  | script (error : DecodeError)
  | lockScript (error : DecodeError)
  | unlockScript (error : DecodeError)
  | message (error : Text.Hex.Error)
  | privateKey (error : Text.Hex.Error)
  /-- The settings file cannot be read. -/
  | file (fault : FileFault)
  /-- The settings file is malformed. -/
  | settings
  /-- The number given for a ceiling is none. -/
  | ceiling (which : Machine.Ceiling)
  | algorithm (name : String)
  | publicKey (error : Key.Error)
  | signing (error : Key.Error)
  | generating (error : Key.Error)
deriving DecidableEq, Repr

def Failure.text : Failure → String
  | command => "Invalid subcommand"
  | argument name => "Argument '" ++ name ++ "' is required"
  | hex text error => "Error on reading hex " ++ Text.quote text ++ ": " ++ error.message
  | input => notTextMessage
  | script error => error.message
  | lockScript error => "Invalid lock script: " ++ error.message
  | unlockScript error => "Invalid unlock script: " ++ error.message
  | message error => "Error on reading message: " ++ error.message
  | privateKey error => "Error on reading private key: " ++ error.message
  | file fault => "Fail to read file: " ++ fault.inspect
  | settings => "Error while parse TOML"
  | .ceiling which => "Invalid " ++ which.option
  | algorithm name => "Unknown hash algorithm: " ++ name
  | publicKey error => "Error on converting private key to public key: " ++ error.message
  | signing error => "Fail to sign: " ++ error.message
  | generating error => "Fail to generate a key pair: " ++ error.message

end Command
end LockScript
