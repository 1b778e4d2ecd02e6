import LockScript.Text.Quoted

/-!
What can go wrong with keys and signatures.

A `Fault` is what the arithmetic on the curve reports.  An `Error` is what the
user of a key is told, and says less.
-/

namespace LockScript
namespace Key

inductive Fault where
  | incorrectSignature
  | invalidMessage
  | invalidPublicKey
  | invalidSignature
  | invalidSecretKey
  | invalidSharedSecret
  | invalidRecoveryId
  | invalidTweak
  | notEnoughMemory
  | invalidPublicKeySum
  | invalidParityValue
deriving DecidableEq, Repr

inductive Error where
  | invalidPublic
  | invalidSecret
  | invalidMessage
  | invalidSignature
  | custom (text : String)
deriving DecidableEq, Repr

namespace Error

/-- The error that stands for a fault.  What is not about one of the inputs is about the
signature. -/
def ofFault : Fault → Error
  | .invalidPublicKey => invalidPublic
  | .invalidSecretKey => invalidSecret
  | .invalidMessage => invalidMessage
  | _ => invalidSignature

def message : Error → String
  | invalidPublic => "Invalid Public"
  | invalidSecret => "Invalid Secret"
  | invalidMessage => "Invalid Message"
  | invalidSignature => "Invalid Signature"
  | custom text => text

def kind : Error → String
  | invalidPublic => "InvalidPublic"
  | invalidSecret => "InvalidSecret"
  | invalidMessage => "InvalidMessage"
  | invalidSignature => "InvalidSignature"
  | custom _ => "Custom"

def inspect : Error → String
  | custom text => "Custom(" ++ Text.quote text ++ ")"
  | error => error.kind

end Error
end Key
end LockScript
