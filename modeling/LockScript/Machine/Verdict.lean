/-!
How a run ends.
-/

namespace LockScript
namespace Machine

inductive Reason where
  | stackUnderflow
  | stackOverflow
  | valueTooLarge
  | outOfMemory
  | indexOutOfBound
  | invalidJumpTarget
  | typeMismatch
  | stepLimitExceeded
  | invalidUnlockScript
  | tooManySignatureChecks
  /-- The script ran to its end and left a single false value. -/
  | falseResult
  /-- The script ran to its end and left more than one value. -/
  | uncleanStack
deriving DecidableEq, Repr

namespace Reason

def name : Reason → String
  | stackUnderflow => "StackUnderflow"
  | stackOverflow => "StackOverflow"
  | valueTooLarge => "ValueTooLarge"
  | outOfMemory => "OutOfMemory"
  | indexOutOfBound => "IndexOutOfBound"
  | invalidJumpTarget => "InvalidJumpTarget"
  | typeMismatch => "TypeMismatch"
  | stepLimitExceeded => "StepLimitExceeded"
  | invalidUnlockScript => "InvalidUnlockScript"
  | tooManySignatureChecks => "TooManySignatureChecks"
  | falseResult => "FalseResult"
  | uncleanStack => "UncleanStack"

def message : Reason → String
  | stackUnderflow => "Stack underflow"
  | stackOverflow => "Stack depth limit exceeded"
  | valueTooLarge => "Value size limit exceeded"
  | outOfMemory => "Stack memory limit exceeded"
  | indexOutOfBound => "Stack index out of bound"
  | invalidJumpTarget => "Invalid jump target"
  | typeMismatch => "Operand of unexpected length"
  | stepLimitExceeded => "Step limit exceeded"
  | invalidUnlockScript => "Unlock script must only push values"
  | tooManySignatureChecks => "Too many signature checks"
  | falseResult => "Script evaluated to false"
  | uncleanStack => "Stack holds more than the result"

end Reason

inductive Verdict where
  | accepted
  | burned
  | rejected (reason : Reason)
deriving DecidableEq, Repr

namespace Verdict

def name : Verdict → String
  | accepted => "Accepted"
  | burned => "Burned"
  | rejected _ => "Rejected"

def reason? : Verdict → Option Reason
  | rejected reason => some reason
  | _ => none

def text : Verdict → String
  | rejected reason => "Rejected: " ++ reason.message
  | verdict => verdict.name

end Verdict
end Machine
end LockScript
