import LockScript.Digest.Algorithm
import LockScript.Key.Ecdsa
import LockScript.Machine.Stack
import LockScript.Script.Basic

/-!
Running a script.

A run starts at the first instruction and follows the jumps until it leaves the
script at its end, burns, fails or has used up its steps.  What it did is the list
of the instructions that were completed, each with the stack it left.
-/

namespace LockScript
namespace Machine

/-- What stays the same during a run. -/
structure Context where
  /-- The message that signatures are checked against. -/
  message : Key.Message := Octets.zero 32
  limits : Limits := Limits.standard

inductive Effect where
  | next (pc : Nat) (stack : Stack)
  /-- The run ends, and what was locked is gone. -/
  | burned
deriving DecidableEq, Repr

/-- A jump may go to any instruction and to the end. -/
def jumpTarget (length : Nat) (target : UInt8) : Except Reason Nat :=
  if target.toNat ≤ length then .ok target.toNat else .error .invalidJumpTarget

/-- A signature checks only if nothing is wrong with it and with the key. -/
def signatureHolds (key : Key.PublicKey) (signature : Octets 65) (message : Key.Message) : Bool :=
  match Key.verify key (.ofOctets signature) message with
  | .ok valid => valid
  | .error _ => false

/-- Carries out one instruction at position `pc` of a script of `length` instructions. -/
def perform (context : Context) (length pc : Nat) (stack : Stack) :
    Instruction → Except Reason Effect
  | .nop => return .next (pc + 1) stack
  | .burn => return .burned
  | .not => do
    let (value, stack) ← stack.pop
    return .next (pc + 1) (← stack.push context.limits (ofBool (!isTrue value)))
  | .eq => do
    let (first, stack) ← stack.pop
    let (second, stack) ← stack.pop
    return .next (pc + 1) (← stack.push context.limits (ofBool (first == second)))
  | .jmp target => return .next (← jumpTarget length target) stack
  | .jnz target => do
    let (condition, stack) ← stack.pop
    if isTrue condition then return .next (← jumpTarget length target) stack
    else return .next (pc + 1) stack
  | .jz target => do
    let (condition, stack) ← stack.pop
    if isTrue condition then return .next (pc + 1) stack
    else return .next (← jumpTarget length target) stack
  | .push value => return .next (pc + 1) (← stack.push context.limits [value])
  | .pop => do
    let (_, stack) ← stack.pop
    return .next (pc + 1) stack
  | .pushb blob => return .next (pc + 1) (← stack.push context.limits blob)
  | .dup => do
    let (top, stack) ← stack.pop
    let stack ← stack.push context.limits top
    return .next (pc + 1) (← stack.push context.limits top)
  | .swap => do
    let (first, stack) ← stack.pop
    let (second, stack) ← stack.pop
    let stack ← stack.push context.limits first
    return .next (pc + 1) (← stack.push context.limits second)
  | .copy depth => do
    let value ← stack.get depth.toNat
    return .next (pc + 1) (← stack.push context.limits value)
  | .drop depth => return .next (pc + 1) (← stack.remove depth.toNat)
  | .chksig => do
    let (key, stack) ← stack.popSized 64
    let (signature, stack) ← stack.popSized 65
    let holds := signatureHolds key signature context.message
    return .next (pc + 1) (← stack.push context.limits (ofBool holds))
  | .digest algorithm => do
    let (value, stack) ← stack.pop
    return .next (pc + 1) (← stack.push context.limits (algorithm.digest value))

/-- The verdict at the end of a script: a single true value is what it takes. -/
def conclude (stack : Stack) : Verdict :=
  match stack.items with
  | [] => .rejected .stackUnderflow
  | [value] => if isTrue value then .accepted else .rejected .falseResult
  | _ => .rejected .uncleanStack

/-- A completed instruction. -/
structure Step where
  pc : Nat
  instruction : Instruction
  /-- The stack behind it. -/
  stack : Stack
deriving DecidableEq, Repr

structure Run where
  steps : List Step
  verdict : Verdict
deriving DecidableEq, Repr

/-- Runs from a position with a stack, for at most `budget` steps.  The steps made before are in
`done`, the last one first. -/
def runFrom (context : Context) (script : Script) :
    (budget pc : Nat) → Stack → (done : List Step) → Run
  | budget, pc, stack, done =>
    match script[pc]? with
    | none => ⟨done.reverse, conclude stack⟩
    | some instruction =>
      match budget with
      | 0 => ⟨done.reverse, .rejected .stepLimitExceeded⟩
      | budget + 1 =>
        match perform context script.length pc stack instruction with
        | .error reason => ⟨done.reverse, .rejected reason⟩
        | .ok .burned => ⟨done.reverse, .burned⟩
        | .ok (.next target stack) =>
          runFrom context script budget target stack (⟨pc, instruction, stack⟩ :: done)

def run (context : Context) (script : Script) (stack : Stack) : Run :=
  runFrom context script context.limits.maxSteps 0 stack []

end Machine
end LockScript
