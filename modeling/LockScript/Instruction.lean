import LockScript.Digest.Algorithm
import LockScript.Text.Hex

/-!
The instructions of a lock script and the words they are written in.

An instruction has an opcode byte, and at most one operand: a byte, or a blob
that carries its own length.  The four digest instructions differ only in the
algorithm they name, so they are one constructor.
-/

namespace LockScript

inductive Instruction where
  | nop
  | burn
  | not
  | eq
  | jmp (target : UInt8)
  | jnz (target : UInt8)
  | jz (target : UInt8)
  | push (value : UInt8)
  | pop
  | pushb (blob : Bytes)
  | dup
  | swap
  | copy (depth : UInt8)
  | drop (depth : UInt8)
  | chksig
  | digest (algorithm : Digest.Algorithm)
deriving DecidableEq, Repr

namespace Instruction

def opcode : Instruction → UInt8
  | nop => 0x00
  | burn => 0x01
  | not => 0x10
  | eq => 0x11
  | jmp _ => 0x20
  | jnz _ => 0x21
  | jz _ => 0x22
  | push _ => 0x30
  | pop => 0x31
  | pushb _ => 0x32
  | dup => 0x33
  | swap => 0x34
  | copy _ => 0x35
  | drop _ => 0x36
  | chksig => 0x80
  | digest .blake256 => 0x90
  | digest .sha256 => 0x91
  | digest .ripemd160 => 0x92
  | digest .keccak256 => 0x93

def mnemonic : Instruction → String
  | nop => "NOP"
  | burn => "BURN"
  | not => "NOT"
  | eq => "EQ"
  | jmp _ => "JMP"
  | jnz _ => "JNZ"
  | jz _ => "JZ"
  | push _ => "PUSH"
  | pop => "POP"
  | pushb _ => "PUSHB"
  | dup => "DUP"
  | swap => "SWAP"
  | copy _ => "COPY"
  | drop _ => "DROP"
  | chksig => "CHKSIG"
  | digest algorithm => algorithm.mnemonic

inductive Operand where
  | none
  | byte (value : UInt8)
  | blob (value : Bytes)
deriving DecidableEq, Repr

def operand : Instruction → Operand
  | jmp value | jnz value | jz value | push value | copy value | drop value => .byte value
  | pushb value => .blob value
  | _ => .none

/-- The literal an operand is written as: a byte without a leading zero, a blob with two digits a
byte. -/
def Operand.token? : Operand → Option String
  | .none => Option.none
  | .byte value => some ("0x" ++ Text.Hex.shortUpper value)
  | .blob value => some ("0x" ++ Text.Hex.encodeUpper value)

def tokens (instruction : Instruction) : List String :=
  instruction.mnemonic :: instruction.operand.token?.toList

def text (instruction : Instruction) : String :=
  " ".intercalate instruction.tokens

/-- The value an instruction leaves on the stack without looking at it. -/
def pushed? : Instruction → Option Bytes
  | push value => some [value]
  | pushb blob => some blob
  | _ => none

end Instruction
end LockScript
