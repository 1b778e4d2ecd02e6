import LockScript.Script.Basic

/-!
Writing scripts as bytes.

The only instruction that cannot be written is a blob of more than 255 bytes,
whose length has one byte of room.  `emit` says what reaches the output in that
case too: the opcode is written before the length is looked at.
-/

namespace LockScript

inductive EncodeError where
  /-- A blob whose length does not fit in a byte. -/
  | blobTooLong (length : Nat)
deriving DecidableEq, Repr

def EncodeError.message : EncodeError → String
  | .blobTooLong length => s!"PUSHB cannot carry {length} bytes"

namespace Instruction

def operandBytes (instruction : Instruction) : Except EncodeError Bytes :=
  match instruction.operand with
  | .none => .ok []
  | .byte value => .ok [value]
  | .blob value =>
    if value.length ≤ 255 then .ok (UInt8.ofNat value.length :: value)
    else .error (.blobTooLong value.length)

/-- The bytes written for an instruction, and the error that cut them short. -/
def emit (instruction : Instruction) : Bytes × Option EncodeError :=
  match instruction.operandBytes with
  | .ok bytes => (instruction.opcode :: bytes, none)
  | .error e => ([instruction.opcode], some e)

def encode (instruction : Instruction) : Except EncodeError Bytes :=
  instruction.operandBytes.map (instruction.opcode :: ·)

end Instruction

namespace Script

/-- The bytes of a script, or the error of the first instruction that has none. -/
def encode : Script → Except EncodeError Bytes
  | [] => .ok []
  | instruction :: rest => do
    let bytes ← instruction.encode
    return bytes ++ (← encode rest)

end Script
end LockScript
