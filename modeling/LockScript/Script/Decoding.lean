import LockScript.Script.Encoding

/-!
Reading scripts from bytes.

`Reader` walks over a byte string one instruction at a time and can be asked for
its position in between.  An error ends the walk: the position stays where
reading stopped, behind the opcode, and behind the length of a blob if that was
there, but never inside a blob.  `decode` is the whole walk.
-/

namespace LockScript

inductive DecodeError where
  | unknownOpcode (byte : UInt8)
  /-- The bytes end inside an instruction. -/
  | truncatedOperand
deriving DecidableEq, Repr

def DecodeError.message : DecodeError → String
  | .unknownOpcode byte => "Unknown opcode: 0x" ++ Text.Hex.shortUpper byte
  | .truncatedOperand => "The parameter of an opcode is expected but not exists"

namespace Script

/-- What an opcode byte asks for. -/
inductive Shape where
  | plain (instruction : Instruction)
  | byte (instruction : UInt8 → Instruction)
  /-- An instruction that wants a length and as many bytes. -/
  | blob (instruction : Bytes → Instruction)

def Shape.ofOpcode? (byte : UInt8) : Option Shape :=
  if byte = 0x00 then some (.plain .nop)
  else if byte = 0x01 then some (.plain .burn)
  else if byte = 0x10 then some (.plain .not)
  else if byte = 0x11 then some (.plain .eq)
  else if byte = 0x20 then some (.byte .jmp)
  else if byte = 0x21 then some (.byte .jnz)
  else if byte = 0x22 then some (.byte .jz)
  else if byte = 0x30 then some (.byte .push)
  else if byte = 0x31 then some (.plain .pop)
  else if byte = 0x32 then some (.blob .pushb)
  else if byte = 0x33 then some (.plain .dup)
  else if byte = 0x34 then some (.plain .swap)
  else if byte = 0x35 then some (.byte .copy)
  else if byte = 0x36 then some (.byte .drop)
  else if byte = 0x80 then some (.plain .chksig)
  else if byte = 0x90 then some (.plain (.digest .blake256))
  else if byte = 0x91 then some (.plain (.digest .sha256))
  else if byte = 0x92 then some (.plain (.digest .ripemd160))
  else if byte = 0x93 then some (.plain (.digest .keccak256))
  else none

/-- The instruction at the front of some bytes, and how many bytes were read for it.  An error comes
with the number of bytes read before it. -/
def readFirst (opcode : UInt8) (rest : Bytes) : Except (DecodeError × Nat) (Instruction × Nat) :=
  match Shape.ofOpcode? opcode with
  | none => .error (.unknownOpcode opcode, 1)
  | some (.plain instruction) => .ok (instruction, 1)
  | some (.byte instruction) =>
    match rest with
    | [] => .error (.truncatedOperand, 1)
    | value :: _ => .ok (instruction value, 2)
  | some (.blob instruction) =>
    match rest with
    | [] => .error (.truncatedOperand, 1)
    | length :: payload =>
      if length.toNat ≤ payload.length then
        .ok (instruction (payload.take length.toNat), 2 + length.toNat)
      else .error (.truncatedOperand, 2)

theorem readFirst_pos {opcode : UInt8} {rest : Bytes} {instruction : Instruction} {size : Nat}
    (h : readFirst opcode rest = .ok (instruction, size)) : 0 < size := by
  unfold readFirst at h
  repeat' split at h
  all_goals cases h
  all_goals omega

structure Reader where
  rest : Bytes
  position : Nat
  /-- An error has ended the walk. -/
  failed : Bool
deriving DecidableEq, Repr

namespace Reader

def ofBytes (bytes : Bytes) : Reader := ⟨bytes, 0, false⟩

def skip (reader : Reader) (size : Nat) : Reader :=
  { reader with rest := reader.rest.drop size, position := reader.position + size }

/-- The next instruction or the error in its place; nothing at the end and after an error. -/
def next (reader : Reader) : Option (Except DecodeError Instruction) × Reader :=
  if reader.failed then (none, reader)
  else match reader.rest with
    | [] => (none, reader)
    | opcode :: rest =>
      match readFirst opcode rest with
      | .ok (instruction, size) => (some (.ok instruction), reader.skip size)
      | .error (e, size) => (some (.error e), { reader.skip size with failed := true })

theorem length_rest_lt {reader behind : Reader} {instruction : Instruction}
    (h : reader.next = (some (.ok instruction), behind)) :
    behind.rest.length < reader.rest.length := by
  unfold next at h
  split at h
  · cases h
  split at h
  · cases h
  · rename_i opcode rest hrest
    split at h
    · rename_i size hread
      have hpos := readFirst_pos hread
      cases h
      simp only [skip, hrest, List.length_drop, List.length_cons]
      omega
    · cases h

/-- The words of the instructions that are still to come, or the error in their place. -/
def words (reader : Reader) : Except DecodeError (List String) :=
  match _h : reader.next with
  | (none, _) => .ok []
  | (some (.error e), _) => .error e
  | (some (.ok instruction), behind) => behind.words.map (instruction.tokens ++ ·)
termination_by reader.rest.length
decreasing_by exact length_rest_lt _h

end Reader

def decode (bytes : Bytes) : Except DecodeError Script :=
  match bytes with
  | [] => .ok []
  | opcode :: rest =>
    match _h : readFirst opcode rest with
    | .error (e, _) => .error e
    | .ok (instruction, size) => (decode ((opcode :: rest).drop size)).map (instruction :: ·)
termination_by bytes.length
decreasing_by
  have := readFirst_pos _h
  simp only [List.length_drop, List.length_cons]
  omega

/-- The words of the script that some bytes hold, taken down on a walk over them. -/
def tokenize (bytes : Bytes) : Except DecodeError (List String) :=
  (Reader.ofBytes bytes).words

end Script
end LockScript
