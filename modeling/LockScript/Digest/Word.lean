import LockScript.Bytes

/-!
Machine words and the bytes they are made of.

The digest functions read their input as words of 32 or 64 bits in one of the two
byte orders, and turn words to the left or to the right.
-/

namespace LockScript
namespace Digest

/-- A list cut into pieces of `size`, the last one perhaps shorter. -/
def chunks {α : Type} (size : Nat) (list : List α) : List (List α) :=
  match list with
  | [] => []
  | first :: rest => (first :: rest.take (size - 1)) :: chunks size (rest.drop (size - 1))
termination_by list.length
decreasing_by
  simp only [List.length_drop, List.length_cons]
  omega

namespace Word

def ofBytesBE32 (bytes : Bytes) : UInt32 :=
  bytes.foldl (fun word byte => word <<< 8 ||| byte.toUInt32) 0

def ofBytesLE32 (bytes : Bytes) : UInt32 :=
  bytes.foldr (fun byte word => word <<< 8 ||| byte.toUInt32) 0

def ofBytesLE64 (bytes : Bytes) : UInt64 :=
  bytes.foldr (fun byte word => word <<< 8 ||| byte.toUInt64) 0

def toBytesBE32 (word : UInt32) : Bytes :=
  [(word >>> 24).toUInt8, (word >>> 16).toUInt8, (word >>> 8).toUInt8, word.toUInt8]

def toBytesLE32 (word : UInt32) : Bytes :=
  [word.toUInt8, (word >>> 8).toUInt8, (word >>> 16).toUInt8, (word >>> 24).toUInt8]

def toBytesLE64 (word : UInt64) : Bytes :=
  toBytesLE32 word.toUInt32 ++ toBytesLE32 (word >>> 32).toUInt32

def toBytesBE64 (word : UInt64) : Bytes :=
  toBytesBE32 (word >>> 32).toUInt32 ++ toBytesBE32 word.toUInt32

/-- A 32-bit word turned to the left by an amount between 1 and 31. -/
def rotateLeft32 (word amount : UInt32) : UInt32 :=
  word <<< amount ||| word >>> (32 - amount)

/-- A 32-bit word turned to the right by an amount between 1 and 31. -/
def rotateRight32 (word amount : UInt32) : UInt32 :=
  word >>> amount ||| word <<< (32 - amount)

/-- A 64-bit word turned to the left by an amount below 64. -/
def rotateLeft64 (word amount : UInt64) : UInt64 :=
  word <<< amount ||| word >>> (64 - amount)

/-- A 64-bit word turned to the right by an amount between 1 and 63. -/
def rotateRight64 (word amount : UInt64) : UInt64 :=
  word >>> amount ||| word <<< (64 - amount)

@[simp] theorem length_toBytesBE32 (word : UInt32) : (toBytesBE32 word).length = 4 := rfl

@[simp] theorem length_toBytesLE32 (word : UInt32) : (toBytesLE32 word).length = 4 := rfl

@[simp] theorem length_toBytesLE64 (word : UInt64) : (toBytesLE64 word).length = 8 := rfl

end Word
end Digest
end LockScript
