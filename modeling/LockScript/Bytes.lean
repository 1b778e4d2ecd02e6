/-!
Byte strings and the numbers they denote.

Scripts, stack values, keys and digests are lists of bytes.  `Octets size` is a
byte string whose length is part of its type, for the fields of a fixed width:
messages, keys and the two numbers of a signature.
-/

namespace LockScript

abbrev Bytes := List UInt8

namespace Bytes

/-- The number a byte string denotes, most significant byte first. -/
def toNat (bytes : Bytes) : Nat :=
  bytes.foldl (fun n byte => n * 256 + byte.toNat) 0

/-- The `size` low bytes of a number, most significant byte first. -/
def ofNat : (size n : Nat) → Bytes
  | 0, _ => []
  | size + 1, n => ofNat size (n / 256) ++ [UInt8.ofNat n]

@[simp] theorem length_ofNat (size n : Nat) : (ofNat size n).length = size := by
  induction size generalizing n with
  | zero => rfl
  | succ size ih => simp [ofNat, ih]

@[simp] theorem toNat_nil : toNat [] = 0 := rfl

theorem toNat_append_singleton (bytes : Bytes) (byte : UInt8) :
    toNat (bytes ++ [byte]) = toNat bytes * 256 + byte.toNat := by
  simp [toNat]

/-- Writing a number and reading it back keeps what fits in the width. -/
theorem toNat_ofNat (size n : Nat) : toNat (ofNat size n) = n % Nat.pow 256 size := by
  induction size generalizing n with
  | zero => simp [ofNat, Nat.mod_one]
  | succ size ih =>
    have low : (UInt8.ofNat n).toNat = n % 256 := by simp
    have width : Nat.pow 256 (size + 1) = 256 * Nat.pow 256 size := Nat.mul_comm _ _
    rw [ofNat, toNat_append_singleton, ih, low, width, Nat.mod_mul]
    omega

end Bytes

structure Octets (size : Nat) where
  bytes : Bytes
  length_bytes : bytes.length = size
deriving DecidableEq

namespace Octets

def ofBytes? (size : Nat) (bytes : Bytes) : Option (Octets size) :=
  if h : bytes.length = size then some ⟨bytes, h⟩ else none

/-- The big-endian writing of a number, cut to the width. -/
def ofNat (size n : Nat) : Octets size :=
  ⟨Bytes.ofNat size n, Bytes.length_ofNat size n⟩

def zero (size : Nat) : Octets size :=
  ⟨List.replicate size 0, List.length_replicate⟩

def toNat {size : Nat} (octets : Octets size) : Nat :=
  octets.bytes.toNat

def append {m n : Nat} (a : Octets m) (b : Octets n) : Octets (m + n) :=
  ⟨a.bytes ++ b.bytes, by rw [List.length_append, a.length_bytes, b.length_bytes]⟩

def takeLeft {m n : Nat} (a : Octets (m + n)) : Octets m :=
  ⟨a.bytes.take m, by rw [List.length_take, a.length_bytes]; omega⟩

def takeRight {m n : Nat} (a : Octets (m + n)) : Octets n :=
  ⟨a.bytes.drop m, by rw [List.length_drop, a.length_bytes]; omega⟩

theorem ofBytes?_eq_some {size : Nat} {bytes : Bytes} {octets : Octets size} :
    ofBytes? size bytes = some octets ↔ octets.bytes = bytes := by
  unfold ofBytes?
  constructor
  · intro h
    split at h
    · exact (Option.some.inj h) ▸ rfl
    · exact absurd h (by simp)
  · intro h
    subst h
    simp [octets.length_bytes]

end Octets
end LockScript
