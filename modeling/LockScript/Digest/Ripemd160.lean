import LockScript.Digest.Word

/-!
RIPEMD-160.

Two lines of 80 steps run beside each other over the same block, with different
word orders, shifts and constants, and are joined at its end.
-/

namespace LockScript
namespace Digest
namespace Ripemd160

open Word

structure State where
  a : UInt32
  b : UInt32
  c : UInt32
  d : UInt32
  e : UInt32
deriving DecidableEq

def start : State :=
  ⟨0x67452301, 0xefcdab89, 0x98badcfe, 0x10325476, 0xc3d2e1f0⟩

/-- How one of the two lines goes through its 80 steps: five passes of sixteen. -/
structure Line where
  /-- The word of the block that each step reads. -/
  order : List Nat
  shifts : List UInt32
  constants : List UInt32
  /-- The mixing function of each pass, by number. -/
  mixers : List Nat

def left : Line where
  order :=
    [0, 1, 2, 3, 4, 5, 6, 7, 8, 9, 10, 11, 12, 13, 14, 15,
     7, 4, 13, 1, 10, 6, 15, 3, 12, 0, 9, 5, 2, 14, 11, 8,
     3, 10, 14, 4, 9, 15, 8, 1, 2, 7, 0, 6, 13, 11, 5, 12,
     1, 9, 11, 10, 0, 8, 12, 4, 13, 3, 7, 15, 14, 5, 6, 2,
     4, 0, 5, 9, 7, 12, 2, 10, 14, 1, 3, 8, 11, 6, 15, 13]
  shifts :=
    [11, 14, 15, 12, 5, 8, 7, 9, 11, 13, 14, 15, 6, 7, 9, 8,
     7, 6, 8, 13, 11, 9, 7, 15, 7, 12, 15, 9, 11, 7, 13, 12,
     11, 13, 6, 7, 14, 9, 13, 15, 14, 8, 13, 6, 5, 12, 7, 5,
     11, 12, 14, 15, 14, 15, 9, 8, 9, 14, 5, 6, 8, 6, 5, 12,
     9, 15, 5, 11, 6, 8, 13, 12, 5, 12, 13, 14, 11, 8, 5, 6]
  constants := [0x00000000, 0x5a827999, 0x6ed9eba1, 0x8f1bbcdc, 0xa953fd4e]
  mixers := [0, 1, 2, 3, 4]

def right : Line where
  order :=
    [5, 14, 7, 0, 9, 2, 11, 4, 13, 6, 15, 8, 1, 10, 3, 12,
     6, 11, 3, 7, 0, 13, 5, 10, 14, 15, 8, 12, 4, 9, 1, 2,
     15, 5, 1, 3, 7, 14, 6, 9, 11, 8, 12, 2, 10, 0, 4, 13,
     8, 6, 4, 1, 3, 11, 15, 0, 5, 12, 2, 13, 9, 7, 10, 14,
     12, 15, 10, 4, 1, 5, 8, 7, 6, 2, 13, 14, 0, 3, 9, 11]
  shifts :=
    [8, 9, 9, 11, 13, 15, 15, 5, 7, 7, 8, 11, 14, 14, 12, 6,
     9, 13, 15, 7, 12, 8, 9, 11, 7, 7, 12, 7, 6, 15, 13, 11,
     9, 7, 15, 11, 8, 6, 6, 14, 12, 13, 5, 14, 13, 13, 7, 5,
     15, 5, 8, 11, 14, 14, 6, 14, 6, 9, 12, 9, 12, 5, 15, 8,
     8, 5, 12, 9, 12, 5, 14, 6, 8, 13, 6, 5, 15, 13, 11, 11]
  constants := [0x50a28be6, 0x5c4dd124, 0x6d703ef3, 0x7a6d76e9, 0x00000000]
  mixers := [4, 3, 2, 1, 0]

def mix (number : Nat) (x y z : UInt32) : UInt32 :=
  match number with
  | 0 => x ^^^ y ^^^ z
  | 1 => (x &&& y) ||| (~~~x &&& z)
  | 2 => (x ||| ~~~y) ^^^ z
  | 3 => (x &&& z) ||| (y &&& ~~~z)
  | _ => x ^^^ (y ||| ~~~z)

def step (mixer : Nat) (constant : UInt32) (s : State) (word shift : UInt32) : State :=
  let sum := s.a + mix mixer s.b s.c s.d + word + constant
  ⟨s.e, rotateLeft32 sum shift + s.e, s.b, rotateLeft32 s.c 10, s.d⟩

def Line.run (line : Line) (words : Array UInt32) (s : State) : State :=
  let passes := (chunks 16 line.order).zip (chunks 16 line.shifts)
  (passes.zip (line.mixers.zip line.constants)).foldl (fun s pass =>
    (pass.1.1.zip pass.1.2).foldl (fun s entry =>
      step pass.2.1 pass.2.2 s (words.getD entry.1 0) entry.2) s) s

def compress (s : State) (block : Bytes) : State :=
  let words := ((chunks 4 block).map ofBytesLE32).toArray
  let l := left.run words s
  let r := right.run words s
  ⟨s.b + l.c + r.d, s.c + l.d + r.e, s.d + l.e + r.a, s.e + l.a + r.b, s.a + l.b + r.c⟩

/-- The message, a one bit, zeros, and the length in bits in the last eight bytes. -/
def pad (message : Bytes) : Bytes :=
  let zeros := (119 - message.length % 64) % 64
  message ++ [0x80] ++ List.replicate zeros 0 ++ toBytesLE64 (UInt64.ofNat (8 * message.length))

def State.bytes (s : State) : Bytes :=
  [s.a, s.b, s.c, s.d, s.e].flatMap toBytesLE32

def digest (message : Bytes) : Bytes :=
  ((chunks 64 (pad message)).foldl compress start).bytes

@[simp] theorem length_digest (message : Bytes) : (digest message).length = 20 := rfl

end Ripemd160
end Digest
end LockScript
