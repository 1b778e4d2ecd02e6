import LockScript.Digest.Word

/-!
Keccak-256 with its first padding: a single one bit behind the message.

The state is a square of five by five lanes of 64 bits; lane `(x, y)` is at
position `x + 5 * y`.  Blocks of 136 bytes are added to the first lanes, and the
permutation follows each of them.
-/

namespace LockScript
namespace Digest
namespace Keccak

open Word

abbrev State := Vector UInt64 25

/-- The number of bytes absorbed between two permutations. -/
def rate : Nat := 136

/-- How far each lane is turned. -/
def turns : Vector UInt64 25 :=
  #v[0, 1, 62, 28, 27,
     36, 44, 6, 55, 20,
     3, 10, 43, 25, 39,
     41, 45, 15, 21, 8,
     18, 2, 61, 56, 14]

def roundConstants : List UInt64 :=
  [0x0000000000000001, 0x0000000000008082, 0x800000000000808a, 0x8000000080008000,
   0x000000000000808b, 0x0000000080000001, 0x8000000080008081, 0x8000000000008009,
   0x000000000000008a, 0x0000000000000088, 0x0000000080008009, 0x000000008000000a,
   0x000000008000808b, 0x800000000000008b, 0x8000000000008089, 0x8000000000008003,
   0x8000000000008002, 0x8000000000000080, 0x000000000000800a, 0x800000008000000a,
   0x8000000080008081, 0x8000000000008080, 0x0000000080000001, 0x8000000080008008]

/-- The lane in column `x` and row `y`, both taken modulo five. -/
def lane (s : State) (x y : Nat) : UInt64 :=
  s[x % 5 + 5 * (y % 5)]

/-- Adds to every lane the parity of the columns beside it. -/
def theta (s : State) : State :=
  let parity := Vector.ofFn (fun x : Fin 5 =>
    lane s x 0 ^^^ lane s x 1 ^^^ lane s x 2 ^^^ lane s x 3 ^^^ lane s x 4)
  let change := Vector.ofFn (fun x : Fin 5 =>
    parity[(x.val + 4) % 5] ^^^ rotateLeft64 parity[(x.val + 1) % 5] 1)
  Vector.ofFn (fun i : Fin 25 => s[i] ^^^ change[i.val % 5])

/-- Turns every lane and moves it to its new place. -/
def rhoPi (s : State) : State :=
  Vector.ofFn (fun i : Fin 25 =>
    let x := i.val % 5
    let y := i.val / 5
    let source := (x + 3 * y) % 5 + 5 * x
    rotateLeft64 (s[source]) (turns[source]))

/-- Combines every lane with the two behind it in its row. -/
def chi (s : State) : State :=
  Vector.ofFn (fun i : Fin 25 =>
    let x := i.val % 5
    let y := i.val / 5
    s[i] ^^^ (~~~lane s (x + 1) y &&& lane s (x + 2) y))

def round (s : State) (constant : UInt64) : State :=
  let s := chi (rhoPi (theta s))
  s.set 0 (s[0] ^^^ constant)

def permute (s : State) : State :=
  roundConstants.foldl round s

/-- Adds a block of `rate` bytes to the first lanes and permutes. -/
def absorb (s : State) (block : Bytes) : State :=
  let words := ((chunks 8 block).map ofBytesLE64).toArray
  permute (Vector.ofFn (fun i : Fin 25 => s[i] ^^^ words.getD i 0))

/-- The message, a one bit, zeros, and a one bit at the end of the last block. -/
def pad (message : Bytes) : Bytes :=
  let room := rate - message.length % rate
  message ++ (if room = 1 then [0x81] else 0x01 :: List.replicate (room - 2) 0 ++ [0x80])

def firstBytes (s : State) : Bytes :=
  [s[0], s[1], s[2], s[3]].flatMap toBytesLE64

def digest (message : Bytes) : Bytes :=
  firstBytes ((chunks rate (pad message)).foldl absorb (Vector.replicate 25 0))

@[simp] theorem length_digest (message : Bytes) : (digest message).length = 32 := rfl

end Keccak
end Digest
end LockScript
