import LockScript.Digest.Word

/-!
BLAKE2b with a digest of 32 bytes and no key.

Every block of 128 bytes stirs a state of eight words through twelve rounds.  The
last block is filled with zeros; the count of message bytes and a mark on the last
block keep messages apart that would fill to the same bytes.
-/

namespace LockScript
namespace Digest
namespace Blake2b

open Word

def constants : Vector UInt64 8 :=
  #v[0x6a09e667f3bcc908, 0xbb67ae8584caa73b, 0x3c6ef372fe94f82b, 0xa54ff53a5f1d36f1,
     0x510e527fade682d1, 0x9b05688c2b3e6c1f, 0x1f83d9abfb41bd6b, 0x5be0cd19137e2179]

/-- The order in which each round reads the words of the block. -/
def orders : List (Vector (Fin 16) 16) :=
  [#v[0, 1, 2, 3, 4, 5, 6, 7, 8, 9, 10, 11, 12, 13, 14, 15],
   #v[14, 10, 4, 8, 9, 15, 13, 6, 1, 12, 0, 2, 11, 7, 5, 3],
   #v[11, 8, 12, 0, 5, 2, 15, 13, 10, 14, 3, 6, 7, 1, 9, 4],
   #v[7, 9, 3, 1, 13, 12, 11, 14, 2, 6, 5, 10, 4, 0, 15, 8],
   #v[9, 0, 5, 7, 2, 4, 10, 15, 14, 1, 11, 12, 6, 8, 3, 13],
   #v[2, 12, 6, 10, 0, 11, 8, 3, 4, 13, 7, 5, 15, 14, 1, 9],
   #v[12, 5, 1, 15, 14, 13, 4, 10, 0, 7, 6, 3, 9, 2, 8, 11],
   #v[13, 11, 7, 14, 12, 1, 3, 9, 5, 0, 15, 4, 8, 6, 2, 10],
   #v[6, 15, 14, 9, 11, 3, 0, 8, 12, 2, 13, 7, 1, 4, 10, 5],
   #v[10, 2, 8, 4, 7, 6, 1, 5, 15, 11, 9, 14, 3, 12, 13, 0],
   #v[0, 1, 2, 3, 4, 5, 6, 7, 8, 9, 10, 11, 12, 13, 14, 15],
   #v[14, 10, 4, 8, 9, 15, 13, 6, 1, 12, 0, 2, 11, 7, 5, 3]]

/-- Mixes two message words into four words of the working vector. -/
def mix (v : Vector UInt64 16) (a b c d : Fin 16) (x y : UInt64) : Vector UInt64 16 :=
  let va := v[a] + v[b] + x
  let vd := rotateRight64 (v[d] ^^^ va) 32
  let vc := v[c] + vd
  let vb := rotateRight64 (v[b] ^^^ vc) 24
  let va := va + vb + y
  let vd := rotateRight64 (vd ^^^ va) 16
  let vc := vc + vd
  let vb := rotateRight64 (vb ^^^ vc) 63
  (((v.set a va).set b vb).set c vc).set d vd

/-- One round: the columns, then the diagonals. -/
def round (words : Vector UInt64 16) (v : Vector UInt64 16) (order : Vector (Fin 16) 16) :
    Vector UInt64 16 :=
  let word (i : Fin 16) := words[order[i]]
  let v := mix v 0 4 8 12 (word 0) (word 1)
  let v := mix v 1 5 9 13 (word 2) (word 3)
  let v := mix v 2 6 10 14 (word 4) (word 5)
  let v := mix v 3 7 11 15 (word 6) (word 7)
  let v := mix v 0 5 10 15 (word 8) (word 9)
  let v := mix v 1 6 11 12 (word 10) (word 11)
  let v := mix v 2 7 8 13 (word 12) (word 13)
  mix v 3 4 9 14 (word 14) (word 15)

/-- The words of a block, zeros behind the last byte. -/
def blockWords (block : Bytes) : Vector UInt64 16 :=
  let words := ((chunks 8 block).map ofBytesLE64).toArray
  Vector.ofFn (fun i => words.getD i 0)

/-- The state after a block; `count` bytes have been read with it. -/
def compress (state : Vector UInt64 8) (block : Bytes) (count : Nat) (last : Bool) :
    Vector UInt64 8 :=
  let tail := constants
    |>.set 4 (constants[4] ^^^ UInt64.ofNat count)
    |>.set 5 (constants[5] ^^^ UInt64.ofNat (count / UInt64.size))
  let tail := if last then tail.set 6 (~~~tail[6]) else tail
  let v := orders.foldl (round (blockWords block)) (state ++ tail)
  Vector.ofFn (fun i : Fin 8 => state[i] ^^^ v[i.val] ^^^ v[i.val + 8])

/-- Runs over the blocks of a message; `count` bytes have been read before them. -/
def absorb (state : Vector UInt64 8) (count : Nat) : List Bytes → Vector UInt64 8
  | [] => compress state [] count true
  | [block] => compress state block (count + block.length) true
  | block :: rest =>
    absorb (compress state block (count + block.length) false) (count + block.length) rest

/-- The state before the first block: digest size 32, no key, no tree. -/
def start : Vector UInt64 8 :=
  constants.set 0 (constants[0] ^^^ 0x01010020)

def firstBytes (state : Vector UInt64 8) : Bytes :=
  [state[0], state[1], state[2], state[3]].flatMap toBytesLE64

def digest (message : Bytes) : Bytes :=
  firstBytes (absorb start 0 (chunks 128 message))

@[simp] theorem length_digest (message : Bytes) : (digest message).length = 32 := rfl

end Blake2b
end Digest
end LockScript
