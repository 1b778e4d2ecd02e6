import LockScript.Digest.Blake2b
import LockScript.Digest.Keccak
import LockScript.Digest.Ripemd160
import LockScript.Digest.Sha256

/-!
The four digest algorithms a script can ask for, their names and their digests.
-/

namespace LockScript
namespace Digest

/-- A digest algorithm.  `blake256` is BLAKE2b with a digest of 32 bytes, and
`keccak256` pads as Keccak did before it became SHA-3. -/
inductive Algorithm where
  | blake256
  | sha256
  | ripemd160
  | keccak256
deriving DecidableEq, Repr

namespace Algorithm

/-- All algorithms, in the order of their opcodes. -/
def all : List Algorithm := [blake256, sha256, ripemd160, keccak256]

def name : Algorithm → String
  | blake256 => "blake256"
  | sha256 => "sha256"
  | ripemd160 => "ripemd160"
  | keccak256 => "keccak256"

/-- The algorithm of a name.  Case matters. -/
def ofName? (text : String) : Option Algorithm :=
  all.find? (fun algorithm => algorithm.name == text)

def mnemonic : Algorithm → String
  | blake256 => "BLAKE256"
  | sha256 => "SHA256"
  | ripemd160 => "RIPEMD160"
  | keccak256 => "KECCAK256"

def size : Algorithm → Nat
  | ripemd160 => 20
  | _ => 32

theorem ofName?_name (algorithm : Algorithm) : ofName? algorithm.name = some algorithm := by
  cases algorithm <;> decide

def digest (algorithm : Algorithm) (message : Bytes) : Bytes :=
  match algorithm with
  | .blake256 => Blake2b.digest message
  | .sha256 => Sha256.digest message
  | .ripemd160 => Ripemd160.digest message
  | .keccak256 => Keccak.digest message

@[simp] theorem length_digest (algorithm : Algorithm) (message : Bytes) :
    (algorithm.digest message).length = algorithm.size := by
  cases algorithm <;> rfl

end Algorithm
end Digest
end LockScript
