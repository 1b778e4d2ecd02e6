import LockScript.Bytes
import LockScript.Key.Error
import LockScript.Text.Hex

/-!
Messages, keys and signatures as byte strings, and their texts.
-/

namespace LockScript
namespace Key

/-- The digest that is signed. -/
abbrev Message := Octets 32

/-- A private key: a number, most significant byte first. -/
abbrev PrivateKey := Octets 32

/-- A public key: both coordinates of a point. -/
abbrev PublicKey := Octets 64

structure Signature where
  /-- The first coordinate of the nonce's point. -/
  r : Octets 32
  s : Octets 32
  /-- Which of the points with that first coordinate is meant. -/
  v : UInt8
deriving DecidableEq

namespace Signature

def size : Nat := 65

def bytes (signature : Signature) : Bytes :=
  signature.r.bytes ++ signature.s.bytes ++ [signature.v]

@[simp] theorem length_bytes (signature : Signature) : signature.bytes.length = size := by
  simp [bytes, size, signature.r.length_bytes, signature.s.length_bytes]

def ofOctets (octets : Octets 65) : Signature where
  r := Octets.takeLeft (m := 32) (n := 33) octets
  s := Octets.takeLeft (m := 32) (n := 1) (Octets.takeRight (m := 32) (n := 33) octets)
  v := octets.bytes.getD 64 0

def ofBytes (bytes : Bytes) : Except Error Signature :=
  match Octets.ofBytes? 65 bytes with
  | some octets => .ok (ofOctets octets)
  | none => .error .invalidSignature

def zero : Signature := ⟨Octets.zero 32, Octets.zero 32, 0⟩

def text (signature : Signature) : String :=
  Text.Hex.encode signature.bytes

/-- The signature of a text.  Whatever is wrong with the text is wrong with the signature. -/
def ofText (text : String) : Except Error Signature :=
  match Text.Hex.decode text with
  | .ok bytes => ofBytes bytes
  | .error _ => .error .invalidSignature

def inspect (signature : Signature) : String :=
  let part (bytes : Bytes) := Text.quote (Text.Hex.encode bytes)
  "Signature \x7b r: " ++ part signature.r.bytes ++ ", s: " ++ part signature.s.bytes ++
    ", v: " ++ part [signature.v] ++ " \x7d"

end Signature
end Key
end LockScript
