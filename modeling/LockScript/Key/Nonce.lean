import LockScript.Digest.Sha256
import LockScript.Key.Signature

/-!
Nonces that follow from the private key and the message.

A generator seeded with both yields candidates of 32 bytes, each a keyed digest
of the one before.  The same key and message give the same candidates, so a
signature does not hang on chance.
-/

namespace LockScript
namespace Key
namespace Nonce

open Digest.Sha256

structure Generator where
  key : Bytes
  value : Bytes
deriving DecidableEq

namespace Generator

def stir (generator : Generator) (mark : UInt8) (material : Bytes) : Generator :=
  let key := hmac generator.key (generator.value ++ [mark] ++ material)
  ⟨key, hmac key generator.value⟩

def seeded (material : Bytes) : Generator :=
  let blank : Generator := ⟨List.replicate 32 0, List.replicate 32 1⟩
  (blank.stir 0 material).stir 1 material

/-- The next candidate, and the generator that is ready for the one after it. -/
def draw (generator : Generator) : Bytes × Generator :=
  let value := hmac generator.key generator.value
  (value, stir ⟨generator.key, value⟩ 0 [])

end Generator
end Nonce
end Key
end LockScript
