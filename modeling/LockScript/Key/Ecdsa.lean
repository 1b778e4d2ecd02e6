import LockScript.Curve.Point
import LockScript.Key.Nonce

/-!
Signing, verifying and recovering on the curve.

The functions under `Ecdsa` work on numbers and points and report a `Fault`; those
under `Key` take byte strings and report an `Error`.  Messages count modulo the
order of the curve.  Signing always gives the smaller of the two possible values
of `s`, and verifying accepts no other; recovering takes both.
-/

namespace LockScript
namespace Key

open Curve

namespace Ecdsa

/-- The largest value of `s` that verifies. -/
def halfOrder : Nat := order / 2

def secret (key : PrivateKey) : Except Fault Nat :=
  let d := key.toNat
  if d = 0 ∨ order ≤ d then .error .invalidSecretKey else .ok d

def publicPoint (key : PublicKey) : Except Fault Point :=
  let x := (Octets.takeLeft (m := 32) (n := 32) key).toNat
  let y := (Octets.takeRight (m := 32) (n := 32) key).toNat
  if isOnCurve x y then .ok (.affine x y) else .error .invalidPublicKey

/-- The public key of a point; the point at infinity has none. -/
def publicKey? : Point → Option PublicKey
  | .infinity => none
  | .affine x y => some (Octets.append (m := 32) (n := 32) (Octets.ofNat 32 x) (Octets.ofNat 32 y))

def scalar (message : Message) : Nat := message.toNat % order

structure Numbers where
  r : Nat
  s : Nat
  /-- The second coordinate of the nonce's point is odd. -/
  odd : Bool
  /-- The first coordinate of the nonce's point is `r + order`. -/
  wrapped : Bool
deriving DecidableEq, Repr

/-- The two numbers of a signature are below the order, and its last byte below four. -/
def numbers (signature : Signature) : Except Fault Numbers :=
  if 3 < signature.v then .error .invalidRecoveryId
  else if order ≤ signature.r.toNat ∨ order ≤ signature.s.toNat then .error .invalidSignature
  else .ok ⟨signature.r.toNat, signature.s.toNat, signature.v % 2 == 1, 2 ≤ signature.v⟩

def Numbers.signature (n : Numbers) : Signature where
  r := Octets.ofNat 32 n.r
  s := Octets.ofNat 32 n.s
  v := (if n.odd then 1 else 0) + (if n.wrapped then 2 else 0)

/-- Signing with a given nonce.  There is no signature if a number comes out as zero. -/
def signWith? (d z k : Nat) : Option Numbers :=
  match generator.mul k with
  | .infinity => none
  | .affine x y =>
    let r := x % order
    let s := Modular.inverse order k * (z + r * d) % order
    if r = 0 ∨ s = 0 then none
    else
      let odd := y % 2 == 1
      let wrapped := decide (order ≤ x)
      if s ≤ halfOrder then some ⟨r, s, odd, wrapped⟩ else some ⟨r, order - s, !odd, wrapped⟩

/-- Signing with the first of the next `attempts` candidates that serves. -/
def signFrom? (d z : Nat) : (attempts : Nat) → Nonce.Generator → Option Numbers
  | 0, _ => none
  | attempts + 1, generator =>
    let (candidate, generator) := generator.draw
    let k := candidate.toNat
    let found := if k = 0 ∨ order ≤ k then none else signWith? d z k
    match found with
    | some numbers => some numbers
    | none => signFrom? d z attempts generator

/-- How many candidates are tried.  One in more than `2 ^ 127` fails. -/
def maxAttempts : Nat := 64

/-- The signature equation: the nonce's point, computed from the public key, has `r` as its first
coordinate modulo the order. -/
def satisfies (q : Point) (z r s : Nat) : Bool :=
  let w := Modular.inverse order s
  match (generator.mul (z * w % order)).add (q.mul (r * w % order)) with
  | .infinity => false
  | .affine x _ => x % order == r

/-- Verifying: neither number is zero, `s` is the smaller one, and the equation holds. -/
def verify (q : Point) (z : Nat) (n : Numbers) : Bool :=
  n.r ≠ 0 && n.s ≠ 0 && n.s ≤ halfOrder && satisfies q z n.r n.s

def noncePoint? (n : Numbers) : Option Point :=
  if n.wrapped then
    if n.r + order < prime then Point.withX? (n.r + order) n.odd else none
  else Point.withX? n.r n.odd

def recover (z : Nat) (n : Numbers) : Except Fault PublicKey :=
  if n.r = 0 ∨ n.s = 0 then .error .invalidSignature
  else match noncePoint? n with
    | none => .error .invalidSignature
    | some point =>
      let w := Modular.inverse order n.r
      let q := (generator.mul ((order - z) * w % order)).add (point.mul (n.s * w % order))
      match publicKey? q with
      | some key => .ok key
      | none => .error .invalidSignature

end Ecdsa

structure Pair where
  privateKey : PrivateKey
  publicKey : PublicKey
deriving DecidableEq

namespace Pair

def ofPrivate (key : PrivateKey) : Except Error Pair :=
  match Ecdsa.secret key with
  | .error fault => .error (.ofFault fault)
  | .ok d =>
    match Ecdsa.publicKey? (generator.mul d) with
    | some publicKey => .ok ⟨key, publicKey⟩
    | none => .error (.ofFault .invalidPublicKey)

def generate : List PrivateKey → Except Error Pair
  | [] => .error (.custom "No usable private key among the candidates")
  | candidate :: rest =>
    match ofPrivate candidate with
    | .ok pair => .ok pair
    | .error _ => generate rest

def lines (pair : Pair) : List String :=
  ["secret:  " ++ Text.Hex.encode pair.privateKey.bytes,
   "public:  " ++ Text.Hex.encode pair.publicKey.bytes]

def inspect (pair : Pair) : String :=
  "KeyPair \x7b private: 0x" ++ Text.Hex.encode pair.privateKey.bytes ++
    ", public: 0x" ++ Text.Hex.encode pair.publicKey.bytes ++ " \x7d"

end Pair

def signed : Option Ecdsa.Numbers → Except Error Signature
  | some numbers => .ok numbers.signature
  | none => .error (.custom "No usable nonce among the candidates")

def sign (key : PrivateKey) (message : Message) : Except Error Signature :=
  match Ecdsa.secret key with
  | .error fault => .error (.ofFault fault)
  | .ok d =>
    let z := Ecdsa.scalar message
    let seed := key.bytes ++ Bytes.ofNat 32 z
    signed (Ecdsa.signFrom? d z Ecdsa.maxAttempts (.seeded seed))

/-- Whether a signature was made over a message with the private key of a public key.  It is an
error if the signature or, that being fine, the public key is malformed. -/
def verify (key : PublicKey) (signature : Signature) (message : Message) : Except Error Bool :=
  match Ecdsa.numbers signature with
  | .error fault => .error (.ofFault fault)
  | .ok numbers =>
    match Ecdsa.publicPoint key with
    | .error fault => .error (.ofFault fault)
    | .ok q => .ok (Ecdsa.verify q (Ecdsa.scalar message) numbers)

/-- The public key under which a signature verifies for a message, if `s` is the smaller one. -/
def recover (signature : Signature) (message : Message) : Except Error PublicKey :=
  match Ecdsa.numbers signature with
  | .error fault => .error (.ofFault fault)
  | .ok numbers =>
    match Ecdsa.recover (Ecdsa.scalar message) numbers with
    | .error fault => .error (.ofFault fault)
    | .ok key => .ok key

end Key
end LockScript
