import LockScript.Curve.Modular

/-!
The curve `y² = x³ + 7` over the integers modulo `prime`, known as secp256k1.

Points are in affine coordinates, the point at infinity apart.  Addition is by
chord and tangent, and multiples by doubling.
-/

namespace LockScript
namespace Curve

/-- The modulus of the coordinates. -/
def prime : Nat := 0xfffffffffffffffffffffffffffffffffffffffffffffffffffffffefffffc2f

/-- The number of points, a prime as well. -/
def order : Nat := 0xfffffffffffffffffffffffffffffffebaaedce6af48a03bbfd25e8cd0364141

inductive Point where
  | infinity
  | affine (x y : Nat)
deriving DecidableEq, Repr

def generator : Point :=
  .affine 0x79be667ef9dcbbac55a06295ce870b07029bfcdb2dce28d959f2815b16f81798
    0x483ada7726a3c4655da4fbfc0e1108a8fd17b448a68554199c47d08ffb10d4b8

def rightSide (x : Nat) : Nat := (x * x % prime * x + 7) % prime

/-- The coordinates are reduced and satisfy the equation. -/
def isOnCurve (x y : Nat) : Bool :=
  x < prime && y < prime && y * y % prime == rightSide x

namespace Point

def isValid : Point → Bool
  | infinity => true
  | affine x y => isOnCurve x y

def neg : Point → Point
  | infinity => infinity
  | affine x y => affine x ((prime - y) % prime)

/-- The sum of two points on a line through `(x₁, y₁)` with the given slope; `x₂` belongs to the
other one.  It is opposite to the third point on that line. -/
def alongLine (slope x₁ y₁ x₂ : Nat) : Point :=
  let x := Modular.sub prime (slope * slope % prime) ((x₁ + x₂) % prime)
  let y := Modular.sub prime (slope * Modular.sub prime x₁ x % prime) y₁
  affine x y

def add : Point → Point → Point
  | infinity, q => q
  | p, infinity => p
  | affine x₁ y₁, affine x₂ y₂ =>
    if x₁ = x₂ then
      if (y₁ + y₂) % prime = 0 then infinity
      else alongLine (3 * x₁ * x₁ * Modular.inverse prime (2 * y₁ % prime) % prime) x₁ y₁ x₁
    else
      let slope := Modular.sub prime y₂ y₁ * Modular.inverse prime (Modular.sub prime x₂ x₁) % prime
      alongLine slope x₁ y₁ x₂

def mul (k : Nat) (p : Point) : Point :=
  if h : k = 0 then infinity
  else
    let rest := mul (k / 2) (p.add p)
    if k % 2 = 1 then p.add rest else rest
termination_by k
decreasing_by exact Nat.div_lt_self (Nat.pos_of_ne_zero h) (by decide)

/-- The point with a given first coordinate and a second one of the given parity.  Since `prime` is
3 modulo 4, a power of the right side is its root if it has any. -/
def withX? (x : Nat) (odd : Bool) : Option Point :=
  let square := rightSide x
  let root := Modular.power prime square ((prime + 1) / 4)
  if root * root % prime = square then
    some (affine x (if (root % 2 == 1) == odd then root else (prime - root) % prime))
  else none

end Point
end Curve
end LockScript
