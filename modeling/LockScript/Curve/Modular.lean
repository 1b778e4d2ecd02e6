/-!
Inverses and powers modulo a number.
-/

namespace LockScript
namespace Curve
namespace Modular

/-- The division steps of the greatest common divisor of `r₀` and `r₁`, with the factors that
express both remainders as multiples of the number to invert.  The factors change sign with every
step; their sizes are kept in `t₀` and `t₁`, and `negative` is the sign of `t₀`. -/
def divisionSteps (r₀ r₁ t₀ t₁ : Nat) (negative : Bool) : Nat × Nat × Bool :=
  if _h : r₁ = 0 then (r₀, t₀, negative)
  else divisionSteps r₁ (r₀ % r₁) t₁ (t₀ + r₀ / r₁ * t₁) (!negative)
termination_by r₁
decreasing_by exact Nat.mod_lt r₀ (Nat.pos_of_ne_zero _h)

/-- The number below `m` that gives one when multiplied by `a` modulo `m`.  It exists if `a` and `m`
have no common divisor. -/
def inverse (m a : Nat) : Nat :=
  match divisionSteps m (a % m) 0 1 true with
  | (_, t, negative) => if negative then (m - t % m) % m else t % m

def power (m base exponent : Nat) : Nat :=
  if h : exponent = 0 then 1 % m
  else
    let root := power m (base * base % m) (exponent / 2)
    if exponent % 2 = 1 then base * root % m else root
termination_by exponent
decreasing_by exact Nat.div_lt_self (Nat.pos_of_ne_zero h) (by decide)

/-- The difference of two numbers below `m`, modulo `m`. -/
def sub (m a b : Nat) : Nat := (a + (m - b)) % m

end Modular
end Curve
end LockScript
