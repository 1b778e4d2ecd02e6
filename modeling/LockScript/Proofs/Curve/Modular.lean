import Mathlib.Algebra.Field.ZMod
import Mathlib.Tactic.LinearCombination
import Mathlib.Tactic.Ring
import LockScript.Curve.Modular

/-!
Modular arithmetic as arithmetic in `ZMod`.

Numbers below a modulus are computed with as natural numbers.  The equations here carry them
over to residue classes, where a difference is a difference, the steps of the divisions give the
inverse and repeated squaring gives the power.
-/

namespace LockScript
namespace Curve
namespace Modular

/-! ## Inverses -/

theorem divisionSteps_fst (r₀ r₁ t₀ t₁ : Nat) (negative : Bool) :
    (divisionSteps r₀ r₁ t₀ t₁ negative).1 = Nat.gcd r₀ r₁ := by
  fun_induction divisionSteps r₀ r₁ t₀ t₁ negative with
  | case1 r₀ t₀ t₁ negative => rw [Nat.gcd_zero_right]
  | case2 r₀ r₁ t₀ t₁ negative h ih =>
    rw [ih, Nat.gcd_comm r₁, ← Nat.gcd_rec, Nat.gcd_comm]

section

variable {R : Type*} [CommRing R]

/-- A factor with its sign. -/
def signed (t : Nat) (negative : Bool) : R := if negative then -t else t

theorem signed_not (t : Nat) (negative : Bool) :
    signed t (!negative) = -(signed t negative : R) := by
  cases negative <;> simp [signed]

theorem signed_add_mul (t q s : Nat) (negative : Bool) :
    (signed (t + q * s) negative : R) = signed t negative + q * signed s negative := by
  cases negative
  · simp [signed]
  · simp [signed]
    ring

/-- Both remainders stay multiples of the number that is inverted, by the factors kept for them. -/
theorem divisionSteps_factor (a : R) (r₀ r₁ t₀ t₁ : Nat) (negative : Bool)
    (h₀ : signed t₀ negative * a = r₀) (h₁ : signed t₁ (!negative) * a = r₁) :
    let result := divisionSteps r₀ r₁ t₀ t₁ negative
    signed result.2.1 result.2.2 * a = result.1 := by
  fun_induction divisionSteps r₀ r₁ t₀ t₁ negative with
  | case1 r₀ t₀ t₁ negative => exact h₀
  | case2 r₀ r₁ t₀ t₁ negative h ih =>
    refine ih h₁ ?_
    have hdivision : (r₀ : R) = r₁ * (r₀ / r₁ : Nat) + (r₀ % r₁ : Nat) := by
      rw [← Nat.cast_mul, ← Nat.cast_add, Nat.div_add_mod]
    rw [signed_not] at h₁
    rw [Bool.not_not, signed_add_mul]
    linear_combination h₀ + hdivision - (r₀ / r₁ : Nat) * h₁

end

theorem cast_inverse_eq_signed {m : Nat} (hm : 0 < m) (a : Nat) :
    (inverse m a : ZMod m) =
      signed (divisionSteps m (a % m) 0 1 true).2.1 (divisionSteps m (a % m) 0 1 true).2.2 := by
  have hneg : ∀ t : Nat, ((m - t % m : Nat) : ZMod m) = -(t : ZMod m) := by
    intro t
    rw [Nat.cast_sub (Nat.mod_lt t hm).le, ZMod.natCast_self, ZMod.natCast_mod, zero_sub]
  unfold inverse signed
  dsimp only
  split
  · rw [ZMod.natCast_mod, hneg]
  · rw [ZMod.natCast_mod]

theorem cast_inverse_mul {m a : Nat} (hm : 0 < m) (h : Nat.gcd m a = 1) :
    (inverse m a : ZMod m) * a = 1 := by
  have hfactor := divisionSteps_factor (a : ZMod m) m (a % m) 0 1 true
    (by simp [signed]) (by simp [signed])
  have hgcd : Nat.gcd m (a % m) = 1 := by
    rw [Nat.gcd_comm, ← Nat.gcd_rec, h]
  rw [cast_inverse_eq_signed hm, hfactor, divisionSteps_fst, hgcd, Nat.cast_one]

/-- Zero has no inverse, and it is given zero for one, as in a field. -/
theorem cast_inverse {m : Nat} [hm : Fact m.Prime] (a : Nat) :
    (inverse m a : ZMod m) = (a : ZMod m)⁻¹ := by
  by_cases ha : m ∣ a
  · have hzero : (a : ZMod m) = 0 := (ZMod.natCast_eq_zero_iff a m).2 ha
    have hmod : a % m = 0 := Nat.mod_eq_zero_of_dvd ha
    have hsteps : divisionSteps m 0 0 1 true = (m, 0, true) := by
      rw [divisionSteps, dif_pos rfl]
    rw [cast_inverse_eq_signed hm.out.pos, hmod, hsteps, hzero, inv_zero]
    simp [signed]
  · have hgcd : Nat.gcd m a = 1 := (Nat.Prime.coprime_iff_not_dvd hm.out).2 ha
    exact eq_inv_of_mul_eq_one_left (cast_inverse_mul hm.out.pos hgcd)

/-! ## Powers and differences -/

theorem power_eq (m base exponent : Nat) : power m base exponent = base ^ exponent % m := by
  fun_induction power m base exponent with
  | case1 base => rw [pow_zero]
  | case2 base exponent h root hodd ih =>
    have hexponent : exponent = 2 * (exponent / 2) + 1 := by omega
    have hroot : root = base ^ (2 * (exponent / 2)) % m := by
      rw [pow_mul, pow_two, Nat.pow_mod]
      exact ih
    conv_rhs => rw [hexponent, pow_succ']
    rw [hroot, Nat.mul_mod_mod]
  | case3 base exponent h root hodd ih =>
    have hexponent : exponent = 2 * (exponent / 2) := by omega
    conv_rhs => rw [hexponent, pow_mul, pow_two, Nat.pow_mod]
    exact ih

theorem cast_power (m base exponent : Nat) :
    (power m base exponent : ZMod m) = (base : ZMod m) ^ exponent := by
  rw [power_eq, ZMod.natCast_mod, Nat.cast_pow]

theorem cast_sub {m b : Nat} (h : b ≤ m) (a : Nat) : (sub m a b : ZMod m) = a - b := by
  rw [sub, ZMod.natCast_mod, Nat.cast_add, Nat.cast_sub h, ZMod.natCast_self, zero_sub,
    sub_eq_add_neg]

theorem sub_lt {m : Nat} (hm : 0 < m) (a b : Nat) : sub m a b < m := Nat.mod_lt _ hm

end Modular
end Curve
end LockScript
