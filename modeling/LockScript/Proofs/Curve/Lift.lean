import Mathlib.FieldTheory.Finite.Basic
import Mathlib.Tactic.IntervalCases
import LockScript.Proofs.Curve.Group

/-!
A point by its first coordinate and a parity.

Two points with the same first coordinate are opposite or the same.  No point lies on the axis,
and the modulus is odd, so opposite second coordinates differ in parity.  Hence a first coordinate
and a parity name at most one point, and `Point.withX?` finds it.
-/

namespace LockScript
namespace Curve

theorem prime_mod_two : prime % 2 = 1 := by decide

/-- No cube is opposite to seven. -/
theorem cube_add_seven_ne_zero (x : ZMod prime) : x ^ 3 + 7 ≠ 0 := by
  intro h
  -- otherwise the opposite of seven would have the power that cubes have, and it has another
  have hpower : Modular.power prime (prime - 7) ((prime - 1) / 3) ≠ 1 := by decide +kernel
  have hthird : 3 * ((prime - 1) / 3) = prime - 1 := by decide
  have hseven : ((prime - 7 : Nat) : ZMod prime) = x ^ 3 := by
    rw [Nat.cast_sub (by decide), ZMod.natCast_self, zero_sub]
    exact (eq_neg_of_add_eq_zero_left h).symm
  have hx : x ≠ 0 := by
    intro hzero
    rw [hzero, zero_pow (by decide), zero_add] at h
    exact natCast_ne_zero (by decide) (by decide) h
  apply hpower
  rw [Primality.power_eq_one_iff (by decide), hseven, ← pow_mul, hthird]
  exact ZMod.pow_card_sub_one_eq_one hx

theorem ne_zero_of_isOnCurve {x y : Nat} (h : isOnCurve x y = true) : y ≠ 0 := by
  intro hy
  obtain ⟨-, -, hequation⟩ := Point.isOnCurve_iff.1 h
  rw [hy, Nat.cast_zero, zero_pow (by decide)] at hequation
  exact cube_add_seven_ne_zero (x : ZMod prime) hequation.symm

theorem eq_or_add_eq_prime {a b : Nat} (ha : a < prime) (hb : b < prime)
    (h : (a : ZMod prime) ^ 2 = (b : ZMod prime) ^ 2) : a = b ∨ a + b = prime := by
  rcases sq_eq_sq_iff_eq_or_eq_neg.1 h with hsame | hopposite
  · left
    rw [ZMod.natCast_eq_natCast_iff', Nat.mod_eq_of_lt ha, Nat.mod_eq_of_lt hb] at hsame
    exact hsame
  · have hdvd : prime ∣ a + b := by
      rw [← ZMod.natCast_eq_zero_iff, Nat.cast_add, hopposite, neg_add_cancel]
    obtain ⟨k, hk⟩ := hdvd
    have hlt : k < 2 := by
      by_contra hge
      have : prime * 2 ≤ prime * k := Nat.mul_le_mul_left prime (by omega)
      omega
    interval_cases k
    · left
      omega
    · right
      omega

theorem isOnCurve_unique {x a b : Nat} (ha : isOnCurve x a = true) (hb : isOnCurve x b = true)
    (hparity : a % 2 = b % 2) : a = b := by
  obtain ⟨-, halt, hequation⟩ := Point.isOnCurve_iff.1 ha
  obtain ⟨-, hblt, hequation'⟩ := Point.isOnCurve_iff.1 hb
  have hodd := prime_mod_two
  rcases eq_or_add_eq_prime halt hblt (hequation.trans hequation'.symm) with hsame | hsum
  · exact hsame
  · omega

namespace Point

theorem isValid_neg {p : Point} (h : p.isValid = true) : p.neg.isValid = true := by
  obtain ⟨P, rfl⟩ := exists_of_eq h
  rw [neg_of]
  exact isValid_of (-P)

/-- The second coordinate of the opposite point has the other parity. -/
theorem parity_neg {x y : Nat} (h : isOnCurve x y = true) :
    isOnCurve x ((prime - y) % prime) = true ∧
      ((prime - y) % prime % 2 == 1) = !(y % 2 == 1) := by
  refine ⟨isValid_neg (p := affine x y) h, ?_⟩
  have hlt := (isOnCurve_iff.1 h).2.1
  have hne := ne_zero_of_isOnCurve h
  have hmodulus := prime_mod_two
  rw [Nat.mod_eq_of_lt (by omega : prime - y < prime), Bool.eq_iff_iff, Bool.not_eq_true',
    beq_iff_eq, beq_eq_false_iff_ne]
  omega

/-- What `withX?` takes for the root of the right side. -/
def root (x : Nat) : Nat := Modular.power prime (rightSide x) ((prime + 1) / 4)

theorem withX?_eq (x : Nat) (odd : Bool) :
    withX? x odd =
      if root x * root x % prime = rightSide x then
        some (affine x (if (root x % 2 == 1) == odd then root x else (prime - root x) % prime))
      else none := rfl

theorem root_lt (x : Nat) : root x < prime := by
  rw [root, Modular.power_eq]
  exact Nat.mod_lt _ prime_pos

theorem isOnCurve_root {x y : Nat} (h : isOnCurve x y = true) : isOnCurve x (root x) = true := by
  obtain ⟨hx, hy, hequation⟩ := isOnCurve_iff.1 h
  have hexponent : 2 * ((prime + 1) / 4 * 2) = prime - 1 + 2 := by decide
  have hne : (y : ZMod prime) ≠ 0 :=
    natCast_ne_zero (Nat.pos_of_ne_zero (ne_zero_of_isOnCurve h)) hy
  refine isOnCurve_iff.2 ⟨hx, root_lt x, ?_⟩
  rw [root, Modular.cast_power, cast_rightSide, ← hequation, ← pow_mul, ← pow_mul, hexponent,
    pow_add, ZMod.pow_card_sub_one_eq_one hne, one_mul]

theorem withX?_of_root {x : Nat} (odd : Bool) (h : isOnCurve x (root x) = true) :
    ∃ y, withX? x odd = some (affine x y) ∧ isOnCurve x y = true ∧ (y % 2 == 1) = odd := by
  have hsquare : root x * root x % prime = rightSide x := by
    simp only [isOnCurve, Bool.and_eq_true, beq_iff_eq] at h
    exact h.2
  rw [withX?_eq, if_pos hsquare]
  by_cases hodd : (root x % 2 == 1) = odd
  · refine ⟨root x, ?_, h, hodd⟩
    rw [if_pos (by simpa using hodd)]
  · obtain ⟨hcurve, hparity⟩ := parity_neg h
    refine ⟨(prime - root x) % prime, ?_, hcurve, ?_⟩
    · rw [if_neg (by simpa using hodd)]
    · rw [hparity, Bool.eq_not_of_ne hodd, Bool.not_not]

/-- The lift finds the point with the given first coordinate and parity, and finds none only if
there is none. -/
theorem withX?_eq_some_iff {x : Nat} {odd : Bool} {p : Point} (hx : x < prime) :
    withX? x odd = some p ↔
      ∃ y, p = affine x y ∧ isOnCurve x y = true ∧ (y % 2 == 1) = odd := by
  constructor
  · intro h
    by_cases hroot : isOnCurve x (root x) = true
    · obtain ⟨y, hlift, hcurve, hparity⟩ := withX?_of_root odd hroot
      rw [hlift] at h
      exact ⟨y, (Option.some.inj h).symm, hcurve, hparity⟩
    · have hsquare : ¬root x * root x % prime = rightSide x := by
        intro hsquare
        exact hroot (by simp [isOnCurve, hx, root_lt x, hsquare])
      rw [withX?_eq, if_neg hsquare] at h
      cases h
  · intro hparts
    obtain ⟨y, rfl, hcurve, hparity⟩ := hparts
    obtain ⟨y', hlift, hcurve', hparity'⟩ := withX?_of_root odd (isOnCurve_root hcurve)
    have hsame : y' % 2 = y % 2 := by
      have hboth := hparity'.trans hparity.symm
      rw [Bool.eq_iff_iff, beq_iff_eq, beq_iff_eq] at hboth
      omega
    rw [hlift, isOnCurve_unique hcurve' hcurve hsame]

end Point
end Curve
end LockScript
