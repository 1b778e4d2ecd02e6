import Mathlib.Algebra.Module.ZMod
import Mathlib.GroupTheory.Perm.Cycle.Type
import LockScript.Proofs.Curve.Lift

/-!
The number of points.

The generator has order `order`, which is prime, so the number of points is a multiple of it.
First coordinates and parities leave room for fewer than three times that many.  Twice as many
would mean a point of order two, which would lie on the axis.  So there are `order` points, all of
them multiples of the generator, and factors count modulo `order`.
-/

namespace LockScript
namespace Curve

open WeierstrassCurve

/-! ## No more points than coordinates and parities -/

/-- The first coordinate and the parity of the second. -/
def tag : Element → Option (ZMod prime × Bool)
  | .zero => none
  | .some x y _ => some (x, y.val % 2 == 1)

theorem tag_injective : Function.Injective tag := by
  intro P Q h
  cases P with
  | zero =>
    cases Q with
    | zero => rfl
    | some x y hxy => cases h
  | some x y hxy =>
    cases Q with
    | zero => cases h
    | some x' y' hxy' =>
      simp only [tag, Option.some.injEq, Prod.mk.injEq] at h
      obtain ⟨rfl, hparity⟩ := h
      have hsame : y.val % 2 = y'.val % 2 := by
        rw [Bool.eq_iff_iff, beq_iff_eq, beq_iff_eq] at hparity
        omega
      apply Point.of_injective
      rw [Point.of, Point.of, isOnCurve_unique (Point.isValid_of (.some x y hxy))
        (Point.isValid_of (.some x y' hxy')) hsame]

instance : Finite Element := Finite.of_injective tag tag_injective

theorem card_element_le : Nat.card Element ≤ 2 * prime + 1 := by
  have hcard := Nat.card_le_card_of_injective tag tag_injective
  have hbool : Nat.card Bool = 2 := by simp
  rw [Finite.card_option, Nat.card_prod, Nat.card_zmod, hbool] at hcard
  omega

theorem eq_zero_of_add_self {P : Element} (h : P + P = 0) : P = 0 := by
  cases P with
  | zero => rfl
  | some x y hxy =>
    have hopposite := eq_neg_of_add_eq_zero_left h
    rw [Affine.Point.neg_some, Affine.Point.some.injEq, negY_eq] at hopposite
    have htwo : (2 : ZMod prime) ≠ 0 := natCast_ne_zero (n := 2) (by decide) (by decide)
    have hy : y = 0 := by
      have hdouble : 2 * y = 0 := by linear_combination hopposite.2
      exact (mul_eq_zero.1 hdouble).resolve_left htwo
    have hequation := nonsingular_iff.1 hxy
    rw [hy, zero_pow (by decide)] at hequation
    exact absurd hequation.symm (cube_add_seven_ne_zero x)

/-! ## The generator -/

theorem exists_base : ∃ P : Element, Point.of P = generator :=
  Point.exists_of_eq (by decide +kernel)

/-- The generator as an element of the group. -/
noncomputable def base : Element := exists_base.choose

theorem of_base : Point.of base = generator := exists_base.choose_spec

theorem base_ne_zero : base ≠ 0 := by
  intro h
  have hgenerator := of_base
  rw [h, Point.of_zero] at hgenerator
  cases hgenerator

theorem generator_mul_order : generator.mul order = .infinity := by decide +kernel

theorem generator_mul (k : Nat) : generator.mul k = Point.of (k • base) := by
  rw [← of_base, Point.mul_of]

theorem addOrderOf_base : addOrderOf base = order := by
  refine addOrderOf_eq_prime (Point.of_injective ?_) base_ne_zero
  rw [← generator_mul, generator_mul_order, Point.of_zero]

/-- Multiples of the generator are the same if their factors are, modulo the order. -/
theorem nsmul_base_eq_iff {a b : Nat} : a • base = b • base ↔ a % order = b % order := by
  rw [nsmul_eq_nsmul_iff_modEq, addOrderOf_base]
  exact Iff.rfl

/-- There are as many points as the order says. -/
theorem card_element : Nat.card Element = order := by
  have hdvd : order ∣ Nat.card Element := addOrderOf_base ▸ addOrderOf_dvd_natCard base
  obtain ⟨k, hk⟩ := hdvd
  have hpos : 0 < Nat.card Element := Nat.card_pos
  have hle := card_element_le
  have hroom : 2 * prime + 1 < order * 3 := by decide
  have hlt : k < 3 := by
    by_contra hge
    have : order * 3 ≤ order * k := Nat.mul_le_mul_left order (by omega)
    omega
  interval_cases k
  · omega
  · omega
  · -- an even number of points would come with one of order two
    have : Fact (Nat.Prime 2) := ⟨Nat.prime_two⟩
    obtain ⟨P, hP⟩ := exists_prime_addOrderOf_dvd_card' 2 (Dvd.intro_left order hk.symm)
    rw [addOrderOf_eq_prime_iff, two_nsmul] at hP
    exact absurd (eq_zero_of_add_self hP.1) hP.2

theorem order_nsmul (P : Element) : order • P = 0 := by
  rw [← card_element]
  exact card_nsmul_eq_zero'

/-- Factors count modulo the order. -/
noncomputable instance : Module (ZMod order) Element := AddCommGroup.zmodModule order_nsmul

theorem natCast_smul (k : Nat) (P : Element) : (k : ZMod order) • P = k • P :=
  Nat.cast_smul_eq_nsmul (ZMod order) k P

end Curve
end LockScript
