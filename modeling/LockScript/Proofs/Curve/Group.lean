import Mathlib.AlgebraicGeometry.EllipticCurve.Affine.Point
import LockScript.Proofs.Curve.Primality

/-!
The points of the curve form a group.

The library knows the group of a Weierstrass curve over any field.  `Point.of` writes an element
of that group with numbers for its coordinates.  Every valid point is written so in exactly one
way, and addition by chord and tangent and multiplication by doubling are those of the group.
-/

namespace LockScript
namespace Curve

open WeierstrassCurve

theorem prime_pos : 0 < prime := prime_prime.pos

theorem natCast_ne_zero {n : Nat} (hpos : 0 < n) (hlt : n < prime) : (n : ZMod prime) ≠ 0 := by
  rw [Ne, ZMod.natCast_eq_zero_iff]
  exact Nat.not_dvd_of_pos_of_lt hpos hlt

theorem eq_val {n : Nat} {a : ZMod prime} (hlt : n < prime) (h : (n : ZMod prime) = a) :
    n = a.val := by
  rw [← h, ZMod.val_natCast_of_lt hlt]

/-- The curve `y² = x³ + 7` over the field of coordinates. -/
def weierstrass : Affine (ZMod prime) := ⟨0, 0, 0, 0, 7⟩

/-- An element of the group of the curve. -/
abbrev Element := weierstrass.Point

theorem equation_iff {x y : ZMod prime} : weierstrass.Equation x y ↔ y ^ 2 = x ^ 3 + 7 := by
  rw [Affine.equation_iff]
  simp [weierstrass]

theorem discriminant_ne_zero : weierstrass.Δ ≠ 0 := by
  have hvalue : weierstrass.Δ = -((21168 : Nat) : ZMod prime) := by
    simp only [WeierstrassCurve.Δ, b₂, b₄, b₆, b₈, weierstrass]
    norm_num
  rw [hvalue, neg_ne_zero]
  exact natCast_ne_zero (by decide) (by decide)

theorem nonsingular_iff {x y : ZMod prime} : weierstrass.Nonsingular x y ↔ y ^ 2 = x ^ 3 + 7 := by
  rw [← Affine.equation_iff_nonsingular_of_Δ_ne_zero discriminant_ne_zero, equation_iff]

theorem negY_eq (x y : ZMod prime) : weierstrass.negY x y = -y := by
  simp [Affine.negY, weierstrass]

theorem addX_eq (x₁ x₂ slope : ZMod prime) :
    weierstrass.addX x₁ x₂ slope = slope ^ 2 - (x₁ + x₂) := by
  simp only [Affine.addX, weierstrass]
  ring

theorem addY_eq (x₁ x₂ y₁ slope : ZMod prime) :
    weierstrass.addY x₁ x₂ y₁ slope =
      slope * (x₁ - (slope ^ 2 - (x₁ + x₂))) - y₁ := by
  rw [Affine.addY, negY_eq, Affine.negAddY, addX_eq]
  ring

namespace Point

/-- The point with the coordinates of an element of the group. -/
def of : Element → Point
  | .zero => infinity
  | .some x y _ => affine x.val y.val

@[simp] theorem of_zero : of 0 = infinity := rfl

theorem of_injective : Function.Injective of := by
  intro P Q h
  cases P with
  | zero =>
    cases Q with
    | zero => rfl
    | some x y hxy => cases h
  | some x y hxy =>
    cases Q with
    | zero => cases h
    | some x' y' hxy' =>
      obtain ⟨hx, hy⟩ := affine.inj h
      have hx' := ZMod.val_injective prime hx
      have hy' := ZMod.val_injective prime hy
      subst hx' hy'
      rfl

/-! ## Valid points -/

theorem cast_rightSide (x : Nat) : (rightSide x : ZMod prime) = (x : ZMod prime) ^ 3 + 7 := by
  rw [rightSide, ZMod.natCast_mod, Nat.cast_add, Nat.cast_mul, ZMod.natCast_mod, Nat.cast_mul]
  norm_num
  ring

theorem isOnCurve_iff {x y : Nat} :
    isOnCurve x y = true ↔
      x < prime ∧ y < prime ∧ (y : ZMod prime) ^ 2 = (x : ZMod prime) ^ 3 + 7 := by
  have hequation : y * y % prime = rightSide x ↔
      (y : ZMod prime) ^ 2 = (x : ZMod prime) ^ 3 + 7 := by
    have hside : rightSide x % prime = rightSide x := Nat.mod_eq_of_lt (Nat.mod_lt _ prime_pos)
    rw [← cast_rightSide, pow_two, ← Nat.cast_mul, ZMod.natCast_eq_natCast_iff', hside]
  simp only [isOnCurve, Bool.and_eq_true, decide_eq_true_eq, beq_iff_eq, hequation, and_assoc]

theorem isValid_of (P : Element) : (of P).isValid = true := by
  cases P with
  | zero => rfl
  | some x y h =>
    refine isOnCurve_iff.2 ⟨x.val_lt, y.val_lt, ?_⟩
    rw [ZMod.natCast_zmod_val, ZMod.natCast_zmod_val]
    exact nonsingular_iff.1 h

theorem isOnCurve_of {P : Element} {x y : Nat} (h : of P = affine x y) : isOnCurve x y = true := by
  have hvalid := isValid_of P
  rwa [h] at hvalid

theorem exists_of_eq {p : Point} (h : p.isValid = true) : ∃ P, of P = p := by
  cases p with
  | infinity => exact ⟨0, rfl⟩
  | affine x y =>
    obtain ⟨hx, hy, hequation⟩ := isOnCurve_iff.1 h
    refine ⟨.some x y (nonsingular_iff.2 hequation), ?_⟩
    rw [of, ZMod.val_natCast_of_lt hx, ZMod.val_natCast_of_lt hy]

/-! ## Addition -/

theorem alongLine_val (slope x₁ y₁ x₂ : ZMod prime) :
    alongLine slope.val x₁.val y₁.val x₂.val =
      affine (slope ^ 2 - (x₁ + x₂)).val
        (slope * (x₁ - (slope ^ 2 - (x₁ + x₂))) - y₁).val := by
  have hsum : (x₁.val + x₂.val) % prime ≤ prime := (Nat.mod_lt _ prime_pos).le
  have hx : Modular.sub prime (slope.val * slope.val % prime) ((x₁.val + x₂.val) % prime) =
      (slope ^ 2 - (x₁ + x₂)).val := by
    refine eq_val (Modular.sub_lt prime_pos _ _) ?_
    rw [Modular.cast_sub hsum]
    simp only [ZMod.natCast_mod, Nat.cast_mul, Nat.cast_add, ZMod.natCast_zmod_val]
    ring
  unfold alongLine
  simp only [hx]
  congr 1
  refine eq_val (Modular.sub_lt prime_pos _ _) ?_
  rw [Modular.cast_sub y₁.val_lt.le, ZMod.natCast_mod, Nat.cast_mul,
    Modular.cast_sub (ZMod.val_lt _).le]
  simp only [ZMod.natCast_zmod_val]

theorem of_add_some {x₁ y₁ x₂ y₂ : ZMod prime} {h₁ : weierstrass.Nonsingular x₁ y₁}
    {h₂ : weierstrass.Nonsingular x₂ y₂} (h : ¬(x₁ = x₂ ∧ y₁ = weierstrass.negY x₂ y₂)) :
    of (.some x₁ y₁ h₁ + .some x₂ y₂ h₂) =
      alongLine (weierstrass.slope x₁ x₂ y₁ y₂).val x₁.val y₁.val x₂.val := by
  rw [Affine.Point.add_some h, of, alongLine_val, addX_eq, addY_eq]

theorem slope_chord {x₁ x₂ : ZMod prime} (h : x₁ ≠ x₂) (y₁ y₂ : ZMod prime) :
    Modular.sub prime y₂.val y₁.val * Modular.inverse prime (Modular.sub prime x₂.val x₁.val) %
        prime =
      (weierstrass.slope x₁ x₂ y₁ y₂).val := by
  refine eq_val (Nat.mod_lt _ prime_pos) ?_
  rw [ZMod.natCast_mod, Nat.cast_mul, Modular.cast_inverse, Modular.cast_sub y₁.val_lt.le,
    Modular.cast_sub x₁.val_lt.le, Affine.slope_of_X_ne h]
  simp only [ZMod.natCast_zmod_val]
  rw [← neg_sub y₁ y₂, ← neg_sub x₁ x₂, inv_neg, neg_mul_neg, div_eq_mul_inv]

theorem slope_tangent {x y₁ y₂ : ZMod prime} (h : y₁ ≠ weierstrass.negY x y₂) :
    3 * x.val * x.val * Modular.inverse prime (2 * y₁.val % prime) % prime =
      (weierstrass.slope x x y₁ y₂).val := by
  have hslope : weierstrass.slope x x y₁ y₂ = 3 * x * x * (2 * y₁)⁻¹ := by
    have hrise : 3 * x ^ 2 + 2 * weierstrass.a₂ * x + weierstrass.a₄ - weierstrass.a₁ * y₁ =
        3 * x * x := by
      simp only [weierstrass]
      ring
    have hrun : y₁ - weierstrass.negY x y₁ = 2 * y₁ := by
      rw [negY_eq]
      ring
    rw [Affine.slope_of_Y_ne rfl h, hrise, hrun, div_eq_mul_inv]
  refine eq_val (Nat.mod_lt _ prime_pos) ?_
  rw [hslope, ZMod.natCast_mod, Nat.cast_mul, Modular.cast_inverse, ZMod.natCast_mod]
  simp only [Nat.cast_mul, Nat.cast_ofNat, ZMod.natCast_zmod_val]

theorem val_add_eq_zero_iff (a b : ZMod prime) : (a.val + b.val) % prime = 0 ↔ a = -b := by
  rw [← Nat.dvd_iff_mod_eq_zero, ← ZMod.natCast_eq_zero_iff, Nat.cast_add, ZMod.natCast_zmod_val,
    ZMod.natCast_zmod_val, add_eq_zero_iff_eq_neg]

theorem add_of (P Q : Element) : (of P).add (of Q) = of (P + Q) := by
  cases P with
  | zero => exact (congrArg of (zero_add Q)).symm
  | some x₁ y₁ h₁ =>
    cases Q with
    | zero => exact (congrArg of (add_zero (Affine.Point.some x₁ y₁ h₁))).symm
    | some x₂ y₂ h₂ =>
      rw [of, of, add]
      by_cases hx : x₁ = x₂
      · subst hx
        simp only [if_true, val_add_eq_zero_iff]
        by_cases hy : y₁ = -y₂
        · rw [if_pos hy, Affine.Point.add_of_Y_eq rfl (by rw [negY_eq, hy]), of_zero]
        · rw [← negY_eq x₁ y₂] at hy
          rw [if_neg (by rwa [← negY_eq x₁ y₂]), slope_tangent hy,
            of_add_some fun h => hy h.2]
      · have hval : x₁.val ≠ x₂.val := fun h => hx (ZMod.val_injective prime h)
        rw [if_neg hval, of_add_some fun h => hx h.1]
        simp only [slope_chord hx]

theorem mul_of (k : Nat) (P : Element) : (of P).mul k = of (k • P) := by
  induction k using Nat.strongRec generalizing P with
  | ind k ih =>
    rw [mul]
    by_cases hk : k = 0
    · rw [dif_pos hk, hk, zero_nsmul, of_zero]
    · have hrest : ((of P).add (of P)).mul (k / 2) = of ((2 * (k / 2)) • P) := by
        rw [add_of, ih (k / 2) (by omega), ← two_nsmul, ← mul_nsmul]
      rw [dif_neg hk]
      simp only [hrest]
      by_cases hodd : k % 2 = 1
      · have hsucc : k = 2 * (k / 2) + 1 := by omega
        rw [if_pos hodd, add_of, ← succ_nsmul', ← hsucc]
      · have heven : 2 * (k / 2) = k := by omega
        rw [if_neg hodd, heven]

theorem neg_of (P : Element) : (of P).neg = of (-P) := by
  cases P with
  | zero => rfl
  | some x y h =>
    rw [Affine.Point.neg_some, of, of, neg, negY_eq, ZMod.neg_val']

end Point
end Curve
end LockScript
