import LockScript.Proofs.Curve.Order
import LockScript.Proofs.Key.Encoding

/-!
The signature equation.

Numbers sign a scalar `z` for an element `Q` of the group if the nonce's point `R` that they name
satisfies `s • R = z • base + r • Q`.  Verifying tests this up to the choice of `R` among the
points whose first coordinate is `r` modulo the order, recovering solves it for `Q`, and signing
solves it for `s`.
-/

namespace LockScript
namespace Key
namespace Ecdsa

open Curve

/-! ## Factors modulo the order -/

theorem cast_order_ne_zero {a : Nat} (hne : a ≠ 0) (hlt : a < order) : (a : ZMod order) ≠ 0 := by
  rw [Ne, ZMod.natCast_eq_zero_iff]
  exact Nat.not_dvd_of_pos_of_lt (Nat.pos_of_ne_zero hne) hlt

theorem mod_order_smul (k : Nat) (P : Element) : (k % order) • P = k • P := by
  rw [← natCast_smul, ZMod.natCast_mod, natCast_smul]

/-- Multiplying by the inverse divides. -/
theorem inverse_smul_eq_iff {a : Nat} {P X : Element} (hne : a ≠ 0) (hlt : a < order) :
    Modular.inverse order a • X = P ↔ a • P = X := by
  have ha := cast_order_ne_zero hne hlt
  rw [← natCast_smul, ← natCast_smul a, Modular.cast_inverse, inv_smul_eq_iff₀ ha]
  exact eq_comm

theorem order_sub_smul {k : Nat} (h : k ≤ order) (P : Element) : (order - k) • P = -(k • P) := by
  refine eq_neg_of_add_eq_zero_left ?_
  rw [← add_smul, Nat.sub_add_cancel h, order_nsmul]

/-! ## The nonce's point -/

theorem order_lt_prime : order < prime := by decide

theorem prime_lt_two_order : prime < 2 * order := by decide

/-- The nonce's point is the one whose coordinates the numbers tell: the first modulo the order and
whether it was reduced, and the parity of the second. -/
theorem noncePoint?_eq_some_iff {n : Numbers} {p : Point} (hr : n.r < order) :
    noncePoint? n = some p ↔
      ∃ x y, p = .affine x y ∧ isOnCurve x y = true ∧ x % order = n.r ∧
        (y % 2 == 1) = n.odd ∧ decide (order ≤ x) = n.wrapped := by
  have hlow := order_lt_prime
  have hhigh := prime_lt_two_order
  constructor
  · intro h
    unfold noncePoint? at h
    split at h
    · rename_i hwrapped
      split at h
      · rename_i hlt
        obtain ⟨y, rfl, hcurve, hparity⟩ := (Point.withX?_eq_some_iff hlt).1 h
        refine ⟨n.r + order, y, rfl, hcurve, ?_, hparity, ?_⟩
        · rw [Nat.add_mod_right, Nat.mod_eq_of_lt hr]
        · rw [hwrapped, decide_eq_true_eq]
          omega
      · cases h
    · rename_i hwrapped
      obtain ⟨y, rfl, hcurve, hparity⟩ := (Point.withX?_eq_some_iff (by omega)).1 h
      refine ⟨n.r, y, rfl, hcurve, Nat.mod_eq_of_lt hr, hparity, ?_⟩
      rw [Bool.not_eq_true] at hwrapped
      rw [hwrapped, decide_eq_false_iff_not]
      omega
  · rintro ⟨x, y, rfl, hcurve, hx, hparity, hwrapped⟩
    have hlt := (Point.isOnCurve_iff.1 hcurve).1
    unfold noncePoint?
    by_cases hge : order ≤ x
    · have hsum : x = n.r + order := by
        rw [Nat.mod_eq_sub_mod hge, Nat.mod_eq_of_lt (by omega)] at hx
        omega
      rw [if_pos (by rw [← hwrapped, decide_eq_true_eq]; exact hge), if_pos (by omega), ← hsum]
      exact (Point.withX?_eq_some_iff hlt).2 ⟨y, rfl, hcurve, hparity⟩
    · have hsame : x = n.r := by rwa [Nat.mod_eq_of_lt (by omega)] at hx
      rw [if_neg (by rw [← hwrapped, decide_eq_true_eq]; exact hge), ← hsame]
      exact (Point.withX?_eq_some_iff hlt).2 ⟨y, rfl, hcurve, hparity⟩

/-! ## The equation -/

/-- The signature equation holds for the nonce's point that the numbers name. -/
structure Signs (Q : Element) (z : Nat) (n : Numbers) : Prop where
  r_ne_zero : n.r ≠ 0
  s_ne_zero : n.s ≠ 0
  equation : ∃ R, noncePoint? n = some (Point.of R) ∧ n.s • R = z • base + n.r • Q

theorem signs_of_point {Q R : Element} {z s x y : Nat} (hpoint : Point.of R = .affine x y)
    (hr : x % order ≠ 0) (hs : s ≠ 0) (hequation : s • R = z • base + (x % order) • Q) :
    Signs Q z ⟨x % order, s, y % 2 == 1, order ≤ x⟩ := by
  refine ⟨hr, hs, R, ?_, hequation⟩
  have hlt : x % order < order := Nat.mod_lt _ (by decide)
  exact (noncePoint?_eq_some_iff hlt).2
    ⟨x, y, hpoint, Point.isOnCurve_of hpoint, rfl, rfl, rfl⟩

/-- With the opposite point for the nonce, the opposite of `s` signs as well. -/
theorem Signs.opposite {Q : Element} {z t : Nat} {n : Numbers} (h : Signs Q z n)
    (hr : n.r < order) (ht : t ≠ 0) (hsum : t + n.s = order) :
    Signs Q z ⟨n.r, t, !n.odd, n.wrapped⟩ := by
  obtain ⟨hrne, hsne, R, hnonce, hequation⟩ := h
  obtain ⟨x, y, hpoint, hcurve, hx, hodd, hwrapped⟩ := (noncePoint?_eq_some_iff hr).1 hnonce
  obtain ⟨hcurve', hparity⟩ := Point.parity_neg hcurve
  refine ⟨hrne, ht, -R, ?_, ?_⟩
  · have hopposite : Point.of (-R) = .affine x ((prime - y) % prime) := by
      rw [← Point.neg_of, hpoint, Point.neg]
    have hodd' := hparity.trans (congrArg not hodd)
    exact (noncePoint?_eq_some_iff (n := ⟨n.r, t, !n.odd, n.wrapped⟩) hr).2
      ⟨x, _, hopposite, hcurve', hx, hodd', hwrapped⟩
  · have hzero : t • R + n.s • R = 0 := by rw [← add_smul, hsum, order_nsmul]
    rw [neg_nsmul, ← eq_neg_of_add_eq_zero_right hzero]
    exact hequation

theorem generator_mul_add_mul (a b w : Nat) (P : Element) :
    (generator.mul (a * w % order)).add ((Point.of P).mul (b * w % order)) =
      Point.of (w • (a • base + b • P)) := by
  rw [generator_mul, Point.mul_of, Point.add_of, mod_order_smul, mod_order_smul, nsmul_add,
    Nat.mul_comm a, Nat.mul_comm b, mul_smul, mul_smul]

theorem satisfies_eq_true_iff {Q : Element} {z r s : Nat} (hs : s ≠ 0) (hlt : s < order) :
    satisfies (Point.of Q) z r s = true ↔
      ∃ R x y, Point.of R = .affine x y ∧ x % order = r ∧ s • R = z • base + r • Q := by
  unfold satisfies
  dsimp only
  rw [generator_mul_add_mul]
  constructor
  · intro h
    refine ⟨Modular.inverse order s • (z • base + r • Q), ?_⟩
    split at h
    · cases h
    · rename_i x y hpoint
      exact ⟨x, y, hpoint, beq_iff_eq.1 h, (inverse_smul_eq_iff hs hlt).1 rfl⟩
  · rintro ⟨R, x, y, hpoint, hx, hequation⟩
    rw [(inverse_smul_eq_iff hs hlt).2 hequation, hpoint]
    exact beq_iff_eq.2 hx

/-- Verifying accepts the numbers whose `s` is the smaller one and that sign with some choice of
the nonce's point. -/
theorem verify_eq_true_iff {Q : Element} {z : Nat} {n : Numbers} (hr : n.r < order)
    (hs : n.s < order) :
    verify (Point.of Q) z n = true ↔
      n.s ≤ halfOrder ∧ ∃ odd wrapped, Signs Q z ⟨n.r, n.s, odd, wrapped⟩ := by
  unfold verify
  simp only [Bool.and_eq_true, decide_eq_true_eq]
  constructor
  · rintro ⟨⟨⟨hrne, hsne⟩, hhalf⟩, hsatisfies⟩
    obtain ⟨R, x, y, hpoint, hx, hequation⟩ := (satisfies_eq_true_iff hsne hs).1 hsatisfies
    rw [← hx] at hrne hequation ⊢
    exact ⟨hhalf, y % 2 == 1, order ≤ x, signs_of_point hpoint hrne hsne hequation⟩
  · rintro ⟨hhalf, odd, wrapped, hrne, hsne, R, hnonce, hequation⟩
    obtain ⟨x, y, hpoint, -, hx, -⟩ :=
      (noncePoint?_eq_some_iff (n := ⟨n.r, n.s, odd, wrapped⟩) hr).1 hnonce
    exact ⟨⟨⟨hrne, hsne⟩, hhalf⟩,
      (satisfies_eq_true_iff hsne hs).2 ⟨R, x, y, hpoint, hx, hequation⟩⟩

/-- Recovering gives the key of the element that the numbers sign for, if it has one. -/
theorem recover_eq_ok_iff {z : Nat} {n : Numbers} {key : PublicKey} (hr : n.r < order)
    (hz : z < order) :
    recover z n = .ok key ↔ ∃ Q, publicKey? (Point.of Q) = some key ∧ Signs Q z n := by
  have hsolved : ∀ {R Q : Element}, n.r ≠ 0 →
      (Modular.inverse order n.r • ((order - z) • base + n.s • R) = Q ↔
        n.s • R = z • base + n.r • Q) := by
    intro R Q hrne
    rw [inverse_smul_eq_iff hrne hr, order_sub_smul (Nat.le_of_lt hz), eq_neg_add_iff_add_eq]
    exact eq_comm
  unfold recover
  constructor
  · intro h
    split at h
    · cases h
    rename_i hne
    rw [not_or] at hne
    split at h
    · cases h
    rename_i point hnonce
    obtain ⟨x, y, rfl, hcurve, -⟩ := (noncePoint?_eq_some_iff hr).1 hnonce
    obtain ⟨R, hR⟩ := Point.exists_of_eq (p := .affine x y) hcurve
    dsimp only at h
    rw [← hR, generator_mul_add_mul] at h
    split at h
    · rename_i found hkey
      cases h
      exact ⟨_, hkey, hne.1, hne.2, R, hnonce.trans (congrArg some hR.symm), (hsolved hne.1).1 rfl⟩
    · cases h
  · rintro ⟨Q, hkey, hrne, hsne, R, hnonce, hequation⟩
    rw [if_neg (not_or.2 ⟨hrne, hsne⟩), hnonce]
    dsimp only
    rw [generator_mul_add_mul, (hsolved hrne).2 hequation, hkey]

/-! ## Signing -/

theorem halfOrder_lt : halfOrder < order := by decide

theorem signWith?_signs {d z k : Nat} {n : Numbers} (hpos : k ≠ 0) (hlt : k < order)
    (h : signWith? d z k = some n) :
    n.r < order ∧ n.s ≤ halfOrder ∧ Signs (d • base) z n := by
  unfold signWith? at h
  rw [generator_mul] at h
  split at h
  · cases h
  rename_i x y hpoint
  dsimp only at h
  split at h
  · cases h
  rename_i hne
  rw [not_or] at hne
  obtain ⟨hrne, hsne⟩ := hne
  have hpositive : 0 < order := by decide
  have hr : x % order < order := Nat.mod_lt _ hpositive
  generalize hsdef : Modular.inverse order k * (z + x % order * d) % order = s at h hsne
  have hs : s < order := by
    rw [← hsdef]
    exact Nat.mod_lt _ hpositive
  have hequation : s • k • base = z • base + (x % order) • d • base := by
    rw [← hsdef, mod_order_smul, mul_smul, inverse_smul_eq_iff hpos hlt, smul_comm _ k,
      ← mul_smul, ← add_smul]
  have hsigns := signs_of_point hpoint hrne hsne hequation
  split at h
  · rename_i hhalf
    cases h
    exact ⟨hr, hhalf, hsigns⟩
  · rename_i hhalf
    cases h
    have hhalves : order ≤ 2 * halfOrder + 1 := by decide
    have hle : order - s ≤ halfOrder := by omega
    exact ⟨hr, hle, hsigns.opposite hr (Nat.sub_ne_zero_of_lt hs) (Nat.sub_add_cancel hs.le)⟩

theorem signFrom?_signs {d z : Nat} {n : Numbers} (attempts : Nat) (source : Nonce.Generator)
    (h : signFrom? d z attempts source = some n) :
    n.r < order ∧ n.s ≤ halfOrder ∧ Signs (d • base) z n := by
  induction attempts generalizing source with
  | zero => cases h
  | succ attempts ih =>
    unfold signFrom? at h
    dsimp only at h
    split at h
    · rename_i found hfound
      cases h
      split at hfound
      · cases hfound
      · rename_i hrange
        rw [not_or, Nat.not_le] at hrange
        exact signWith?_signs hrange.1 hrange.2 hfound
    · exact ih _ h

end Ecdsa
end Key
end LockScript
