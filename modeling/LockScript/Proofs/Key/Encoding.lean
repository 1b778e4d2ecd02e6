import LockScript.Key.Ecdsa
import LockScript.Proofs.Basic

/-!
Keys and signatures, in bytes and in numbers.

A public key spells the coordinates of a point, and a signature spells its numbers.  Reading takes
exactly what writing gives: the key of a valid point, and the signature of numbers below the order.
-/

namespace LockScript
namespace Key
namespace Ecdsa

open Curve

theorem order_lt_width : order < Nat.pow 256 32 := by decide

theorem prime_lt_width : prime < Nat.pow 256 32 := by decide

/-! ## Public keys -/

theorem publicKey?_of_publicPoint {key : PublicKey} {q : Point} (h : publicPoint key = .ok q) :
    q.isValid = true ∧ publicKey? q = some key := by
  unfold publicPoint at h
  dsimp only at h
  split at h
  · rename_i hcurve
    cases h
    refine ⟨hcurve, ?_⟩
    rw [publicKey?, Octets.ofNat_toNat, Octets.ofNat_toNat]
    exact congrArg some (Octets.append_take (m := 32) (n := 32) key)
  · cases h

theorem publicPoint_of_publicKey? {key : PublicKey} {q : Point} (hvalid : q.isValid = true)
    (h : publicKey? q = some key) : publicPoint key = .ok q := by
  cases q with
  | infinity => cases h
  | affine x y =>
    have hbounds : x < prime ∧ y < prime := by
      simp only [Point.isValid, isOnCurve, Bool.and_eq_true, decide_eq_true_eq] at hvalid
      exact hvalid.1
    have hwidth := prime_lt_width
    have hx : (Octets.ofNat 32 x).toNat = x := Octets.toNat_ofNat (by omega)
    have hy : (Octets.ofNat 32 y).toNat = y := Octets.toNat_ofNat (by omega)
    obtain rfl : Octets.append (Octets.ofNat 32 x) (Octets.ofNat 32 y) = key := Option.some.inj h
    rw [publicPoint, Octets.takeLeft_append, Octets.takeRight_append, hx, hy]
    exact if_pos hvalid

theorem publicPoint_eq_ok_iff {key : PublicKey} {q : Point} :
    publicPoint key = .ok q ↔ q.isValid = true ∧ publicKey? q = some key := by
  constructor
  · intro h
    exact publicKey?_of_publicPoint h
  · intro h
    exact publicPoint_of_publicKey? h.1 h.2

/-! ## Signatures -/

/-- The last byte of a signature. -/
def recoveryByte (odd wrapped : Bool) : UInt8 :=
  (if odd then 1 else 0) + (if wrapped then 2 else 0)

theorem recoveryByte_spec (odd wrapped : Bool) :
    recoveryByte odd wrapped ≤ 3 ∧ (recoveryByte odd wrapped % 2 == 1) = odd ∧
      decide (2 ≤ recoveryByte odd wrapped) = wrapped := by
  cases odd <;> cases wrapped <;> decide

theorem mem_bytes_of_le {v : UInt8} (h : v ≤ 3) : v ∈ [(0 : UInt8), 1, 2, 3] := by
  have hle : v.toNat ≤ 3 := UInt8.le_iff_toNat_le.1 h
  simp only [List.mem_cons, List.not_mem_nil, or_false, ← UInt8.toNat_inj]
  show v.toNat = 0 ∨ v.toNat = 1 ∨ v.toNat = 2 ∨ v.toNat = 3
  omega

theorem recoveryByte_of_le {v : UInt8} (h : v ≤ 3) : recoveryByte (v % 2 == 1) (2 ≤ v) = v := by
  have hmem := mem_bytes_of_le h
  simp only [List.mem_cons, List.not_mem_nil, or_false] at hmem
  rcases hmem with rfl | rfl | rfl | rfl <;> decide

/-- A signature spells the numbers that are below the order and whose last byte it has. -/
theorem numbers_eq_ok_iff {signature : Signature} {n : Numbers} :
    numbers signature = .ok n ↔
      signature.r.toNat = n.r ∧ signature.s.toNat = n.s ∧
        signature.v = recoveryByte n.odd n.wrapped ∧ n.r < order ∧ n.s < order := by
  constructor
  · intro h
    unfold numbers at h
    split at h
    · cases h
    rename_i hv
    split at h
    · cases h
    rename_i hrange
    rw [not_or, Nat.not_le, Nat.not_le] at hrange
    cases h
    exact ⟨rfl, rfl, (recoveryByte_of_le (UInt8.not_lt.1 hv)).symm, hrange.1, hrange.2⟩
  · rintro ⟨hr, hs, hv, hrlt, hslt⟩
    obtain ⟨hle, hodd, hwrapped⟩ := recoveryByte_spec n.odd n.wrapped
    rw [numbers, hr, hs, hv, if_neg (UInt8.not_lt.2 hle), if_neg (by omega), hodd, hwrapped]

theorem numbers_signature {n : Numbers} (hr : n.r < order) (hs : n.s < order) :
    numbers n.signature = .ok n := by
  have hwidth := order_lt_width
  exact numbers_eq_ok_iff.2
    ⟨Octets.toNat_ofNat (by omega), Octets.toNat_ofNat (by omega), rfl, hr, hs⟩

end Ecdsa
end Key
end LockScript
