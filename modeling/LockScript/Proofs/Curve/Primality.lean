import Mathlib.Data.List.Prime
import Mathlib.NumberTheory.LucasPrimality
import LockScript.Curve.Point
import LockScript.Proofs.Curve.Modular

/-!
The two moduli are prime.

A number is prime if some base has the full order modulo it, which the powers of the base at the
prime factors of its predecessor show.  These factors may be large themselves, so a certificate
lists what is needed one after the other, the factors of a number before the number.  Small
factors are left to trial division.
-/

namespace LockScript
namespace Curve
namespace Primality

/-- A number with a base of full order and the factors of its predecessor, each as often as it
divides. -/
structure Entry where
  number : Nat
  base : Nat
  factors : List Nat

/-- The powers of the base are as they have to be, and each factor is known to be prime or has no
divisor that trial division finds. -/
def Entry.holds (known : List Nat) (entry : Entry) : Bool :=
  1 < entry.number && entry.factors.prod == entry.number - 1 &&
    Modular.power entry.number entry.base (entry.number - 1) == 1 &&
    entry.factors.all fun factor =>
      (factor ∈ known || 2 ≤ factor && factor.minFac == factor) &&
        Modular.power entry.number entry.base ((entry.number - 1) / factor) != 1

/-- Every entry holds once those before it are known. -/
def holds : (known : List Nat) → List Entry → Bool
  | _, [] => true
  | known, entry :: rest => entry.holds known && holds (entry.number :: known) rest

theorem power_eq_one_iff {m : Nat} (hm : 1 < m) (base exponent : Nat) :
    Modular.power m base exponent = 1 ↔ (base : ZMod m) ^ exponent = 1 := by
  rw [Modular.power_eq, ← Nat.cast_pow, ← Nat.cast_one (R := ZMod m),
    ZMod.natCast_eq_natCast_iff', Nat.mod_eq_of_lt hm]

theorem Entry.prime_of_holds {known : List Nat} {entry : Entry}
    (hknown : ∀ number ∈ known, number.Prime) (h : entry.holds known = true) :
    entry.number.Prime := by
  simp only [holds, Bool.and_eq_true, Bool.or_eq_true, decide_eq_true_eq, beq_iff_eq, bne_iff_ne,
    List.all_eq_true] at h
  obtain ⟨⟨⟨hone, hprod⟩, hfull⟩, hfactors⟩ := h
  refine lucas_primality entry.number entry.base ((power_eq_one_iff hone _ _).1 hfull) ?_
  intro q hq hdvd
  -- a prime divisor of the predecessor divides one of the factors, and these are prime
  rw [← hprod] at hdvd
  obtain ⟨factor, hmem, hdvd⟩ := (Prime.dvd_prod_iff hq.prime).1 hdvd
  obtain ⟨hprime, hpart⟩ := hfactors factor hmem
  have hfactor : factor.Prime := by
    rcases hprime with hlisted | hsmall
    · exact hknown factor hlisted
    · exact Nat.prime_def_minFac.2 hsmall
  have hsame : q = factor := (Nat.prime_dvd_prime_iff_eq hq hfactor).1 hdvd
  rw [hsame]
  intro hone'
  exact hpart ((power_eq_one_iff hone _ _).2 hone')

theorem prime_of_holds {known : List Nat} {entries : List Entry}
    (hknown : ∀ number ∈ known, number.Prime) (h : holds known entries = true) {entry : Entry}
    (hmem : entry ∈ entries) : entry.number.Prime := by
  induction entries generalizing known with
  | nil => cases hmem
  | cons first rest ih =>
    rw [holds, Bool.and_eq_true] at h
    have hfirst := Entry.prime_of_holds hknown h.1
    rcases List.mem_cons.1 hmem with rfl | hrest
    · exact hfirst
    · refine ih ?_ h.2 hrest
      intro number hnumber
      rcases List.mem_cons.1 hnumber with rfl | hbefore
      · exact hfirst
      · exact hknown number hbefore

/-- The modulus of the coordinates, and what it takes to see that it is prime. -/
def coordinates : List Entry :=
  [⟨107590001, 3, [2, 2, 2, 2, 5, 5, 5, 5, 7, 29, 53]⟩,
   ⟨7240687, 3, [2, 3, 1206781]⟩,
   ⟨255515944373312847190720520512484175977, 3,
      [2, 2, 2, 7, 7, 11, 1627, 2657, 4423, 41201, 96557, 7240687, 107590001]⟩,
   ⟨13331831, 13, [2, 5, 971, 1373]⟩,
   ⟨173378833005251801, 6, [2, 2, 2, 5, 5, 2621, 24809, 13331831]⟩,
   ⟨22149492674086928081353, 5, [2, 2, 2, 3, 5323, 173378833005251801]⟩,
   ⟨132896956044521568488119, 6, [2, 3, 22149492674086928081353]⟩,
   ⟨205115282021455665897114700593932402728804164701536103180137503955397371, 10,
      [2, 3, 5, 29, 29, 31, 7723, 132896956044521568488119,
        255515944373312847190720520512484175977]⟩,
   ⟨prime, 3,
      [2, 3, 7, 13441, 205115282021455665897114700593932402728804164701536103180137503955397371]⟩]

/-- The number of points, and what it takes to see that it is prime. -/
def multiples : List Entry :=
  [⟨4681609, 23, [2, 2, 2, 3, 97, 2011]⟩,
   ⟨107361793816595537, 3, [2, 2, 2, 2, 16699, 85831, 4681609]⟩,
   ⟨44706919, 6, [2, 3, 797, 9349]⟩,
   ⟨174723607534414371449, 3, [2, 2, 2, 17, 59, 4051, 120233, 44706919]⟩,
   ⟨545358713, 5, [2, 2, 2, 41, 59, 28181]⟩,
   ⟨297159362677, 2, [2, 2, 3, 3, 11, 461, 1627771]⟩,
   ⟨29047611873442575647497758179, 2, [2, 293, 305873, 545358713, 297159362677]⟩,
   ⟨341948486974166000522343609283189, 2, [2, 2, 3, 3, 3, 109, 29047611873442575647497758179]⟩,
   ⟨order, 7,
      [2, 2, 2, 2, 2, 2, 3, 149, 631, 107361793816595537, 174723607534414371449,
        341948486974166000522343609283189]⟩]

theorem coordinates_holds : holds [] coordinates = true := by decide +kernel

theorem multiples_holds : holds [] multiples = true := by decide +kernel

end Primality

theorem prime_prime : Nat.Prime prime := by
  have hlast : Primality.coordinates.getLast (by simp [Primality.coordinates]) ∈
      Primality.coordinates := List.getLast_mem _
  exact Primality.prime_of_holds (by simp) Primality.coordinates_holds hlast

theorem order_prime : Nat.Prime order := by
  have hlast : Primality.multiples.getLast (by simp [Primality.multiples]) ∈
      Primality.multiples := List.getLast_mem _
  exact Primality.prime_of_holds (by simp) Primality.multiples_holds hlast

instance : Fact (Nat.Prime prime) := ⟨prime_prime⟩

instance : Fact (Nat.Prime order) := ⟨order_prime⟩

end Curve
end LockScript
