import LockScript.Proofs.Key.PublicKeys
import LockScript.Proofs.Machine.Unreached

/-!
What a signature says about its message.

The message comes into verifying and recovering as a number modulo the order, and into a run through
signature checks alone.  So two messages that are the same number modulo the order cannot be told
apart, by a key or by a script.  Other messages can: the signature equation leaves room for one
multiple of the generator, once the key and the nonce's point are given, and the generator has that
very order.
-/

namespace LockScript

namespace Key

open Curve
open Ecdsa (publicKey? scalar Signs)

section

variable {message message' : Message}

theorem verify_of_scalar_eq (h : scalar message' = scalar message) (key : PublicKey)
    (signature : Signature) : verify key signature message' = verify key signature message := by
  rw [verify, verify, h]

theorem recover_of_scalar_eq (h : scalar message' = scalar message) (signature : Signature) :
    recover signature message' = recover signature message := by
  rw [recover, recover, h]

/-- Numbers sign no two scalars for one element. -/
theorem Ecdsa.Signs.scalar_unique {Q : Element} {z z' : Nat} {n : Ecdsa.Numbers}
    (h : Signs Q z n) (h' : Signs Q z' n) : z % order = z' % order := by
  obtain ⟨R, hnonce, hequation⟩ := h.equation
  obtain ⟨R', hnonce', hequation'⟩ := h'.equation
  have hsame : R = R' := Point.of_injective (Option.some.inj (hnonce.symm.trans hnonce'))
  have hmultiples : z • base + n.r • Q = z' • base + n.r • Q := by
    rw [← hequation, ← hequation', hsame]
  exact nsmul_base_eq_iff.1 (add_right_cancel hmultiples)

theorem scalar_eq_of_recover {signature : Signature} {key : PublicKey}
    (h : recover signature message = .ok key) (h' : recover signature message' = .ok key) :
    scalar message = scalar message' := by
  obtain ⟨n, Q, hnumbers, hkey, hsigns⟩ := recover_eq_ok_iff.1 h
  obtain ⟨n', Q', hnumbers', hkey', hsigns'⟩ := recover_eq_ok_iff.1 h'
  obtain rfl : n = n' := Except.ok.inj (hnumbers.symm.trans hnumbers')
  obtain rfl : Q = Q' := eq_of_publicKey? hkey hkey'
  have hscalar := hsigns.scalar_unique hsigns'
  rwa [Nat.mod_eq_of_lt (scalar_lt message), Nat.mod_eq_of_lt (scalar_lt message')] at hscalar

end

end Key

namespace Machine

open Curve (order)

theorem signatureHolds_of_scalar_eq {message message' : Key.Message}
    (h : Key.Ecdsa.scalar message' = Key.Ecdsa.scalar message) (key : Key.PublicKey)
    (signature : Octets 65) :
    signatureHolds key signature message' = signatureHolds key signature message := by
  rw [signatureHolds, signatureHolds, Key.verify_of_scalar_eq h]

/-- A signature check is the one instruction that looks at the message, and it looks at its
scalar. -/
theorem perform_of_scalar_eq {message message' : Key.Message}
    (h : Key.Ecdsa.scalar message' = Key.Ecdsa.scalar message) (limits : Limits)
    (length pc : Nat) (stack : Stack) (instruction : Instruction) :
    perform ⟨message', limits⟩ length pc stack instruction =
      perform ⟨message, limits⟩ length pc stack instruction := by
  by_cases hcheck : instruction = .chksig
  · subst hcheck
    simp only [perform, signatureHolds_of_scalar_eq h]
  · exact perform_of_ne_chksig message message' limits length pc stack hcheck

/-- A signature binds its message modulo the order.  Messages that are the same number modulo the
order make no difference to any key, signature or script, and a signature leads to one public key
for such messages only. -/
theorem message_bound_modulo_order :
    (∀ message message' : Key.Message, message'.toNat % order = message.toNat % order →
      (∀ key signature, Key.verify key signature message' = Key.verify key signature message) ∧
      (∀ signature, Key.recover signature message' = Key.recover signature message) ∧
      ∀ limits,
        (∀ script, execute ⟨message', limits⟩ script = execute ⟨message, limits⟩ script) ∧
        (∀ script, trace ⟨message', limits⟩ script = trace ⟨message, limits⟩ script) ∧
        ∀ unlocking params lock, unlock ⟨message', limits⟩ unlocking params lock =
          unlock ⟨message, limits⟩ unlocking params lock) ∧
    ∀ signature message message' key, Key.recover signature message = .ok key →
      Key.recover signature message' = .ok key → message.toNat % order = message'.toNat % order := by
  refine ⟨?_, fun _ _ _ _ => Key.scalar_eq_of_recover⟩
  intro message message' hsame
  refine ⟨Key.verify_of_scalar_eq hsame, Key.recover_of_scalar_eq hsame, ?_⟩
  intro limits
  have hperform := perform_of_scalar_eq hsame limits
  have hrun : ∀ script stack,
      run ⟨message', limits⟩ script stack = run ⟨message, limits⟩ script stack := by
    intro script
    exact run_of_message fun instruction _ length pc stack => hperform length pc stack instruction
  refine ⟨?_, ?_, ?_⟩
  · intro script
    rw [execute, execute, hrun]
  · intro script
    rw [trace, trace, hrun]
  · intro unlocking params lock
    exact unlock_of_message (fun instruction _ length pc stack =>
      hperform length pc stack instruction) unlocking params

/-- The order itself, read as a message, is the zero message over again. -/
theorem message_bound_order_zero :
    Octets.ofNat 32 order ≠ Octets.zero 32 ∧
    (∃ (x : Octets 32) (key : Key.PublicKey),
      Key.recover ⟨x, x, 0⟩ (Octets.zero 32) = .ok key ∧
      Key.recover ⟨x, x, 0⟩ (Octets.ofNat 32 order) = .ok key ∧
      (Octets.zero 32).toNat % order = (Octets.ofNat 32 order).toNat % order) ∧
    ∀ script, trace { message := Octets.ofNat 32 order } script = trace {} script := by
  have hsame : (Octets.ofNat 32 order).toNat % order = (Octets.zero 32).toNat % order := by
    decide +kernel
  obtain ⟨-, hrecover, hlimits⟩ := message_bound_modulo_order.1 (Octets.zero 32) _ hsame
  refine ⟨by decide, ?_, (hlimits _).2.1⟩
  obtain ⟨x, key, hfound⟩ := Key.exists_recover_zero
  have hfound' := (hrecover ⟨x, x, 0⟩).trans hfound
  exact ⟨x, key, hfound, hfound', message_bound_modulo_order.2 _ _ _ _ hfound hfound'⟩

end Machine
end LockScript
