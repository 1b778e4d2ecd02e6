import LockScript.Proofs.Key.Signing

/-!
The public keys that come out.

Keys are made from private keys and recovered from signatures, in both cases from an element of the
group that is not zero.  Such an element has reduced coordinates on the curve, each of which fits in
its half of the key, so a key that came out can go in again.  Two private keys do not share a public
key, since the generator has the order that bounds them.
-/

namespace LockScript
namespace Key

open Curve
open Ecdsa (numbers publicKey? publicPoint)

/-! ## Keys that go in -/

def coordinates (key : PublicKey) : Nat × Nat :=
  (Bytes.toNat (key.bytes.take 32), Bytes.toNat (key.bytes.drop 32))

/-- The halves of the key are the coordinates of a point of the curve. -/
structure Usable (key : PublicKey) : Prop where
  x_lt : (coordinates key).1 < prime
  y_lt : (coordinates key).2 < prime
  equation : (coordinates key).2 * (coordinates key).2 % prime =
    ((coordinates key).1 * (coordinates key).1 * (coordinates key).1 + 7) % prime

theorem publicPoint_eq (key : PublicKey) :
    publicPoint key =
      if isOnCurve (coordinates key).1 (coordinates key).2 then
        .ok (.affine (coordinates key).1 (coordinates key).2)
      else .error .invalidPublicKey := rfl

theorem rightSide_eq (x : Nat) : rightSide x = (x * x * x + 7) % prime := by
  have hsquare : x * x % prime ≡ x * x [MOD prime] := Nat.mod_modEq _ _
  exact (hsquare.mul_right x).add_right 7

theorem isOnCurve_coordinates_iff {key : PublicKey} :
    isOnCurve (coordinates key).1 (coordinates key).2 = true ↔ Usable key := by
  simp only [isOnCurve, Bool.and_eq_true, decide_eq_true_eq, beq_iff_eq, rightSide_eq]
  constructor
  · intro h
    exact ⟨h.1.1, h.1.2, h.2⟩
  · intro h
    exact ⟨⟨h.x_lt, h.y_lt⟩, h.equation⟩

theorem exists_publicPoint_iff {key : PublicKey} :
    (∃ q, publicPoint key = .ok q) ↔ Usable key := by
  rw [publicPoint_eq, ← isOnCurve_coordinates_iff]
  by_cases hcurve : isOnCurve (coordinates key).1 (coordinates key).2 = true
  · rw [if_pos hcurve]
    exact iff_of_true ⟨_, rfl⟩ hcurve
  · rw [if_neg hcurve]
    refine iff_of_false ?_ hcurve
    intro hpoint
    obtain ⟨q, hq⟩ := hpoint
    cases hq

theorem usable_of_publicKey? {Q : Element} {key : PublicKey}
    (h : publicKey? (Point.of Q) = some key) : Usable key :=
  exists_publicPoint_iff.1 ⟨_, Ecdsa.publicPoint_of_publicKey? (Point.isValid_of Q) h⟩

/-- What is wrong with the numbers of a signature is never put down to the key. -/
theorem ofFault_of_numbers {signature : Signature} {fault : Fault}
    (h : numbers signature = .error fault) : Error.ofFault fault = .invalidSignature := by
  unfold Ecdsa.numbers at h
  split at h
  · cases h
    rfl
  · split at h
    · cases h
      rfl
    · cases h

theorem verify_ne_invalidPublic {key : PublicKey} (h : Usable key) (signature : Signature)
    (message : Message) : verify key signature message ≠ .error .invalidPublic := by
  obtain ⟨q, hq⟩ := exists_publicPoint_iff.2 h
  unfold verify
  cases hnumbers : numbers signature with
  | error fault =>
    show Except.error (Error.ofFault fault) ≠ _
    rw [ofFault_of_numbers hnumbers]
    intro hsame
    cases hsame
  | ok n =>
    dsimp only
    rw [hq]
    intro hsame
    cases hsame

theorem usable_of_verify {key : PublicKey}
    (h : ∀ signature message, verify key signature message ≠ .error .invalidPublic) :
    Usable key := by
  by_contra hoff
  have hpoint : publicPoint key = .error .invalidPublicKey :=
    if_neg (mt isOnCurve_coordinates_iff.1 hoff)
  -- the signature is looked at first, so it takes one whose numbers are in range
  have hzero : numbers Signature.zero = .ok ⟨0, 0, false, false⟩ := by decide
  apply h Signature.zero (Octets.zero 32)
  rw [verify, hzero]
  dsimp only
  rw [hpoint]
  rfl

/-! ## Keys that come out -/

theorem eq_of_publicKey? {P Q : Element} {key : PublicKey}
    (hP : publicKey? (Point.of P) = some key) (hQ : publicKey? (Point.of Q) = some key) :
    P = Q := by
  have hpointP := Ecdsa.publicPoint_of_publicKey? (Point.isValid_of P) hP
  have hpointQ := Ecdsa.publicPoint_of_publicKey? (Point.isValid_of Q) hQ
  exact Point.of_injective (Except.ok.inj (hpointP.symm.trans hpointQ))

theorem publicKey?_of_ofPrivate {key : PrivateKey} {pair : Pair}
    (h : Pair.ofPrivate key = .ok pair) :
    key.toNat < order ∧ publicKey? (Point.of (key.toNat • base)) = some pair.publicKey := by
  by_cases hrange : key.toNat = 0 ∨ order ≤ key.toNat
  · rw [(ofPrivate_eq_invalidSecret_iff key).2 hrange] at h
    cases h
  · obtain ⟨publicKey, hpair, hkey⟩ := exists_ofPrivate hrange
    rw [hpair] at h
    cases h
    exact ⟨by omega, hkey⟩

theorem usable_of_ofPrivate {key : PrivateKey} {pair : Pair} (h : Pair.ofPrivate key = .ok pair) :
    Usable pair.publicKey :=
  usable_of_publicKey? (publicKey?_of_ofPrivate h).2

theorem usable_of_recover {signature : Signature} {message : Message} {key : PublicKey}
    (h : recover signature message = .ok key) : Usable key := by
  obtain ⟨n, Q, -, hkey, -⟩ := recover_eq_ok_iff.1 h
  exact usable_of_publicKey? hkey

theorem ofPrivate_of_generate {candidates : List PrivateKey} {pair : Pair}
    (h : Pair.generate candidates = .ok pair) :
    ∃ key ∈ candidates, Pair.ofPrivate key = .ok pair := by
  induction candidates with
  | nil => cases h
  | cons candidate rest ih =>
    rw [Pair.generate] at h
    cases hpair : Pair.ofPrivate candidate with
    | ok found =>
      rw [hpair] at h
      cases h
      exact ⟨candidate, List.mem_cons_self, hpair⟩
    | error reason =>
      rw [hpair] at h
      obtain ⟨key, hmem, hkey⟩ := ih h
      exact ⟨key, List.mem_cons_of_mem candidate hmem, hkey⟩

/-- Private keys below the order have one public key each, and no two have the same. -/
theorem ofPrivate_injective {key key' : PrivateKey} {pair pair' : Pair}
    (h : Pair.ofPrivate key = .ok pair) (h' : Pair.ofPrivate key' = .ok pair')
    (hsame : pair.publicKey = pair'.publicKey) : key = key' := by
  obtain ⟨hlt, hkey⟩ := publicKey?_of_ofPrivate h
  obtain ⟨hlt', hkey'⟩ := publicKey?_of_ofPrivate h'
  rw [← hsame] at hkey'
  have hfactors := nsmul_base_eq_iff.1 (eq_of_publicKey? hkey hkey')
  rw [Nat.mod_eq_of_lt hlt, Nat.mod_eq_of_lt hlt'] at hfactors
  rw [← Octets.ofNat_toNat key, hfactors, Octets.ofNat_toNat]

/-- The public keys that come out, whichever way, are usable: they are points of the curve, and a
key is refused as such if and only if it is none.  Private keys from one below the order have one
each, and two of them are never the same. -/
theorem public_keys_usable :
    (∀ key : PrivateKey, 0 < key.toNat → key.toNat < order →
      ∃ pair, Pair.ofPrivate key = .ok pair ∧ pair.privateKey = key ∧ Usable pair.publicKey) ∧
    (∀ candidates pair, Pair.generate candidates = .ok pair → Usable pair.publicKey) ∧
    (∀ signature message key, recover signature message = .ok key → Usable key) ∧
    (∀ key, Usable key ↔
      ∀ signature message, verify key signature message ≠ .error .invalidPublic) ∧
    ∀ key key' pair pair', Pair.ofPrivate key = .ok pair → Pair.ofPrivate key' = .ok pair' →
      (pair.publicKey = pair'.publicKey ↔ key = key') := by
  refine ⟨?_, ?_, fun _ _ _ => usable_of_recover,
    fun _ => ⟨verify_ne_invalidPublic, usable_of_verify⟩, ?_⟩
  · intro key hpos hlt
    obtain ⟨publicKey, hpair, -⟩ := @exists_ofPrivate key (by omega)
    exact ⟨_, hpair, rfl, usable_of_ofPrivate hpair⟩
  · intro candidates pair hpair
    obtain ⟨key, -, hkey⟩ := ofPrivate_of_generate hpair
    exact usable_of_ofPrivate hkey
  · intro key key' pair pair' hpair hpair'
    constructor
    · exact ofPrivate_injective hpair hpair'
    · intro hsame
      rw [hsame, hpair'] at hpair
      cases hpair
      rfl

/-- The first coordinate of the generator, taken for both numbers of a signature, leads from the zero
message to the generator's own key. -/
theorem exists_recover_zero : ∃ (x : Octets 32) (key : PublicKey),
    recover ⟨x, x, 0⟩ (Octets.zero 32) = .ok key := by
  refine ⟨Octets.ofNat 32 0x79be667ef9dcbbac55a06295ce870b07029bfcdb2dce28d959f2815b16f81798,
    (publicKey? generator).getD (Octets.zero 64), ?_⟩
  decide +kernel

/-- One and two are private keys, and their public keys differ. -/
theorem public_keys_usable_small :
    (∃ one two, Pair.ofPrivate (Octets.ofNat 32 1) = .ok one ∧
      Pair.ofPrivate (Octets.ofNat 32 2) = .ok two ∧
      Usable one.publicKey ∧ Usable two.publicKey ∧ one.publicKey ≠ two.publicKey) ∧
    (∃ pair, Pair.generate [Octets.zero 32, Octets.ofNat 32 2] = .ok pair ∧
      Usable pair.publicKey) ∧
    ∃ (x : Octets 32) (key : PublicKey), recover ⟨x, x, 0⟩ (Octets.zero 32) = .ok key ∧
      Usable key ∧ verify key ⟨x, x, 0⟩ (Octets.zero 32) ≠ .error .invalidPublic := by
  obtain ⟨hprivate, hgenerate, hrecover, hverify, hinjective⟩ := public_keys_usable
  obtain ⟨one, hone, -, husableOne⟩ := hprivate (Octets.ofNat 32 1) (by decide) (by decide)
  obtain ⟨two, htwo, -, husableTwo⟩ := hprivate (Octets.ofNat 32 2) (by decide) (by decide)
  have hzero : Pair.ofPrivate (Octets.zero 32) = .error .invalidSecret := by decide +kernel
  have hpair : Pair.generate [Octets.zero 32, Octets.ofNat 32 2] = .ok two := by
    rw [Pair.generate, hzero]
    dsimp only
    rw [Pair.generate, htwo]
  refine ⟨⟨one, two, hone, htwo, husableOne, husableTwo, ?_⟩, ⟨two, hpair, hgenerate _ _ hpair⟩, ?_⟩
  · intro hsame
    exact absurd ((hinjective _ _ _ _ hone htwo).1 hsame) (by decide)
  · obtain ⟨x, key, hfound⟩ := exists_recover_zero
    exact ⟨x, key, hfound, hrecover _ _ _ hfound, (hverify _).1 (hrecover _ _ _ hfound) _ _⟩

end Key
end LockScript
