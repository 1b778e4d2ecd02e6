import Mathlib.Data.Set.Card
import LockScript.Proofs.Key.Equation

/-!
Signing, verifying and recovering on byte strings.

What a private key signs verifies under its public key and leads back to it, and a signature
verifies under exactly the keys that it leads to, if its `s` is the smaller one.  Both follow from
the signature equation: the points form a group of prime order, so the equation can be solved for
each of its parts.
-/

namespace LockScript
namespace Key

open Curve
open Ecdsa (numbers publicKey? scalar secret Signs)

theorem scalar_lt (message : Message) : scalar message < order := Nat.mod_lt _ (by decide)

/-! ## Keys -/

theorem secret_of_range {key : PrivateKey} (h : ¬(key.toNat = 0 ∨ order ≤ key.toNat)) :
    secret key = .ok key.toNat := if_neg h

theorem secret_of_not_range {key : PrivateKey} (h : key.toNat = 0 ∨ order ≤ key.toNat) :
    secret key = .error .invalidSecretKey := if_pos h

theorem smul_base_ne_zero {d : Nat} (hne : d ≠ 0) (hlt : d < order) : d • base ≠ 0 := by
  rw [← natCast_smul, Ne, smul_eq_zero, not_or]
  exact ⟨Ecdsa.cast_order_ne_zero hne hlt, base_ne_zero⟩

/-- Every element but zero has a public key. -/
theorem exists_publicKey? {Q : Element} (h : Q ≠ 0) :
    ∃ key, publicKey? (Point.of Q) = some key := by
  cases Q with
  | zero => exact absurd rfl h
  | some x y hxy => exact ⟨_, rfl⟩

/-- A private key in range has a pair, whose public key is the one of that multiple of the
generator. -/
theorem exists_ofPrivate {key : PrivateKey} (h : ¬(key.toNat = 0 ∨ order ≤ key.toNat)) :
    ∃ publicKey, Pair.ofPrivate key = .ok ⟨key, publicKey⟩ ∧
      publicKey? (Point.of (key.toNat • base)) = some publicKey := by
  have hne : key.toNat • base ≠ 0 := smul_base_ne_zero (by omega) (by omega)
  obtain ⟨publicKey, hkey⟩ := exists_publicKey? hne
  refine ⟨publicKey, ?_, hkey⟩
  rw [Pair.ofPrivate, secret_of_range h]
  dsimp only
  rw [generator_mul, hkey]

theorem ofPrivate_eq_invalidSecret_iff (key : PrivateKey) :
    Pair.ofPrivate key = .error .invalidSecret ↔ key.toNat = 0 ∨ order ≤ key.toNat := by
  by_cases hrange : key.toNat = 0 ∨ order ≤ key.toNat
  · rw [Pair.ofPrivate, secret_of_not_range hrange]
    exact iff_of_true rfl hrange
  · obtain ⟨publicKey, hpair, -⟩ := exists_ofPrivate hrange
    rw [hpair]
    exact iff_of_false nofun hrange

/-! ## Verifying and recovering -/

/-- Public keys are those of the elements. -/
theorem publicPoint_eq_ok_iff_exists {key : PublicKey} {q : Point} :
    Ecdsa.publicPoint key = .ok q ↔ ∃ Q, q = Point.of Q ∧ publicKey? (Point.of Q) = some key := by
  rw [Ecdsa.publicPoint_eq_ok_iff]
  constructor
  · rintro ⟨hvalid, hkey⟩
    obtain ⟨Q, rfl⟩ := Point.exists_of_eq hvalid
    exact ⟨Q, rfl, hkey⟩
  · rintro ⟨Q, rfl, hkey⟩
    exact ⟨Point.isValid_of Q, hkey⟩

theorem verify_eq_ok_true_iff {key : PublicKey} {signature : Signature} {message : Message} :
    verify key signature message = .ok true ↔
      ∃ n Q, numbers signature = .ok n ∧ publicKey? (Point.of Q) = some key ∧
        n.s ≤ Ecdsa.halfOrder ∧
          ∃ odd wrapped, Signs Q (scalar message) ⟨n.r, n.s, odd, wrapped⟩ := by
  unfold verify
  constructor
  · intro h
    split at h
    · cases h
    rename_i n hnumbers
    obtain ⟨-, -, -, hr, hs⟩ := Ecdsa.numbers_eq_ok_iff.1 hnumbers
    split at h
    · cases h
    rename_i q hpoint
    obtain ⟨Q, rfl, hkey⟩ := publicPoint_eq_ok_iff_exists.1 hpoint
    exact ⟨n, Q, hnumbers, hkey, (Ecdsa.verify_eq_true_iff hr hs).1 (Except.ok.inj h)⟩
  · rintro ⟨n, Q, hnumbers, hkey, hsigns⟩
    obtain ⟨-, -, -, hr, hs⟩ := Ecdsa.numbers_eq_ok_iff.1 hnumbers
    rw [hnumbers, publicPoint_eq_ok_iff_exists.2 ⟨Q, rfl, hkey⟩]
    exact congrArg Except.ok ((Ecdsa.verify_eq_true_iff hr hs).2 hsigns)

theorem recover_eq_ok_iff {key : PublicKey} {signature : Signature} {message : Message} :
    recover signature message = .ok key ↔
      ∃ n Q, numbers signature = .ok n ∧ publicKey? (Point.of Q) = some key ∧
        Signs Q (scalar message) n := by
  unfold recover
  constructor
  · intro h
    split at h
    · cases h
    rename_i n hnumbers
    obtain ⟨-, -, -, hr, -⟩ := Ecdsa.numbers_eq_ok_iff.1 hnumbers
    split at h
    · cases h
    rename_i found hfound
    cases h
    obtain ⟨Q, hkey, hsigns⟩ := (Ecdsa.recover_eq_ok_iff hr (scalar_lt message)).1 hfound
    exact ⟨n, Q, hnumbers, hkey, hsigns⟩
  · rintro ⟨n, Q, hnumbers, hkey, hsigns⟩
    obtain ⟨-, -, -, hr, -⟩ := Ecdsa.numbers_eq_ok_iff.1 hnumbers
    rw [hnumbers]
    dsimp only
    rw [(Ecdsa.recover_eq_ok_iff hr (scalar_lt message)).2 ⟨Q, hkey, hsigns⟩]

/-! ## Signing -/

theorem sign_of_range {key : PrivateKey} (h : ¬(key.toNat = 0 ∨ order ≤ key.toNat))
    (message : Message) :
    ∃ attempts source,
      sign key message = signed (Ecdsa.signFrom? key.toNat (scalar message) attempts source) := by
  unfold sign
  rw [secret_of_range h]
  exact ⟨_, _, rfl⟩

theorem signed_ne_invalidSecret (found : Option Ecdsa.Numbers) :
    signed found ≠ .error .invalidSecret := by
  cases found <;> nofun

theorem eq_some_of_signed {found : Option Ecdsa.Numbers} {signature : Signature}
    (h : signed found = .ok signature) : ∃ n, found = some n ∧ n.signature = signature := by
  cases found with
  | none => cases h
  | some n => exact ⟨n, rfl, Except.ok.inj h⟩

theorem sign_of_not_range {key : PrivateKey} (h : key.toNat = 0 ∨ order ≤ key.toNat)
    (message : Message) : sign key message = .error .invalidSecret := by
  unfold sign
  rw [secret_of_not_range h]
  rfl

theorem sign_eq_invalidSecret_iff (key : PrivateKey) (message : Message) :
    sign key message = .error .invalidSecret ↔ key.toNat = 0 ∨ order ≤ key.toNat := by
  by_cases hrange : key.toNat = 0 ∨ order ≤ key.toNat
  · exact iff_of_true (sign_of_not_range hrange message) hrange
  · obtain ⟨attempts, source, hsign⟩ := sign_of_range hrange message
    rw [hsign]
    exact iff_of_false (signed_ne_invalidSecret _) hrange

/-- What comes out of signing are numbers that sign, for the multiple of the generator that the
private key says. -/
theorem exists_signs_of_sign {key : PrivateKey} {message : Message} {signature : Signature}
    (h : sign key message = .ok signature) :
    ¬(key.toNat = 0 ∨ order ≤ key.toNat) ∧
      ∃ n, numbers signature = .ok n ∧ n.s ≤ Ecdsa.halfOrder ∧
        Signs (key.toNat • base) (scalar message) n := by
  by_cases hrange : key.toNat = 0 ∨ order ≤ key.toNat
  · rw [sign_of_not_range hrange] at h
    cases h
  refine ⟨hrange, ?_⟩
  obtain ⟨attempts, source, hsign⟩ := sign_of_range hrange message
  rw [hsign] at h
  obtain ⟨n, hfound, rfl⟩ := eq_some_of_signed h
  obtain ⟨hr, hhalf, hsigns⟩ := Ecdsa.signFrom?_signs attempts source hfound
  have hs : n.s < order := Nat.lt_of_le_of_lt hhalf Ecdsa.halfOrder_lt
  exact ⟨n, Ecdsa.numbers_signature hr hs, hhalf, hsigns⟩

/-- Private keys are the numbers from one below the order, and what they sign is in the smaller
form, verifies under their public key and leads back to it. -/
theorem sign_verifies_and_recovers (key : PrivateKey) (message : Message) :
    (Pair.ofPrivate key = .error .invalidSecret ↔ key.toNat = 0 ∨ order ≤ key.toNat) ∧
    (sign key message = .error .invalidSecret ↔ key.toNat = 0 ∨ order ≤ key.toNat) ∧
    ∀ signature, sign key message = .ok signature →
      signature.v ≤ 3 ∧
      0 < signature.r.toNat ∧ signature.r.toNat < order ∧
      0 < signature.s.toNat ∧ signature.s.toNat ≤ order / 2 ∧
      ∃ pair, Pair.ofPrivate key = .ok pair ∧ pair.privateKey = key ∧
        verify pair.publicKey signature message = .ok true ∧
        recover signature message = .ok pair.publicKey := by
  refine ⟨ofPrivate_eq_invalidSecret_iff key, sign_eq_invalidSecret_iff key message, ?_⟩
  intro signature hsign
  obtain ⟨hrange, n, hnumbers, hhalf, hsigns⟩ := exists_signs_of_sign hsign
  obtain ⟨publicKey, hpair, hkey⟩ := exists_ofPrivate hrange
  obtain ⟨hr, hs, hv, hlt, -⟩ := Ecdsa.numbers_eq_ok_iff.1 hnumbers
  rw [hr, hs, hv]
  refine ⟨(Ecdsa.recoveryByte_spec n.odd n.wrapped).1, Nat.pos_of_ne_zero hsigns.r_ne_zero, hlt,
    Nat.pos_of_ne_zero hsigns.s_ne_zero, hhalf, ⟨key, publicKey⟩, hpair, rfl, ?_, ?_⟩
  · exact verify_eq_ok_true_iff.2 ⟨n, _, hnumbers, hkey, hhalf, n.odd, n.wrapped, hsigns⟩
  · exact recover_eq_ok_iff.2 ⟨n, _, hnumbers, hkey, hsigns⟩

/-- One is a private key, and it signs the zero message. -/
theorem sign_one_verifies :
    ∃ signature pair, sign (Octets.ofNat 32 1) (Octets.zero 32) = .ok signature ∧
      Pair.ofPrivate (Octets.ofNat 32 1) = .ok pair ∧
      verify pair.publicKey signature (Octets.zero 32) = .ok true ∧
      recover signature (Octets.zero 32) = .ok pair.publicKey := by
  have hsign : sign (Octets.ofNat 32 1) (Octets.zero 32) = .ok
      ⟨Octets.ofNat 32 0xa0b37f8fba683cc68f6574cd43b39f0343a50008bf6ccea9d13231d9e7e2e1e4,
        Octets.ofNat 32 0x11edc8d307254296264aebfc3dc76cd8b668373a072fd64665b50000e9fcce52,
        1⟩ := by
    decide +kernel
  obtain ⟨-, -, -, -, -, pair, hpair, -, hverify, hrecover⟩ :=
    (sign_verifies_and_recovers (Octets.ofNat 32 1) (Octets.zero 32)).2.2 _ hsign
  exact ⟨_, pair, hsign, hpair, hverify, hrecover⟩

/-! ## The keys of a signature -/

theorem verify_eq_ok_true_iff_recover {r s : Octets 32} {v : UInt8} {key : PublicKey}
    {message : Message} (hv : v ≤ 3) :
    verify key ⟨r, s, v⟩ message = .ok true ↔
      s.toNat ≤ order / 2 ∧ ∃ v' ≤ 3, recover ⟨r, s, v'⟩ message = .ok key := by
  rw [verify_eq_ok_true_iff]
  constructor
  · rintro ⟨n, Q, hnumbers, hkey, hhalf, odd, wrapped, hsigns⟩
    obtain ⟨hr, hs, -, hrlt, hslt⟩ := Ecdsa.numbers_eq_ok_iff.1 hnumbers
    refine ⟨hs ▸ hhalf, Ecdsa.recoveryByte odd wrapped, (Ecdsa.recoveryByte_spec odd wrapped).1, ?_⟩
    exact recover_eq_ok_iff.2 ⟨⟨n.r, n.s, odd, wrapped⟩, Q,
      Ecdsa.numbers_eq_ok_iff.2 ⟨hr, hs, rfl, hrlt, hslt⟩, hkey, hsigns⟩
  · rintro ⟨hhalf, v', -, hrecover⟩
    obtain ⟨n, Q, hnumbers, hkey, hsigns⟩ := recover_eq_ok_iff.1 hrecover
    obtain ⟨hr, hs, -, hrlt, hslt⟩ := Ecdsa.numbers_eq_ok_iff.1 hnumbers
    have hbyte := Ecdsa.recoveryByte_of_le hv
    exact ⟨⟨n.r, n.s, v % 2 == 1, 2 ≤ v⟩, Q,
      Ecdsa.numbers_eq_ok_iff.2 ⟨hr, hs, hbyte.symm, hrlt, hslt⟩, hkey, hs ▸ hhalf, n.odd,
      n.wrapped, hsigns⟩

theorem le_three_of_verify {r s : Octets 32} {v : UInt8} {key : PublicKey} {message : Message}
    (h : verify key ⟨r, s, v⟩ message = .ok true) : v ≤ 3 := by
  obtain ⟨n, -, hnumbers, -⟩ := verify_eq_ok_true_iff.1 h
  obtain ⟨-, -, rfl, -⟩ := Ecdsa.numbers_eq_ok_iff.1 hnumbers
  exact (Ecdsa.recoveryByte_spec n.odd n.wrapped).1

/-- The keys that the four last bytes lead to. -/
def candidates (r s : Octets 32) (message : Message) : List PublicKey :=
  [0, 1, 2, 3].filterMap fun v => (recover ⟨r, s, v⟩ message).toOption

theorem mem_candidates {r s : Octets 32} {v : UInt8} {key : PublicKey} {message : Message}
    (hv : v ≤ 3) (h : recover ⟨r, s, v⟩ message = .ok key) : key ∈ candidates r s message := by
  refine List.mem_filterMap.2 ⟨v, Ecdsa.mem_bytes_of_le hv, ?_⟩
  rw [h]
  rfl

/-- A signature verifies under the keys that some last byte leads to, and under no others, if its
`s` is the smaller one.  So its last byte does not matter, and there are at most four such keys. -/
theorem verify_iff_recover (r s : Octets 32) (message : Message) :
    (∀ key, ∀ v ≤ 3, verify key ⟨r, s, v⟩ message = .ok true ↔
      s.toNat ≤ order / 2 ∧ ∃ v' ≤ 3, recover ⟨r, s, v'⟩ message = .ok key) ∧
    (Set.encard { key | ∃ v, verify key ⟨r, s, v⟩ message = .ok true } ≤ 4) ∧
    ∀ key, ∀ v ≤ 3, ∀ v' ≤ 3,
      (verify key ⟨r, s, v⟩ message = .ok true ↔ verify key ⟨r, s, v'⟩ message = .ok true) := by
  refine ⟨fun key v hv => verify_eq_ok_true_iff_recover hv, ?_, ?_⟩
  · have hsubset : { key | ∃ v, verify key ⟨r, s, v⟩ message = .ok true } ⊆
        ((candidates r s message).toFinset : Set PublicKey) := by
      rintro key ⟨v, hverify⟩
      obtain ⟨-, v', hv', hrecover⟩ :=
        (verify_eq_ok_true_iff_recover (le_three_of_verify hverify)).1 hverify
      exact List.mem_toFinset.2 (mem_candidates hv' hrecover)
    refine (Set.encard_le_encard hsubset).trans ?_
    rw [Set.encard_coe_eq_coe_finsetCard]
    have hlength : (candidates r s message).length ≤ 4 := List.length_filterMap_le _ _
    exact_mod_cast (List.toFinset_card_le _).trans hlength
  · intro key v hv v' hv'
    rw [verify_eq_ok_true_iff_recover hv, verify_eq_ok_true_iff_recover hv']

/-- The first coordinate of the generator, taken for both numbers, signs the zero message for the
generator's own key. -/
theorem generator_key_verifies :
    ∃ (x : Octets 32) (key : PublicKey), publicKey? generator = some key ∧
      verify key ⟨x, x, 0⟩ (Octets.zero 32) = .ok true ∧
      verify key ⟨x, x, 2⟩ (Octets.zero 32) = .ok true ∧
      ∃ v ≤ 3, recover ⟨x, x, v⟩ (Octets.zero 32) = .ok key := by
  obtain ⟨x, key, hkey, hverify⟩ : ∃ (x : Octets 32) (key : PublicKey),
      publicKey? generator = some key ∧ verify key ⟨x, x, 0⟩ (Octets.zero 32) = .ok true := by
    refine ⟨Octets.ofNat 32 0x79be667ef9dcbbac55a06295ce870b07029bfcdb2dce28d959f2815b16f81798, _,
      rfl, ?_⟩
    decide +kernel
  obtain ⟨hagree, -, hbyte⟩ := verify_iff_recover x x (Octets.zero 32)
  exact ⟨x, key, hkey, hverify, (hbyte key 0 (by decide) 2 (by decide)).1 hverify,
    ((hagree key 0 (by decide)).1 hverify).2⟩

end Key
end LockScript
