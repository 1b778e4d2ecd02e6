import Mathlib.Data.List.Induction
import LockScript.Bytes

/-!
What all the proofs share: the outcome of a computation that can fail and what it says about its
parts, and byte strings of a fixed length and the numbers they spell, each of which gives the other.
-/

namespace LockScript

namespace Result

variable {ε α β : Type}

theorem bind_eq_ok_iff {first : Except ε α} {next : α → Except ε β} {result : β} :
    first >>= next = .ok result ↔ ∃ value, first = .ok value ∧ next value = .ok result := by
  cases first <;> simp [bind, Except.bind]

theorem bind_eq_error_iff {first : Except ε α} {next : α → Except ε β} {reason : ε} :
    first >>= next = .error reason ↔
      first = .error reason ∨ ∃ value, first = .ok value ∧ next value = .error reason := by
  cases first <;> simp [bind, Except.bind]

theorem map_eq_ok_iff {first : Except ε α} {f : α → β} {result : β} :
    first.map f = .ok result ↔ ∃ value, first = .ok value ∧ f value = result := by
  cases first <;> simp [Except.map]

theorem map_eq_error_iff {first : Except ε α} {f : α → β} {reason : ε} :
    first.map f = .error reason ↔ first = .error reason := by
  cases first <;> simp [Except.map]

end Result

namespace Bytes

theorem ofNat_toNat (bytes : Bytes) : ofNat bytes.length (toNat bytes) = bytes := by
  induction bytes using List.reverseRecOn with
  | nil => rfl
  | append_singleton bytes byte ih =>
    have hbyte : byte.toNat < 256 := byte.toNat_lt
    have hhigh : (toNat bytes * 256 + byte.toNat) / 256 = toNat bytes := by omega
    have hlow : UInt8.ofNat (toNat bytes * 256 + byte.toNat) = byte := by
      apply UInt8.toNat_inj.1
      rw [UInt8.toNat_ofNat']
      omega
    rw [toNat_append_singleton, List.length_append, List.length_singleton, ofNat, hhigh, hlow, ih]

end Bytes

namespace Octets

variable {size m n : Nat}

theorem ext_bytes {a b : Octets size} (h : a.bytes = b.bytes) : a = b := by
  cases a
  cases b
  cases h
  rfl

theorem toNat_ofNat {value : Nat} (h : value < Nat.pow 256 size) :
    (ofNat size value).toNat = value := by
  rw [toNat, ofNat, Bytes.toNat_ofNat]
  exact Nat.mod_eq_of_lt h

theorem ofNat_toNat (octets : Octets size) : ofNat size octets.toNat = octets := by
  apply ext_bytes
  have hbytes := Bytes.ofNat_toNat octets.bytes
  rw [octets.length_bytes] at hbytes
  exact hbytes

theorem takeLeft_append (a : Octets m) (b : Octets n) : (a.append b).takeLeft = a := by
  apply ext_bytes
  exact List.take_left' a.length_bytes

theorem takeRight_append (a : Octets m) (b : Octets n) : (a.append b).takeRight = b := by
  apply ext_bytes
  exact List.drop_left' a.length_bytes

theorem append_take (a : Octets (m + n)) : a.takeLeft.append a.takeRight = a := by
  apply ext_bytes
  exact List.take_append_drop m a.bytes

end Octets

end LockScript
