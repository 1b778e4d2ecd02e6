import LockScript.Text.Basic
import LockScript.Text.Hex

/-!
Hexadecimal text reads back as the bytes it was written for.

Nothing that is skipped or cut off in reading is a digit, so a text of digits is read whole.  It has
two digits for each byte, which are taken two at a time.
-/

namespace LockScript
namespace Text

/-! ## Blanks at the ends -/

theorem dropWhile_append_singleton {p : Char → Bool} {c : Char} (h : p c = false)
    (chars : List Char) : (chars ++ [c]).dropWhile p = chars.dropWhile p ++ [c] := by
  induction chars with
  | nil => simp [h]
  | cons a chars ih =>
    by_cases ha : p a = true
    · simp [ha, ih]
    · simp [ha]

theorem trimChars_cons {c : Char} (h : isBlank c = false) (chars : List Char) :
    trimChars (c :: chars) = c :: (chars.reverse.dropWhile isBlank).reverse := by
  rw [trimChars, List.dropWhile_cons_of_neg (by simp [h]), List.reverse_cons,
    dropWhile_append_singleton h, List.reverse_append]
  rfl

theorem trimChars_of_forall {chars : List Char} (h : ∀ c ∈ chars, isBlank c = false) :
    trimChars chars = chars := by
  match chars with
  | [] => rfl
  | c :: chars =>
    rw [trimChars_cons (h c (by simp))]
    cases hlast : chars.reverse with
    | nil => simpa using hlast.symm
    | cons last before =>
      have hmem : last ∈ chars.reverse := by simp [hlast]
      have hblank := h last (by simpa using Or.inr hmem)
      rw [List.dropWhile_cons_of_neg (by simp [hblank]), ← hlast, List.reverse_reverse]

namespace Hex

/-! ## Digits -/

theorem ne_of_digit? {c other : Char} {d : Nat} (h : digit? c = some d)
    (hother : digit? other = none) : c ≠ other := by
  rintro rfl
  rw [h] at hother
  cases hother

theorem isSkipped_of_digit? {c : Char} {d : Nat} (h : digit? c = some d) : isSkipped c = false := by
  have hspace : c ≠ ' ' := ne_of_digit? h (by decide)
  have htab : c ≠ '\t' := ne_of_digit? h (by decide)
  have hfeed : c ≠ '\n' := ne_of_digit? h (by decide)
  have hreturn : c ≠ '\r' := ne_of_digit? h (by decide)
  simp [isSkipped, hspace, htab, hfeed, hreturn]

theorem toNat_of_digit? {c : Char} {d : Nat} (h : digit? c = some d) :
    (48 ≤ c.toNat ∧ c.toNat ≤ 57) ∨ (97 ≤ c.toNat ∧ c.toNat ≤ 102) ∨
      (65 ≤ c.toNat ∧ c.toNat ≤ 70) := by
  unfold digit? at h
  split at h
  · rename_i hrange
    exact .inl hrange
  · split at h
    · rename_i hrange
      exact .inr (.inl hrange)
    · split at h
      · rename_i hrange
        exact .inr (.inr hrange)
      · cases h

theorem isBlank_of_digit? {c : Char} {d : Nat} (h : digit? c = some d) : isBlank c = false := by
  have hrange := toNat_of_digit? h
  simp only [isBlank, Bool.or_eq_false_iff, Bool.and_eq_false_iff, decide_eq_false_iff_not,
    beq_eq_false_iff_ne]
  omega

theorem digit?_digitChar (case : Case) {d : Nat} (h : d < 16) :
    digit? (digitChar case d) = some d := by
  revert d
  cases case <;> decide

theorem digits_cons {c : Char} {d : Nat} (h : digit? c = some d) (offset : Nat)
    (rest : List Char) :
    digits offset (c :: rest) = (digits (offset + c.utf8Size) rest).map (d :: ·) := by
  rw [digits, if_neg (by simp [isSkipped_of_digit? h]), h]

/-! ## Bytes -/

def halves (byte : UInt8) : List Nat := [byte.toNat / 16, byte.toNat % 16]

theorem byteOf_halves (byte : UInt8) : byteOf (byte.toNat / 16) (byte.toNat % 16) = byte := by
  rw [byteOf, Nat.div_add_mod, UInt8.ofNat_toNat]

theorem exists_digit?_of_mem_encodeChars {case : Case} {bytes : Bytes} {c : Char}
    (h : c ∈ encodeChars case bytes) : ∃ d, digit? c = some d := by
  obtain ⟨byte, -, hc⟩ := List.mem_flatMap.1 h
  have hbyte := byte.toNat_lt
  simp only [byteChars, List.mem_cons, List.not_mem_nil, or_false] at hc
  rcases hc with rfl | rfl
  · exact ⟨_, digit?_digitChar case (by omega)⟩
  · exact ⟨_, digit?_digitChar case (by omega)⟩

theorem digits_encodeChars (case : Case) (offset : Nat) (bytes : Bytes) :
    digits offset (encodeChars case bytes) = .ok (bytes.flatMap halves) := by
  induction bytes generalizing offset with
  | nil => rfl
  | cons byte bytes ih =>
    have hbyte := byte.toNat_lt
    show digits offset (digitChar case (byte.toNat / 16) :: digitChar case (byte.toNat % 16) ::
      encodeChars case bytes) = _
    rw [digits_cons (digit?_digitChar case (by omega)),
      digits_cons (digit?_digitChar case (by omega)), ih]
    rfl

theorem pairUp_halves (bytes : Bytes) : pairUp (bytes.flatMap halves) = .ok bytes := by
  induction bytes with
  | nil => rfl
  | cons byte bytes ih =>
    show (pairUp (bytes.flatMap halves)).map (byteOf (byte.toNat / 16) (byte.toNat % 16) :: ·) = _
    rw [ih, byteOf_halves]
    rfl

theorem decode_encodeChars (case : Case) (bytes : Bytes) :
    decode (String.ofList (encodeChars case bytes)) = .ok bytes := by
  rw [decode, String.toList_ofList, digits_encodeChars]
  exact pairUp_halves bytes

end Hex
end Text
end LockScript
