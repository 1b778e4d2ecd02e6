import LockScript.Proofs.Basic
import LockScript.Proofs.Text.Hex

/-!
What the two readers of hexadecimal text read.

One reader collects all digits of a text and pairs them up at the end, the other fills a string of
known length byte by byte and looks at what is left behind it.  Both come to the same: without its
blanks the text is two digits for each byte, in either case.  `Spells` says that by way of the
written form of the bytes, and neither of the readers occurs in it.
-/

namespace LockScript
namespace Text
namespace Hex

/-- The characters of a text that are not skipped. -/
def kept (chars : List Char) : List Char := chars.filter (!isSkipped ·)

/-- The characters are the written form of the bytes, in either case. -/
def Spells (chars : List Char) (bytes : Bytes) : Prop :=
  chars.map Char.toLower = encodeChars .lower bytes

/-! ## Digits in either case -/

theorem toNat_toLower (c : Char) :
    c.toLower.toNat = if 65 ≤ c.toNat ∧ c.toNat ≤ 90 then c.toNat + 32 else c.toNat := by
  have hupper : (c.val ≥ 'A'.val ∧ c.val ≤ 'Z'.val) ↔ 65 ≤ c.toNat ∧ c.toNat ≤ 90 := Iff.rfl
  unfold Char.toLower
  by_cases h : 65 ≤ c.toNat ∧ c.toNat ≤ 90
  · rw [dif_pos (hupper.2 h), if_pos h]
    show (c.val + 32).toNat = c.val.toNat + 32
    have hval : c.val.toNat ≤ 90 := h.2
    rw [UInt32.toNat_add]
    show (c.val.toNat + 32) % 2 ^ 32 = c.val.toNat + 32
    omega
  · rw [dif_neg (mt hupper.1 h), if_neg h]

theorem toNat_digitChar {d : Nat} (h : d < 16) :
    (digitChar .lower d).toNat = if d < 10 then 48 + d else 87 + d := by
  revert d
  decide

theorem digit?_eq (c : Char) :
    digit? c = if 48 ≤ c.toNat ∧ c.toNat ≤ 57 then some (c.toNat - 48)
      else if 97 ≤ c.toNat ∧ c.toNat ≤ 102 then some (c.toNat - 87)
      else if 65 ≤ c.toNat ∧ c.toNat ≤ 70 then some (c.toNat - 55)
      else none := rfl

theorem digit?_eq_some_iff {c : Char} {d : Nat} :
    digit? c = some d ↔ d < 16 ∧ c.toLower = digitChar .lower d := by
  constructor
  · intro h
    rw [digit?_eq] at h
    have hlt : d < 16 := by grind
    refine ⟨hlt, Char.toNat_inj.1 ?_⟩
    rw [toNat_toLower, toNat_digitChar hlt]
    grind
  · rintro ⟨hlt, hlower⟩
    have hnat := congrArg Char.toNat hlower
    rw [toNat_toLower, toNat_digitChar hlt] at hnat
    rw [digit?_eq]
    grind

theorem map_digit?_iff {chars : List Char} {values : List Nat} (h : ∀ d ∈ values, d < 16) :
    chars.map digit? = values.map some ↔
      chars.map Char.toLower = values.map (digitChar .lower) := by
  induction chars generalizing values with
  | nil =>
    cases values with
    | nil => simp
    | cons d values => simp
  | cons c chars ih =>
    cases values with
    | nil => simp
    | cons d values =>
      have hd : d < 16 := h d List.mem_cons_self
      have hrest := ih fun other hother => h other (List.mem_cons_of_mem d hother)
      simp only [List.map_cons, List.cons.injEq, hrest, digit?_eq_some_iff, hd, true_and]

/-! ## Bytes and their halves -/

theorem lt_of_mem_halves {bytes : Bytes} {d : Nat} (h : d ∈ bytes.flatMap halves) : d < 16 := by
  obtain ⟨byte, -, hd⟩ := List.mem_flatMap.1 h
  have hbyte := byte.toNat_lt
  simp only [halves, List.mem_cons, List.not_mem_nil, or_false] at hd
  omega

theorem encodeChars_eq (bytes : Bytes) :
    encodeChars .lower bytes = (bytes.flatMap halves).map (digitChar .lower) := by
  rw [List.map_flatMap]
  rfl

/-- The digits of the text are the halves of the bytes. -/
theorem spells_iff {chars : List Char} {bytes : Bytes} :
    Spells chars bytes ↔ chars.map digit? = (bytes.flatMap halves).map some := by
  rw [Spells, encodeChars_eq, map_digit?_iff fun d => lt_of_mem_halves]

theorem halves_byteOf {high low : Nat} (hhigh : high < 16) (hlow : low < 16) :
    halves (byteOf high low) = [high, low] := by
  have hbyte : (byteOf high low).toNat = 16 * high + low := by
    rw [byteOf, UInt8.toNat_ofNat']
    omega
  rw [halves, hbyte]
  congr 1
  · omega
  · congr 1
    omega

theorem lt_of_digit? {c : Char} {d : Nat} (h : digit? c = some d) : d < 16 :=
  (digit?_eq_some_iff.1 h).1

/-! ## Texts of digits -/

/-- The digits, with the letters in either case. -/
def alphabet : List Char := "0123456789abcdefABCDEF".toList

theorem mem_alphabet_iff {c : Char} : c ∈ alphabet ↔ ∃ d, digit? c = some d := by
  constructor
  · intro hmem
    have hall : alphabet.all (fun c => (digit? c).isSome) = true := by decide
    exact Option.isSome_iff_exists.1 (List.all_eq_true.1 hall c hmem)
  · intro hdigit
    obtain ⟨d, hd⟩ := hdigit
    have hrange := toNat_of_digit? hd
    have hcodes : alphabet.map Char.toNat =
        List.range' 48 10 ++ List.range' 97 6 ++ List.range' 65 6 := by decide
    have hmem : c.toNat ∈ alphabet.map Char.toNat := by
      rw [hcodes]
      simp only [List.mem_append, List.mem_range'_1]
      omega
    obtain ⟨other, hother, hsame⟩ := List.mem_map.1 hmem
    rwa [← Char.toNat_inj.1 hsame]

theorem length_flatMap_halves (bytes : Bytes) :
    (bytes.flatMap halves).length = 2 * bytes.length := by
  induction bytes with
  | nil => rfl
  | cons byte bytes ih =>
    rw [List.flatMap_cons, List.length_append, ih, List.length_cons]
    show 2 + 2 * bytes.length = 2 * (bytes.length + 1)
    omega

theorem length_of_spells {chars : List Char} {bytes : Bytes} (h : Spells chars bytes) :
    chars.length = 2 * bytes.length := by
  have hlength := congrArg List.length (spells_iff.1 h)
  rwa [List.length_map, List.length_map, length_flatMap_halves] at hlength

theorem mem_alphabet_of_spells {chars : List Char} {bytes : Bytes} (h : Spells chars bytes)
    {c : Char} (hc : c ∈ chars) : c ∈ alphabet := by
  have hmem : digit? c ∈ (bytes.flatMap halves).map some := by
    rw [← spells_iff.1 h]
    exact List.mem_map_of_mem hc
  obtain ⟨d, -, hd⟩ := List.mem_map.1 hmem
  exact mem_alphabet_iff.2 ⟨d, hd.symm⟩

/-- Twice as many digits as bytes, whichever they are, spell something. -/
theorem exists_spells {size : Nat} {chars : List Char} (hlength : chars.length = 2 * size)
    (hdigits : ∀ c ∈ chars, c ∈ alphabet) : ∃ bytes, bytes.length = size ∧ Spells chars bytes := by
  induction size generalizing chars with
  | zero =>
    obtain rfl := List.length_eq_zero_iff.1 hlength
    exact ⟨[], rfl, rfl⟩
  | succ size ih =>
    match chars with
    | [] =>
      rw [List.length_nil] at hlength
      omega
    | [_] =>
      rw [List.length_singleton] at hlength
      omega
    | c :: c' :: rest =>
      obtain ⟨high, hhigh⟩ := mem_alphabet_iff.1 (hdigits c (by simp))
      obtain ⟨low, hlow⟩ := mem_alphabet_iff.1 (hdigits c' (by simp))
      have hrest : rest.length = 2 * size := by
        simp only [List.length_cons] at hlength
        omega
      obtain ⟨bytes, hbytes, hspells⟩ := ih hrest fun d hd => hdigits d (by simp [hd])
      refine ⟨byteOf high low :: bytes, by rw [List.length_cons, hbytes], spells_iff.2 ?_⟩
      rw [List.map_cons, List.map_cons, hhigh, hlow, spells_iff.1 hspells, List.flatMap_cons,
        halves_byteOf (lt_of_digit? hhigh) (lt_of_digit? hlow)]
      rfl

theorem exists_spells_iff (size : Nat) {chars : List Char} :
    (∃ bytes, bytes.length = size ∧ Spells chars bytes) ↔
      chars.length = 2 * size ∧ ∀ c ∈ chars, c ∈ alphabet := by
  constructor
  · intro hspelled
    obtain ⟨bytes, rfl, hspells⟩ := hspelled
    exact ⟨length_of_spells hspells, fun c hc => mem_alphabet_of_spells hspells hc⟩
  · intro h
    exact exists_spells h.1 h.2

/-! ## All digits at once -/

theorem kept_cons_of_skipped {c : Char} (h : isSkipped c = true) (chars : List Char) :
    kept (c :: chars) = kept chars := by
  simp [kept, h]

theorem kept_cons_of_not_skipped {c : Char} (h : ¬ isSkipped c = true) (chars : List Char) :
    kept (c :: chars) = c :: kept chars := by
  simp [kept, h]

theorem digits_eq_ok_iff {offset : Nat} {chars : List Char} {values : List Nat} :
    digits offset chars = .ok values ↔ (kept chars).map digit? = values.map some := by
  induction chars generalizing offset values with
  | nil => cases values <;> simp [digits, kept]
  | cons c chars ih =>
    rw [digits]
    by_cases hskipped : isSkipped c = true
    · rw [if_pos hskipped, ih, kept_cons_of_skipped hskipped]
    · rw [if_neg hskipped, kept_cons_of_not_skipped hskipped, List.map_cons]
      cases hdigit : digit? c with
      | none => cases values <;> simp
      | some d =>
        simp only [Result.map_eq_ok_iff, ih]
        cases values with
        | nil => simp
        | cons e values =>
          simp only [List.cons.injEq, List.map_cons, Option.some.injEq, exists_eq_right_right]
          exact and_comm

theorem pairUp_eq_ok_iff {values : List Nat} {bytes : Bytes} (h : ∀ d ∈ values, d < 16) :
    pairUp values = .ok bytes ↔ values = bytes.flatMap halves := by
  constructor
  · intro hpairs
    fun_induction pairUp values generalizing bytes with
    | case1 =>
      cases hpairs
      rfl
    | case2 d => cases hpairs
    | case3 high low rest ih =>
      obtain ⟨others, hothers, rfl⟩ := Result.map_eq_ok_iff.1 hpairs
      have hrest := ih (fun d hd => h d (by simp [hd])) hothers
      rw [List.flatMap_cons, halves_byteOf (h high (by simp)) (h low (by simp)), ← hrest]
      rfl
  · rintro rfl
    exact pairUp_halves bytes

theorem decode_eq_ok_iff {text : String} {bytes : Bytes} :
    decode text = .ok bytes ↔ Spells (kept text.toList) bytes := by
  rw [decode, Result.bind_eq_ok_iff, spells_iff]
  constructor
  · rintro ⟨values, hdigits, hpairs⟩
    have hvalues := digits_eq_ok_iff.1 hdigits
    have hlt : ∀ d ∈ values, d < 16 := by
      intro d hd
      have hmem : some d ∈ (kept text.toList).map digit? := by
        rw [hvalues]
        exact List.mem_map_of_mem hd
      obtain ⟨c, -, hc⟩ := List.mem_map.1 hmem
      exact lt_of_digit? hc
    rw [hvalues, (pairUp_eq_ok_iff hlt).1 hpairs]
  · intro hspells
    exact ⟨_, digits_eq_ok_iff.2 hspells, pairUp_halves bytes⟩

/-! ## One byte after the other -/

theorem nextDigit_eq_ok {offset behind : Nat} {chars rest : List Char} {d : Nat}
    (h : nextDigit offset chars = .ok (d, behind, rest)) :
    ∃ c, kept chars = c :: kept rest ∧ digit? c = some d := by
  induction chars generalizing offset with
  | nil => cases h
  | cons c chars ih =>
    rw [nextDigit] at h
    by_cases hskipped : isSkipped c = true
    · rw [if_pos hskipped] at h
      rw [kept_cons_of_skipped hskipped]
      exact ih h
    · rw [if_neg hskipped] at h
      cases hdigit : digit? c with
      | none =>
        rw [hdigit] at h
        cases h
      | some value =>
        rw [hdigit] at h
        cases h
        exact ⟨c, kept_cons_of_not_skipped hskipped _, hdigit⟩

theorem exists_nextDigit {chars others : List Char} {c : Char} {d : Nat}
    (h : kept chars = c :: others) (hdigit : digit? c = some d) (offset : Nat) :
    ∃ behind rest, nextDigit offset chars = .ok (d, behind, rest) ∧ kept rest = others := by
  induction chars generalizing offset with
  | nil => cases h
  | cons first chars ih =>
    rw [nextDigit]
    by_cases hskipped : isSkipped first = true
    · rw [kept_cons_of_skipped hskipped] at h
      rw [if_pos hskipped]
      exact ih h _
    · rw [kept_cons_of_not_skipped hskipped] at h
      obtain ⟨rfl, rfl⟩ := List.cons.inj h
      rw [if_neg hskipped, hdigit]
      exact ⟨_, chars, rfl, rfl⟩

theorem all_isSkipped_iff {chars : List Char} : chars.all isSkipped = true ↔ kept chars = [] := by
  simp [kept]

theorem fill_eq_ok_iff {offset size : Nat} {chars : List Char} {bytes : Bytes} :
    fill offset chars size = .ok bytes ↔ bytes.length = size ∧ Spells (kept chars) bytes := by
  induction size generalizing offset chars bytes with
  | zero =>
    rw [fill, spells_iff]
    by_cases hall : chars.all isSkipped = true
    · rw [if_pos hall, all_isSkipped_iff.1 hall]
      cases bytes <;> simp [halves]
    · rw [if_neg hall]
      have hkept : kept chars ≠ [] := mt all_isSkipped_iff.2 hall
      cases bytes <;> simp [hkept]
  | succ size ih =>
    rw [spells_iff]
    constructor
    · intro h
      obtain ⟨⟨high, behind, rest⟩, hfirst, h⟩ := Result.bind_eq_ok_iff.1 h
      obtain ⟨⟨low, behind', rest'⟩, hsecond, h⟩ := Result.bind_eq_ok_iff.1 h
      obtain ⟨others, hothers, hbytes⟩ := Result.bind_eq_ok_iff.1 h
      cases hbytes
      obtain ⟨c, hkept, hhigh⟩ := nextDigit_eq_ok hfirst
      obtain ⟨c', hkept', hlow⟩ := nextDigit_eq_ok hsecond
      obtain ⟨hlength, hspells⟩ := ih.1 hothers
      refine ⟨by rw [List.length_cons, hlength], ?_⟩
      rw [hkept, hkept', List.map_cons, List.map_cons, hhigh, hlow, spells_iff.1 hspells,
        List.flatMap_cons, halves_byteOf (lt_of_digit? hhigh) (lt_of_digit? hlow)]
      rfl
    · rintro ⟨hlength, hspells⟩
      cases bytes with
      | nil => cases hlength
      | cons byte bytes =>
        rw [List.flatMap_cons, halves, List.map_append, List.map_cons, List.map_cons] at hspells
        obtain ⟨c, others, hkept, hhigh, hspells⟩ := List.map_eq_cons_iff.1 hspells
        obtain ⟨c', others', rfl, hlow, hspells⟩ := List.map_eq_cons_iff.1 hspells
        obtain ⟨behind, rest, hfirst, hrest⟩ := exists_nextDigit hkept hhigh offset
        obtain ⟨behind', rest', hsecond, rfl⟩ := exists_nextDigit hrest hlow behind
        have hfill : fill behind' rest' size = .ok bytes :=
          ih.2 ⟨Nat.succ.inj hlength, spells_iff.2 hspells⟩
        refine Result.bind_eq_ok_iff.2 ⟨_, hfirst, ?_⟩
        refine Result.bind_eq_ok_iff.2 ⟨_, hsecond, ?_⟩
        refine Result.bind_eq_ok_iff.2 ⟨_, hfill, ?_⟩
        rw [byteOf_halves]
        rfl

theorem map_bytes_decodeOctets (size : Nat) (text : String) :
    (decodeOctets size text).map Octets.bytes = fill 0 text.toList size := by
  unfold decodeOctets
  split
  case h_1 e herror => exact herror.symm
  case h_2 bytes hbytes => exact hbytes.symm

theorem decodeOctets_eq_ok_iff {size : Nat} {text : String} {octets : Octets size} :
    decodeOctets size text = .ok octets ↔ Spells (kept text.toList) octets.bytes := by
  have hfill : decodeOctets size text = .ok octets ↔
      fill 0 text.toList size = .ok octets.bytes := by
    rw [← map_bytes_decodeOctets, Result.map_eq_ok_iff]
    constructor
    · intro h
      exact ⟨octets, h, rfl⟩
    · rintro ⟨found, hfound, hbytes⟩
      rw [hfound, Octets.ext_bytes hbytes]
  rw [hfill, fill_eq_ok_iff]
  exact and_iff_right octets.length_bytes

end Hex
end Text
end LockScript
