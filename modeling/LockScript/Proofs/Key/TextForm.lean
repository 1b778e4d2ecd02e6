import LockScript.Key.Signature
import LockScript.Proofs.Basic
import LockScript.Proofs.Text.Spelling

/-!
The text of a signature.

A signature is 65 bytes, and it is written with two digits for each.  More is read than is written:
blanks may stand anywhere in a text, between the two digits of a byte too, and letters may have
either case.  Any 130 digits are read, and nothing else is.  Writing what was read gives the same
digits in lower case.
-/

namespace LockScript
namespace Key
namespace Signature

open Text.Hex (Spells alphabet kept)

/-! ## A signature and its bytes -/

theorem bytes_ofOctets (octets : Octets 65) : (ofOctets octets).bytes = octets.bytes := by
  have hlength := octets.length_bytes
  have hlast : octets.bytes.drop 64 = [octets.bytes.getD 64 0] := by
    rw [List.drop_eq_getElem_cons (by omega), List.drop_eq_nil_of_le (by omega),
      List.getD_eq_getElem?_getD, List.getElem?_eq_getElem (by omega), Option.getD_some]
  show octets.bytes.take 32 ++ (octets.bytes.drop 32).take 32 ++ [octets.bytes.getD 64 0] =
    octets.bytes
  rw [← hlast, List.append_assoc, ← List.drop_drop (i := 32) (j := 32), List.take_append_drop,
    List.take_append_drop]

theorem bytes_injective {a b : Signature} (h : a.bytes = b.bytes) : a = b := by
  have hr : a.r.bytes.length = b.r.bytes.length := by
    rw [a.r.length_bytes, b.r.length_bytes]
  have hs : a.s.bytes.length = b.s.bytes.length := by
    rw [a.s.length_bytes, b.s.length_bytes]
  have hboth : (a.r.bytes ++ a.s.bytes).length = (b.r.bytes ++ b.s.bytes).length := by
    rw [List.length_append, List.length_append, hr, hs]
  obtain ⟨hnumbers, hv⟩ := List.append_inj h hboth
  obtain ⟨hr', hs'⟩ := List.append_inj hnumbers hr
  cases a
  cases b
  rw [Signature.mk.injEq]
  exact ⟨Octets.ext_bytes hr', Octets.ext_bytes hs', (List.cons.inj hv).1⟩

theorem ofBytes_eq_ok_iff {bytes : Bytes} {signature : Signature} :
    ofBytes bytes = .ok signature ↔ signature.bytes = bytes := by
  constructor
  · intro h
    unfold ofBytes at h
    split at h
    · rename_i octets hoctets
      cases h
      rw [bytes_ofOctets]
      exact Octets.ofBytes?_eq_some.1 hoctets
    · cases h
  · intro h
    subst h
    have hoctets : Octets.ofBytes? 65 signature.bytes = some ⟨signature.bytes, length_bytes _⟩ :=
      Octets.ofBytes?_eq_some.2 rfl
    rw [ofBytes, hoctets]
    exact congrArg Except.ok (bytes_injective (bytes_ofOctets _))

theorem ofBytes_eq_error {bytes : Bytes} {error : Error} (h : ofBytes bytes = .error error) :
    error = .invalidSignature := by
  unfold ofBytes at h
  split at h
  · cases h
  · cases h
    rfl

theorem exists_of_length {bytes : Bytes} (h : bytes.length = 65) :
    ∃ signature : Signature, signature.bytes = bytes :=
  ⟨ofOctets ⟨bytes, h⟩, bytes_ofOctets ⟨bytes, h⟩⟩

/-! ## A signature and its text -/

theorem ofText_eq_ok_iff {text : String} {signature : Signature} :
    ofText text = .ok signature ↔ Spells (kept text.toList) signature.bytes := by
  rw [← Text.Hex.decode_eq_ok_iff]
  unfold ofText
  cases Text.Hex.decode text with
  | ok bytes =>
    show ofBytes bytes = .ok signature ↔ Except.ok bytes = Except.ok signature.bytes
    rw [ofBytes_eq_ok_iff, Except.ok.injEq]
    exact eq_comm
  | error reason =>
    constructor
    · intro h
      cases h
    · intro h
      cases h

theorem ofText_eq_error {text : String} {error : Error} (h : ofText text = .error error) :
    error = .invalidSignature := by
  unfold ofText at h
  split at h
  · exact ofBytes_eq_error h
  · cases h
    rfl

/-- The text without its blanks is 130 digits. -/
def Written (text : String) : Prop :=
  (kept text.toList).length = 130 ∧ ∀ c ∈ kept text.toList, c ∈ alphabet

theorem exists_ofText_iff {text : String} :
    (∃ signature, ofText text = .ok signature) ↔ Written text := by
  rw [Written, ← Text.Hex.exists_spells_iff 65]
  constructor
  · intro hread
    obtain ⟨signature, hsignature⟩ := hread
    exact ⟨signature.bytes, length_bytes signature, ofText_eq_ok_iff.1 hsignature⟩
  · intro hspelled
    obtain ⟨bytes, hlength, hspells⟩ := hspelled
    obtain ⟨signature, rfl⟩ := exists_of_length hlength
    exact ⟨signature, ofText_eq_ok_iff.2 hspells⟩

theorem ofText_of_not_written {text : String} (h : ¬ Written text) :
    ofText text = .error .invalidSignature := by
  cases hread : ofText text with
  | ok signature => exact absurd (exists_ofText_iff.1 ⟨signature, hread⟩) h
  | error error => rw [ofText_eq_error hread]

theorem ofText_text (signature : Signature) : ofText signature.text = .ok signature := by
  rw [ofText, text, Text.Hex.encode, Text.Hex.decode_encodeChars]
  exact ofBytes_eq_ok_iff.2 rfl

theorem text_of_ofText {text : String} {signature : Signature}
    (h : ofText text = .ok signature) :
    signature.text = String.ofList ((kept text.toList).map Char.toLower) := by
  have hspells : (kept text.toList).map Char.toLower = _ := ofText_eq_ok_iff.1 h
  rw [hspells]
  rfl

/-- Signatures are the strings of 65 bytes.  Each is read back from its text.  A text is read if it
is 130 digits without its blanks, and what was read is written as these digits in lower case. -/
theorem text_reads_back :
    (∀ bytes : Bytes, bytes.length = 65 → ∃ signature, ofBytes bytes = .ok signature ∧
      signature.bytes = bytes) ∧
    (∀ signature, ofText signature.text = .ok signature) ∧
    ∀ text : String,
      ((∃ signature, ofText text = .ok signature) ↔ Written text) ∧
      (∀ signature, ofText text = .ok signature →
        signature.text = String.ofList ((kept text.toList).map Char.toLower)) ∧
      (¬ Written text → ofText text = .error .invalidSignature) := by
  refine ⟨?_, ofText_text, ?_⟩
  · intro bytes hlength
    obtain ⟨signature, hbytes⟩ := exists_of_length hlength
    exact ⟨signature, ofBytes_eq_ok_iff.2 hbytes, hbytes⟩
  · intro text
    exact ⟨exists_ofText_iff, fun signature => text_of_ofText, ofText_of_not_written⟩

/-- Capital letters and blanks inside a byte make no difference; a digit too few does. -/
theorem text_reads_back_spaced :
    (∃ signature,
      ofText (String.ofList ((List.replicate 32 ['A', ' ', 'b', '7', 'F']).flatten ++
        ['\t', '0', '\n', '1'])) = .ok signature ∧
      signature.text =
        String.ofList ((List.replicate 32 ['a', 'b', '7', 'f']).flatten ++ ['0', '1'])) ∧
    (¬ Written "0 1 0" ∧ ofText "0 1 0" = .error .invalidSignature) ∧
    ∃ signature, ofBytes (List.replicate 65 7) = .ok signature := by
  obtain ⟨hbytes, -, hreads⟩ := text_reads_back
  obtain ⟨seven, hseven, -⟩ := hbytes (List.replicate 65 7) (by decide)
  have hshort : ¬ Written "0 1 0" := by
    intro hwritten
    exact absurd hwritten.1 (by decide)
  refine ⟨?_, ⟨hshort, (hreads _).2.2 hshort⟩, seven, hseven⟩
  obtain ⟨signature, hsignature⟩ : ∃ signature : Signature,
      signature.bytes = (List.replicate 32 [0xab, 0x7f]).flatten ++ [1] := exists_of_length rfl
  have hread : ofText (String.ofList ((List.replicate 32 ['A', ' ', 'b', '7', 'F']).flatten ++
      ['\t', '0', '\n', '1'])) = .ok signature := by
    rw [ofText_eq_ok_iff, String.toList_ofList, hsignature]
    show List.map _ _ = _
    decide +kernel
  refine ⟨signature, hread, ((hreads _).2.1 _ hread).trans ?_⟩
  rw [String.toList_ofList]
  exact congrArg String.ofList (by decide +kernel)

end Signature
end Key
end LockScript
