import Mathlib.Data.Nat.Digits.Defs
import LockScript.Text.Basic

/-!
Which texts are numbers on the command line.

In a row of digits each stands for a multiple of a power of ten, the last one for itself.  The
reader goes through the row from the front and multiplies what it has by ten.  It comes to the same
number however long the row is, since only the finished number is held against the bound.
-/

namespace LockScript
namespace Text
namespace Decimal

def row (digits : List (Fin 10)) : List Char :=
  digits.map fun digit => Nat.digitChar digit.val

/-- The number of a row of digits, the last one being worth least. -/
def worth (digits : List (Fin 10)) : Nat :=
  Nat.ofDigits 10 (digits.reverse.map Fin.val)

/-- The text is a row of at least one digit, perhaps behind a plus sign, and `n` is what the row is
worth.  There is no bound on the number. -/
def Denotes (text : String) (n : Nat) : Prop :=
  ∃ digits, digits ≠ [] ∧ (text.toList = row digits ∨ text.toList = '+' :: row digits) ∧
    n = worth digits

/-! ## Digits -/

theorem isDigit_iff {c : Char} : c.isDigit = true ↔ 48 ≤ c.toNat ∧ c.toNat ≤ 57 := by
  rw [Char.isDigit, Bool.and_eq_true, decide_eq_true_iff, decide_eq_true_iff]
  exact Iff.rfl

theorem isDigit_of_mem_row {digits : List (Fin 10)} {c : Char} (h : c ∈ row digits) :
    c.isDigit = true := by
  obtain ⟨digit, -, rfl⟩ := List.mem_map.1 h
  rw [Nat.isDigit_digitChar, decide_eq_true_iff]
  exact digit.isLt

theorem exists_row {chars : List Char} (h : ∀ c ∈ chars, c.isDigit = true) :
    ∃ digits, chars = row digits := by
  induction chars with
  | nil => exact ⟨[], rfl⟩
  | cons c chars ih =>
    obtain ⟨digits, rfl⟩ := ih fun other hother => h other (List.mem_cons_of_mem c hother)
    have hc := isDigit_iff.1 (h c List.mem_cons_self)
    have hlt : c.toNat - 48 < 10 := by omega
    refine ⟨⟨c.toNat - 48, hlt⟩ :: digits, ?_⟩
    show c :: row digits = Nat.digitChar (c.toNat - 48) :: row digits
    congr 1
    rw [← Char.toNat_inj, Nat.toNat_digitChar_of_lt_ten hlt]
    omega

theorem foldl_row (digits : List (Fin 10)) :
    (row digits).foldl (fun n c => 10 * n + (c.toNat - 48)) 0 = worth digits := by
  rw [worth, Nat.ofDigits_eq_foldr, List.map_reverse, List.foldr_reverse, row, List.foldl_map,
    List.foldl_map]
  refine congrArg (fun f => List.foldl f 0 digits) ?_
  funext n digit
  rw [Nat.toNat_digitChar_sub_48_of_lt_ten digit.isLt, Nat.cast_id]
  exact Nat.add_comm _ _

theorem ofDigits?_eq_some_iff {chars : List Char} {n : Nat} :
    ofDigits? chars = some n ↔ ∃ digits, digits ≠ [] ∧ chars = row digits ∧ n = worth digits := by
  unfold ofDigits?
  constructor
  · intro h
    split at h
    · cases h
    · rename_i hdigits
      simp only [Bool.or_eq_true, Bool.not_eq_true', not_or, Bool.not_eq_false,
        List.all_eq_true, List.isEmpty_iff] at hdigits
      obtain ⟨digits, rfl⟩ := exists_row hdigits.2
      rw [foldl_row] at h
      refine ⟨digits, ?_, rfl, (Option.some.inj h).symm⟩
      rintro rfl
      exact hdigits.1 rfl
  · rintro ⟨digits, hne, rfl, rfl⟩
    have hrow : row digits ≠ [] := fun hnil => hne (List.map_eq_nil_iff.1 hnil)
    have hall : (row digits).all Char.isDigit = true :=
      List.all_eq_true.2 fun c => isDigit_of_mem_row
    rw [if_neg (by simp [hrow, hall]), foldl_row]

/-! ## Numbers -/

theorem row_ne_plus {digits : List (Fin 10)} {rest : List Char} : row digits ≠ '+' :: rest := by
  intro h
  have hplus : '+' ∈ row digits := by
    rw [h]
    exact List.mem_cons_self
  exact absurd (isDigit_of_mem_row hplus) (by decide)

theorem Denotes.unique {text : String} {n m : Nat} (h : Denotes text n) (hother : Denotes text m) :
    n = m := by
  obtain ⟨digits, -, htext, rfl⟩ := h
  obtain ⟨others, -, hothers, rfl⟩ := hother
  have hrow : row digits = row others := by
    rcases htext with htext | htext <;> rcases hothers with hothers | hothers
    · exact htext.symm.trans hothers
    · exact absurd (htext.symm.trans hothers) row_ne_plus
    · exact absurd (hothers.symm.trans htext) row_ne_plus
    · exact (List.cons.inj (htext.symm.trans hothers)).2
  rw [← foldl_row, hrow, foldl_row]

theorem parse?_eq_some_iff {text : String} {n : Nat} :
    parse? text = some n ↔ Denotes text n ∧ n < UInt64.size := by
  have hdigits : ∀ chars, (ofDigits? chars).filter (· < bound) = some n ↔
      (∃ digits, digits ≠ [] ∧ chars = row digits ∧ n = worth digits) ∧ n < UInt64.size := by
    intro chars
    rw [Option.filter_eq_some_iff, ofDigits?_eq_some_iff, decide_eq_true_iff]
    exact Iff.rfl
  unfold parse? Denotes
  split
  · rename_i rest heq
    rw [hdigits rest, heq]
    simp only [List.cons.injEq, true_and, row_ne_plus.symm, false_or]
  · rename_i hplus
    rw [hdigits text.toList]
    have hrow : ∀ digits, text.toList ≠ '+' :: row digits := fun digits => hplus (row digits)
    simp only [hrow, or_false]

end Decimal
end Text
end LockScript
