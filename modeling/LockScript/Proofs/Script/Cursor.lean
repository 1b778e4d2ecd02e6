import LockScript.Proofs.Script.Grammar
import LockScript.Proofs.Word

/-!
Reading scripts with a cursor.

`decode` reads from the front of what is left.  On a slice there is a cursor in place of that, which
goes up by one for a byte and by the length of a blob, before it is known whether the blob is there.
A blob has at most 255 bytes, so the cursor can be no more than that past the end when it is looked
at.  On every slice that a process can hold, reading with the cursor comes to what `decode` comes
to.
-/

namespace LockScript
namespace Script
namespace Cursor

open Guarded

def slice? (bytes : Bytes) (start stop : Nat) : Option Bytes :=
  if start ≤ stop ∧ stop ≤ bytes.length then some ((bytes.take stop).drop start) else none

def readByte (bytes : Bytes) (cursor : Nat) : Guarded DecodeError (UInt8 × Nat) :=
  match bytes[cursor]? with
  | none => throw .truncatedOperand
  | some byte => do
    let cursor ← checked (Word.add cursor 1)
    return (byte, cursor)

def readBlob (bytes : Bytes) (cursor : Nat) : Guarded DecodeError (Bytes × Nat) := do
  let (length, cursor) ← readByte bytes cursor
  let stop ← checked (Word.add cursor length.toNat)
  match slice? bytes cursor stop with
  | none => throw .truncatedOperand
  | some blob => do
    let cursor ← checked (Word.add cursor length.toNat)
    return (blob, cursor)

/-- The instruction of an opcode, with the cursor behind the opcode. -/
def readInstruction (bytes : Bytes) (opcode : UInt8) (cursor : Nat) :
    Guarded DecodeError (Instruction × Nat) :=
  match Shape.ofOpcode? opcode with
  | none => throw (.unknownOpcode opcode)
  | some (.plain instruction) => return (instruction, cursor)
  | some (.byte instruction) => do
    let (value, cursor) ← readByte bytes cursor
    return (instruction value, cursor)
  | some (.blob instruction) => do
    let (value, cursor) ← readBlob bytes cursor
    return (instruction value, cursor)

/-- One opcode and what belongs to it. -/
def next (bytes : Bytes) (cursor : Nat) : Guarded DecodeError (Instruction × Nat) := do
  let opcode ← checked (Word.fetch bytes cursor)
  let cursor ← checked (Word.add cursor 1)
  readInstruction bytes opcode cursor

theorem lt_of_readByte {bytes : Bytes} {cursor stop : Nat} {byte : UInt8}
    (h : (readByte bytes cursor).run = .ok (.ok (byte, stop))) : cursor < stop := by
  unfold readByte at h
  split at h
  · cases h
  · obtain ⟨sum, hsum, hdone⟩ := run_bind_eq_ok h
    have hadd := Word.eq_of_add (eq_of_run_checked hsum)
    cases hdone
    omega

theorem lt_of_readBlob {bytes blob : Bytes} {cursor stop : Nat}
    (h : (readBlob bytes cursor).run = .ok (.ok (blob, stop))) : cursor < stop := by
  obtain ⟨⟨length, behind⟩, hlength, hrest⟩ := run_bind_eq_ok h
  have hlt := lt_of_readByte hlength
  obtain ⟨_, -, hslice⟩ := run_bind_eq_ok hrest
  split at hslice
  · cases hslice
  · obtain ⟨sum, hsum, hdone⟩ := run_bind_eq_ok hslice
    have hadd := Word.eq_of_add (eq_of_run_checked hsum)
    cases hdone
    omega

theorem lt_of_next {bytes : Bytes} {cursor stop : Nat} {instruction : Instruction}
    (h : (next bytes cursor).run = .ok (.ok (instruction, stop))) : cursor < stop := by
  obtain ⟨opcode, -, hrest⟩ := run_bind_eq_ok h
  obtain ⟨behind, hbehind, hread⟩ := run_bind_eq_ok hrest
  have hadd := Word.eq_of_add (eq_of_run_checked hbehind)
  unfold readInstruction at hread
  split at hread
  · cases hread
  · cases hread
    omega
  · obtain ⟨⟨value, last⟩, hvalue, hdone⟩ := run_bind_eq_ok hread
    have hlt := lt_of_readByte hvalue
    cases hdone
    omega
  · obtain ⟨⟨value, last⟩, hvalue, hdone⟩ := run_bind_eq_ok hread
    have hlt := lt_of_readBlob hvalue
    cases hdone
    omega

/-- The instructions from the cursor on, or the first error. -/
def decodeFrom (bytes : Bytes) (cursor : Nat) : Except Hazard (Except DecodeError Script) :=
  if cursor < bytes.length then
    match _h : (next bytes cursor).run with
    | .error hazard => .error hazard
    | .ok (.error e) => .ok (.error e)
    | .ok (.ok (instruction, stop)) =>
      (decodeFrom bytes stop).map (Except.map (instruction :: ·))
  else .ok (.ok [])
termination_by bytes.length - cursor
decreasing_by
  have := lt_of_next _h
  omega

/-! ## The cursor and the rest of the bytes -/

section

variable {bytes : Bytes} {cursor : Nat}

theorem readByte_of_nil (h : bytes.drop cursor = []) :
    readByte bytes cursor = throw .truncatedOperand := by
  rw [readByte, List.getElem?_eq_none (List.drop_eq_nil_iff.1 h)]

theorem lt_length_of_drop {byte : UInt8} {rest : Bytes} (h : bytes.drop cursor = byte :: rest) :
    cursor < bytes.length := by
  have hlength := congrArg List.length h
  rw [List.length_drop, List.length_cons] at hlength
  omega

theorem getElem?_of_drop {byte : UInt8} {rest : Bytes} (h : bytes.drop cursor = byte :: rest) :
    bytes[cursor]? = some byte := by
  rw [← List.head?_drop, h]
  rfl

theorem drop_succ {byte : UInt8} {rest : Bytes} (h : bytes.drop cursor = byte :: rest) :
    bytes.drop (cursor + 1) = rest := by
  rw [← List.drop_drop, h]
  rfl

theorem readByte_of_cons {byte : UInt8} {rest : Bytes} (hbytes : bytes.length < Word.sliceBound)
    (h : bytes.drop cursor = byte :: rest) :
    readByte bytes cursor = pure (byte, cursor + 1) := by
  have hlt := lt_length_of_drop h
  have hadd : Word.add cursor 1 = .ok (cursor + 1) := by
    apply Word.add_eq
    unfold Word.sliceBound at hbytes
    omega
  rw [readByte, getElem?_of_drop h]
  exact checked_bind hadd

theorem readBlob_of_cons {length : UInt8} {payload : Bytes}
    (hbytes : bytes.length < Word.sliceBound) (h : bytes.drop cursor = length :: payload) :
    readBlob bytes cursor =
      if length.toNat ≤ payload.length then
        pure (payload.take length.toNat, cursor + 1 + length.toNat)
      else throw .truncatedOperand := by
  have hlt := lt_length_of_drop h
  have hbyte : length.toNat < 256 := length.toNat_lt
  have hpayload : payload.length = bytes.length - (cursor + 1) := by
    rw [← drop_succ h, List.length_drop]
  have hadd : Word.add (cursor + 1) length.toNat = .ok (cursor + 1 + length.toNat) := by
    apply Word.add_eq
    unfold Word.sliceBound at hbytes
    have hsize : 512 ≤ UInt64.size / 2 := by decide
    omega
  rw [readBlob, readByte_of_cons hbytes h]
  show (checked (Word.add (cursor + 1) length.toNat) >>= _) = _
  rw [checked_bind hadd]
  by_cases hfits : length.toNat ≤ payload.length
  · have hslice : slice? bytes (cursor + 1) (cursor + 1 + length.toNat) =
        some (payload.take length.toNat) := by
      rw [slice?, if_pos (by omega), List.drop_take, drop_succ h, Nat.add_sub_cancel_left]
    rw [hslice, if_pos hfits]
    exact checked_bind hadd
  · have hslice : slice? bytes (cursor + 1) (cursor + 1 + length.toNat) = none := by
      rw [slice?, if_neg (by omega)]
    rw [hslice, if_neg hfits]

theorem readInstruction_follows (hbytes : bytes.length < Word.sliceBound) (opcode : UInt8) :
    Follows (fun found => (found.1, cursor + found.2))
      ((readFirst opcode (bytes.drop (cursor + 1))).mapError Prod.fst)
      (readInstruction bytes opcode (cursor + 1)) := by
  unfold readInstruction readFirst
  cases Shape.ofOpcode? opcode with
  | none => exact follows_throw _ _
  | some shape =>
    cases shape with
    | plain instruction => exact follows_pure _ (instruction, 1)
    | byte make =>
      cases hrest : bytes.drop (cursor + 1) with
      | nil =>
        rw [readByte_of_nil hrest]
        exact follows_throw _ _
      | cons value rest =>
        rw [readByte_of_cons hbytes hrest]
        exact follows_pure _ (make value, 2)
    | blob make =>
      cases hrest : bytes.drop (cursor + 1) with
      | nil =>
        rw [readBlob, readByte_of_nil hrest]
        exact follows_throw _ _
      | cons length payload =>
        rw [readBlob_of_cons hbytes hrest]
        by_cases hfits : length.toNat ≤ payload.length
        · simp only [hfits, if_true]
          have hcursor : cursor + 1 + 1 + length.toNat = cursor + (2 + length.toNat) := by omega
          rw [hcursor]
          exact follows_pure _ (make (payload.take length.toNat), 2 + length.toNat)
        · simp only [hfits, if_false]
          exact follows_throw _ _

theorem next_follows {opcode : UInt8} {rest : Bytes} (hbytes : bytes.length < Word.sliceBound)
    (h : bytes.drop cursor = opcode :: rest) :
    Follows (fun found => (found.1, cursor + found.2))
      ((readFirst opcode rest).mapError Prod.fst) (next bytes cursor) := by
  have hlt := lt_length_of_drop h
  have hadd : Word.add cursor 1 = .ok (cursor + 1) := by
    apply Word.add_eq
    unfold Word.sliceBound at hbytes
    omega
  rw [next, checked_bind (Word.fetch_eq (getElem?_of_drop h)), checked_bind hadd, ← drop_succ h]
  exact readInstruction_follows hbytes opcode

end

/-- What `next` comes to on a slice that a process can hold is what is at the front of the rest. -/
theorem run_next {bytes : Bytes} {cursor : Nat} (hbytes : bytes.length < Word.sliceBound)
    (h : cursor < bytes.length) :
    ∃ opcode rest, bytes.drop cursor = opcode :: rest ∧
      (next bytes cursor).run = .ok (((readFirst opcode rest).mapError Prod.fst).map
        fun found => (found.1, cursor + found.2)) :=
  have hdrop := List.drop_eq_getElem_cons h
  ⟨_, _, hdrop, next_follows hbytes hdrop⟩

theorem decodeFrom_eq {bytes : Bytes} (hbytes : bytes.length < Word.sliceBound) (cursor : Nat) :
    decodeFrom bytes cursor = .ok (decode (bytes.drop cursor)) := by
  fun_induction decodeFrom bytes cursor with
  | case1 cursor hlt hazard hnext =>
    obtain ⟨opcode, rest, -, hrun⟩ := run_next hbytes hlt
    rw [hnext] at hrun
    cases hrun
  | case2 cursor hlt e hnext =>
    obtain ⟨opcode, rest, hdrop, hrun⟩ := run_next hbytes hlt
    rw [hnext] at hrun
    cases hread : readFirst opcode rest with
    | error failed =>
      rw [hread] at hrun
      cases hrun
      rw [hdrop, decode_of_readFirst_error hread]
    | ok found =>
      rw [hread] at hrun
      cases hrun
  | case3 cursor hlt instruction stop hnext ih =>
    obtain ⟨opcode, rest, hdrop, hrun⟩ := run_next hbytes hlt
    rw [hnext] at hrun
    cases hread : readFirst opcode rest with
    | error failed =>
      rw [hread] at hrun
      cases hrun
    | ok found =>
      rw [hread] at hrun
      cases hrun
      rw [ih, hdrop, decode_cons hread, ← hdrop, List.drop_drop]
      rfl
  | case4 cursor hge =>
    rw [List.drop_eq_nil_of_le (by omega), decode]

end Cursor

theorem length_le_of_decode {bytes : Bytes} {script : Script} (h : decode bytes = .ok script) :
    script.length ≤ bytes.length := by
  fun_induction decode bytes generalizing script with
  | case1 =>
    cases h
    exact Nat.le_refl _
  | case2 opcode rest e size hread => cases h
  | case3 opcode rest instruction size hread ih =>
    obtain ⟨tail, htail, rfl⟩ := Result.map_eq_ok_iff.1 h
    have hpos := readFirst_pos hread
    have hrest := ih htail
    simp only [List.length_drop, List.length_cons] at hrest ⊢
    omega

end Script
end LockScript
