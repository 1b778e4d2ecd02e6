import LockScript.Proofs.Script.RoundTrip

/-!
The grammar of scripts.

Bytes are read as a row of written instructions for as long as the row goes on.  Where it
stops there is nothing left, or a byte that is no opcode, or the beginning of an instruction
without its end.  No instruction can be read there, whereas one is read at the front of every
written script, so a byte string falls apart into a script and a remainder in one way only.
-/

namespace LockScript
namespace Script

def opcodes : List UInt8 :=
  [0x00, 0x01, 0x10, 0x11, 0x20, 0x21, 0x22, 0x30, 0x31, 0x32, 0x33, 0x34, 0x35, 0x36, 0x80, 0x90,
    0x91, 0x92, 0x93]

/-- The bytes are a written script with `rest` behind it. -/
def Splits (bytes : Bytes) (script : Script) (rest : Bytes) : Prop :=
  ∃ front, encode script = .ok front ∧ bytes = front ++ rest

/-- What is left where the row of instructions ends, with the error that it is. -/
inductive Stops : Bytes → Option DecodeError → Prop where
  | finished : Stops [] none
  | unknown (byte : UInt8) (rest : Bytes) (hbyte : byte ∉ opcodes) :
    Stops (byte :: rest) (some (.unknownOpcode byte))
  /-- One instruction would be written as the remainder and some bytes that are missing. -/
  | truncated (instruction : Instruction) (rest missing : Bytes) (hrest : rest ≠ [])
    (hmissing : missing ≠ []) (hencode : instruction.encode = .ok (rest ++ missing)) :
    Stops rest (some .truncatedOperand)

def outcome (script : Script) : Option DecodeError → Except DecodeError Script
  | none => .ok script
  | some e => .error e

/-! ## Where no instruction can be read -/

theorem ofOpcode?_eq_none_iff {byte : UInt8} :
    Shape.ofOpcode? byte = none ↔ byte ∉ opcodes := by
  fun_cases Shape.ofOpcode? byte
  all_goals simp_all [opcodes]

theorem encode_eq_ok_iff {instruction : Instruction} {bytes : Bytes} :
    instruction.encode = .ok bytes ↔
      ∃ operand, instruction.operandBytes = .ok operand ∧ instruction.opcode :: operand = bytes :=
  Result.map_eq_ok_iff

theorem stops_of_operandBytes {instruction : Instruction} {rest missing : Bytes}
    (hmissing : missing ≠ []) (h : instruction.operandBytes = .ok (rest ++ missing)) :
    Stops (instruction.opcode :: rest) (some .truncatedOperand) :=
  .truncated instruction _ missing (List.cons_ne_nil _ _) hmissing (encode_eq_ok_iff.2 ⟨_, h, rfl⟩)

theorem stops_of_readFirst {opcode : UInt8} {rest : Bytes} {e : DecodeError} {size : Nat}
    (h : readFirst opcode rest = .error (e, size)) : Stops (opcode :: rest) (some e) := by
  unfold readFirst at h
  split at h
  · rename_i hshape
    cases h
    exact .unknown opcode rest (ofOpcode?_eq_none_iff.1 hshape)
  · cases h
  · rename_i make hshape
    split at h
    · cases h
      -- any byte would complete it
      obtain ⟨rfl, hoperand⟩ := makes_of_ofOpcode? hshape 0
      have hbytes : (make 0).operandBytes = .ok ([] ++ [0]) := by
        rw [Instruction.operandBytes, hoperand]
        rfl
      exact stops_of_operandBytes (by simp) hbytes
    · cases h
  · rename_i make hshape
    split at h
    · cases h
      obtain ⟨rfl, hoperand⟩ := makes_of_ofOpcode? hshape []
      have hbytes : (make []).operandBytes = .ok ([] ++ [0]) := operandBytes_blob hoperand (by simp)
      exact stops_of_operandBytes (by simp) hbytes
    rename_i length payload
    split at h
    · cases h
    rename_i hlength
    cases h
    -- zeros stand in for the part of the blob that is missing
    have hbyte : length.toNat < 256 := length.toNat_lt
    let missing : Bytes := List.replicate (length.toNat - payload.length) 0
    have hmissing : missing ≠ [] := by
      rw [Ne, List.replicate_eq_nil_iff]
      omega
    have hsize : (payload ++ missing).length = length.toNat := by
      rw [List.length_append, List.length_replicate]
      omega
    obtain ⟨rfl, hoperand⟩ := makes_of_ofOpcode? hshape (payload ++ missing)
    have hbytes := operandBytes_blob hoperand (by omega)
    rw [hsize, UInt8.ofNat_toNat, ← List.cons_append] at hbytes
    exact stops_of_operandBytes hmissing hbytes

theorem readFirst_of_truncated {instruction : Instruction} {rest missing : Bytes}
    (hmissing : missing ≠ []) (h : instruction.operandBytes = .ok (rest ++ missing)) :
    ∃ size, readFirst instruction.opcode rest = .error (.truncatedOperand, size) := by
  have htable := ofOpcode?_opcode instruction
  unfold Instruction.operandBytes at h
  cases hoperand : instruction.operand with
  | none =>
    rw [hoperand] at h
    have hnil : rest ++ missing = [] := (Except.ok.inj h).symm
    exact absurd (List.append_eq_nil_iff.1 hnil).2 hmissing
  | byte value =>
    rw [hoperand] at h htable
    obtain ⟨make, hmake, -⟩ := htable
    have hvalue : rest ++ missing = [value] := (Except.ok.inj h).symm
    cases rest with
    | nil => exact ⟨1, by simp only [readFirst, hmake]⟩
    | cons first rest =>
      have hnil : rest ++ missing = [] := (List.cons.inj hvalue).2
      exact absurd (List.append_eq_nil_iff.1 hnil).2 hmissing
  | blob value =>
    rw [hoperand] at h htable
    obtain ⟨make, hmake, -⟩ := htable
    simp only at h
    split at h
    · rename_i hlength
      cases rest with
      | nil => exact ⟨1, by simp only [readFirst, hmake]⟩
      | cons length payload =>
        rw [List.cons_append] at h
        obtain ⟨rfl, rfl⟩ := List.cons.inj (Except.ok.inj h)
        -- the length byte counts the missing bytes as well
        have hpos := List.length_pos_iff.2 hmissing
        have hbyte : ¬ (UInt8.ofNat (payload ++ missing).length).toNat ≤ payload.length := by
          rw [UInt8.toNat_ofNat']
          rw [List.length_append] at hlength ⊢
          omega
        exact ⟨2, by simp only [readFirst, hmake, hbyte, if_false]⟩
    · cases h

theorem readFirst_of_stops {opcode : UInt8} {rest : Bytes} {e : Option DecodeError}
    (h : Stops (opcode :: rest) e) :
    ∃ error size, e = some error ∧ readFirst opcode rest = .error (error, size) := by
  cases h with
  | unknown _ _ hbyte =>
    refine ⟨.unknownOpcode opcode, 1, rfl, ?_⟩
    simp only [readFirst, ofOpcode?_eq_none_iff.2 hbyte]
  | truncated instruction _ missing hrest hmissing hencode =>
    obtain ⟨operand, hoperand, hbytes⟩ := encode_eq_ok_iff.1 hencode
    obtain ⟨rfl, rfl⟩ := List.cons.inj hbytes
    obtain ⟨size, hread⟩ := readFirst_of_truncated hmissing hoperand
    exact ⟨.truncatedOperand, size, rfl, hread⟩

/-! ## Reading as far as it goes -/

theorem decode_of_splits {bytes rest : Bytes} {script : Script} (h : Splits bytes script rest) :
    decode bytes = (decode rest).map (script ++ ·) := by
  obtain ⟨front, hfront, rfl⟩ := h
  exact decode_append hfront rest

theorem decode_of_readFirst_error {opcode : UInt8} {rest : Bytes} {e : DecodeError} {size : Nat}
    (h : readFirst opcode rest = .error (e, size)) : decode (opcode :: rest) = .error e := by
  rw [decode]
  split
  · rename_i hread
    rw [h] at hread
    cases hread
    rfl
  · rename_i hread
    rw [h] at hread
    cases hread

theorem decode_of_stops {rest : Bytes} {e : Option DecodeError} (h : Stops rest e) :
    decode rest = outcome [] e := by
  cases rest with
  | nil =>
    cases h with
    | finished => rw [decode, outcome]
    | truncated _ _ _ hrest => exact absurd rfl hrest
  | cons opcode rest =>
    obtain ⟨error, size, rfl, hread⟩ := readFirst_of_stops h
    exact decode_of_readFirst_error hread

theorem decode_eq_outcome {bytes rest : Bytes} {script : Script} {e : Option DecodeError}
    (h : Splits bytes script rest) (hstops : Stops rest e) : decode bytes = outcome script e := by
  rw [decode_of_splits h, decode_of_stops hstops]
  cases e with
  | none => rw [outcome, Except.map, List.append_nil, outcome]
  | some error => rfl

theorem splits_cons {instruction : Instruction} {operand bytes rest : Bytes} {script : Script}
    (hoperand : instruction.operandBytes = .ok operand) (h : Splits bytes script rest) :
    Splits (instruction.opcode :: (operand ++ bytes)) (instruction :: script) rest := by
  obtain ⟨front, hfront, rfl⟩ := h
  refine ⟨instruction.opcode :: (operand ++ front),
    encode_cons_eq_ok_iff.2 ⟨operand, front, hoperand, hfront, rfl⟩, ?_⟩
  rw [List.cons_append, List.append_assoc]

theorem exists_splits_stops (bytes : Bytes) :
    ∃ script rest e, Splits bytes script rest ∧ Stops rest e := by
  fun_induction decode bytes with
  | case1 => exact ⟨[], [], none, ⟨[], rfl, rfl⟩, .finished⟩
  | case2 opcode rest e size hread =>
    exact ⟨[], opcode :: rest, some e, ⟨[], rfl, rfl⟩, stops_of_readFirst hread⟩
  | case3 opcode rest instruction size hread ih =>
    obtain ⟨rfl, operand, following, hoperand, rfl, rfl⟩ := operandBytes_of_readFirst hread
    rw [drop_operand] at ih
    obtain ⟨script, rest, e, hsplits, hstops⟩ := ih
    exact ⟨instruction :: script, rest, e, splits_cons hoperand hsplits, hstops⟩

/-! ## There is no other way -/

theorem splits_cons_inv {instruction : Instruction} {bytes rest : Bytes} {script : Script}
    (h : Splits bytes (instruction :: script) rest) :
    ∃ operand following, instruction.operandBytes = .ok operand ∧
      bytes = instruction.opcode :: (operand ++ following) ∧ Splits following script rest := by
  obtain ⟨front, hfront, rfl⟩ := h
  obtain ⟨operand, behind, hoperand, hbehind, rfl⟩ := encode_cons_eq_ok_iff.1 hfront
  refine ⟨operand, behind ++ rest, hoperand, ?_, behind, hbehind, rfl⟩
  rw [List.cons_append, List.append_assoc]

/-- A script that the bytes begin with goes no further than the one behind which they stop. -/
theorem isPrefix_of_splits {bytes rest behind : Bytes} {script other : Script}
    {e : Option DecodeError} (hstops : Stops rest e) (h : Splits bytes script rest)
    (hother : Splits bytes other behind) : other <+: script := by
  induction other generalizing bytes script with
  | nil => exact List.nil_prefix
  | cons first other ih =>
    obtain ⟨operand, following, hoperand, rfl, hbehind⟩ := splits_cons_inv hother
    have hread := readFirst_operandBytes hoperand following
    cases script with
    | nil =>
      -- the bytes are the remainder itself, but an instruction is read at their front
      obtain ⟨front, hfront, hbytes⟩ := h
      cases hfront
      rw [List.nil_append] at hbytes
      subst hbytes
      obtain ⟨error, size, -, hfail⟩ := readFirst_of_stops hstops
      rw [hread] at hfail
      cases hfail
    | cons second script =>
      obtain ⟨operand', following', hoperand', hbytes, hrest⟩ := splits_cons_inv h
      obtain ⟨hopcode, htail⟩ := List.cons.inj hbytes
      have hread' := readFirst_operandBytes hoperand' following'
      rw [← hopcode, ← htail, hread] at hread'
      have hsame : first = second := congrArg Prod.fst (Except.ok.inj hread')
      subst hsame
      rw [hoperand] at hoperand'
      cases hoperand'
      have hfollowing : following = following' := List.append_cancel_left htail
      subst hfollowing
      exact (List.prefix_cons_inj first).2 (ih hrest hbehind)

theorem splits_stops_unique {bytes rest rest' : Bytes} {script script' : Script}
    {e e' : Option DecodeError} (h : Splits bytes script rest) (hstops : Stops rest e)
    (h' : Splits bytes script' rest') (hstops' : Stops rest' e') :
    script' = script ∧ rest' = rest ∧ e' = e := by
  have hforth := isPrefix_of_splits hstops h h'
  have hback := isPrefix_of_splits hstops' h' h
  have hscript : script' = script :=
    hforth.eq_of_length (Nat.le_antisymm hforth.length_le hback.length_le)
  subst hscript
  obtain ⟨front, hfront, rfl⟩ := h
  obtain ⟨front', hfront', hbytes⟩ := h'
  rw [hfront] at hfront'
  cases hfront'
  have hrest : rest = rest' := List.append_cancel_left hbytes
  subst hrest
  refine ⟨rfl, rfl, ?_⟩
  have houtcome : outcome [] e = outcome [] e' :=
    (decode_of_stops hstops).symm.trans (decode_of_stops hstops')
  cases e with
  | none =>
    cases e' with
    | none => rfl
    | some error => cases houtcome
  | some error =>
    cases e' with
    | none => cases houtcome
    | some error' =>
      cases houtcome
      rfl

/-! ## Scripts that were cut -/

theorem decode_of_cut {script : Script} {bytes missing : Bytes}
    (h : encode script = .ok (bytes ++ missing)) (hmissing : missing ≠ []) :
    (∃ front, decode bytes = .ok front ∧ front <+: script ∧ front ≠ script) ∨
      decode bytes = .error .truncatedOperand := by
  obtain ⟨front, rest, e, hsplits, hstops⟩ := exists_splits_stops bytes
  have hread := decode_eq_outcome hsplits hstops
  have hwhole : Splits (bytes ++ missing) script [] := ⟨_, h, (List.append_nil _).symm⟩
  have hlonger : Splits (bytes ++ missing) front (rest ++ missing) := by
    obtain ⟨written, hwritten, rfl⟩ := hsplits
    exact ⟨written, hwritten, List.append_assoc _ _ _⟩
  cases hstops with
  | finished =>
    refine .inl ⟨front, hread, isPrefix_of_splits .finished hwhole hlonger, ?_⟩
    intro hsame
    subst hsame
    obtain ⟨written, hwritten, hbytes⟩ := hlonger
    rw [h] at hwritten
    cases hwritten
    exact hmissing (List.append_right_eq_self.1 hbytes.symm)
  | unknown byte rest hbyte =>
    -- the byte is still there in the whole script, which can be read
    obtain ⟨-, -, hnone⟩ := splits_stops_unique hwhole .finished hlonger
      (.unknown byte (rest ++ missing) hbyte)
    cases hnone
  | truncated => exact .inr hread

/-- Reading accepts exactly the written scripts and names what is wrong with all other bytes.  They
are a written script and a remainder in one way, in which the script is the longest and the
remainder is where reading stops.  A script that was cut is read up to the cut or found truncated,
and bytes behind a script are read as they would be without it. -/
theorem decode_grammar (bytes : Bytes) :
    (∃ script rest e, Writable script ∧ Splits bytes script rest ∧ Stops rest e ∧
      decode bytes = outcome script e ∧
      (∀ other behind, Splits bytes other behind → other <+: script) ∧
      ∀ other behind e', Splits bytes other behind → Stops behind e' →
        other = script ∧ behind = rest ∧ e' = e) ∧
    (∀ script missing, encode script = .ok (bytes ++ missing) → missing ≠ [] →
      (∃ front, decode bytes = .ok front ∧ front <+: script ∧ front ≠ script) ∨
        decode bytes = .error .truncatedOperand) ∧
    ∀ front script, decode front = .ok script →
      decode (front ++ bytes) = (decode bytes).map (script ++ ·) := by
  refine ⟨?_, ?_, ?_⟩
  · obtain ⟨script, rest, e, hsplits, hstops⟩ := exists_splits_stops bytes
    have hwritable : Writable script := by
      obtain ⟨front, hfront, -⟩ := hsplits
      exact encode_isOk_iff.1 ⟨front, hfront⟩
    refine ⟨script, rest, e, hwritable, hsplits, hstops, decode_eq_outcome hsplits hstops, ?_, ?_⟩
    · intro other behind hother
      exact isPrefix_of_splits hstops hsplits hother
    · intro other behind e' hother hstops'
      exact splits_stops_unique hsplits hstops hother hstops'
  · intro script missing hencode hmissing
    exact decode_of_cut hencode hmissing
  · intro front script hfront
    exact decode_append (encode_of_decode hfront) bytes

/-- A blob cut behind its first byte, which would be an opcode of its own. -/
theorem decode_grammar_cut_pushb :
    Splits [0x10, 0x32, 0x02, 0x30] [.not] [0x32, 0x02, 0x30] ∧
      Stops [0x32, 0x02, 0x30] (some .truncatedOperand) ∧
      encode [.not, .pushb [0x30, 0x10]] = .ok ([0x10, 0x32, 0x02, 0x30] ++ [0x10]) ∧
      decode [0x10, 0x32, 0x02, 0x30] = .error .truncatedOperand ∧
      decode [0x00] = .ok [.nop] ∧
      decode ([0x00] ++ [0x10, 0x32, 0x02, 0x30]) = .error .truncatedOperand := by
  have hsplits : Splits [0x10, 0x32, 0x02, 0x30] [.not] [0x32, 0x02, 0x30] := ⟨[0x10], rfl, rfl⟩
  have hstops : Stops [0x32, 0x02, 0x30] (some .truncatedOperand) :=
    .truncated (.pushb [0x30, 0x10]) _ [0x10] (by simp) (by simp) rfl
  have hencode : encode [.not, .pushb [0x30, 0x10]] =
      .ok ([0x10, 0x32, 0x02, 0x30] ++ [0x10]) := rfl
  have hfront : decode [0x00] = .ok [.nop] := by
    simp [decode, readFirst, Shape.ofOpcode?, Except.map]
  obtain ⟨⟨script, rest, e, -, -, -, hdecode, -, hunique⟩, hcut, happend⟩ :=
    decode_grammar [0x10, 0x32, 0x02, 0x30]
  obtain ⟨-, -, rfl⟩ := hunique _ _ _ hsplits hstops
  have hread : decode [0x10, 0x32, 0x02, 0x30] = .error .truncatedOperand := by
    rcases hcut _ _ hencode (by simp) with ⟨front, hwhole, -, -⟩ | hread
    · rw [hdecode] at hwhole
      cases hwhole
    · exact hread
  refine ⟨hsplits, hstops, hencode, hread, hfront, ?_⟩
  rw [happend _ _ hfront, hread]
  rfl

end Script
end LockScript
