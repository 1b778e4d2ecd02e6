import LockScript.Proofs.Basic
import LockScript.Script.Decoding

/-!
Writing and reading scripts undo each other.

The bytes of an instruction are an opcode and an operand, and the opcode says what
operand is due.  So the two tables, of opcodes and of shapes, have to agree in both
directions.  From there one instruction is read back whatever follows it, and both
round trips follow by induction over the script and over the bytes.
-/

namespace LockScript
namespace Script

/-! ## The two tables -/

/-- What a shape makes has the opcode it was looked up for and the operand it was given. -/
def Shape.Makes (byte : UInt8) : Shape → Prop
  | .plain instruction => instruction.opcode = byte ∧ instruction.operand = .none
  | .byte instruction =>
    ∀ value, (instruction value).opcode = byte ∧ (instruction value).operand = .byte value
  | .blob instruction =>
    ∀ value, (instruction value).opcode = byte ∧ (instruction value).operand = .blob value

theorem makes_of_ofOpcode? {byte : UInt8} {shape : Shape}
    (h : Shape.ofOpcode? byte = some shape) : shape.Makes byte := by
  -- one case for each entry of the table, the last one being that there is none
  revert h
  fun_cases Shape.ofOpcode? byte
  all_goals intro h
  all_goals cases h
  all_goals
    subst_vars
    simp [Shape.Makes, Instruction.opcode, Instruction.operand]

theorem ofOpcode?_opcode (instruction : Instruction) :
    match instruction.operand with
    | .none => Shape.ofOpcode? instruction.opcode = some (.plain instruction)
    | .byte value => ∃ make, Shape.ofOpcode? instruction.opcode = some (.byte make) ∧
        make value = instruction
    | .blob value => ∃ make, Shape.ofOpcode? instruction.opcode = some (.blob make) ∧
        make value = instruction := by
  cases instruction with
  | nop | burn | not | eq | pop | dup | swap | chksig => rfl
  | digest algorithm => cases algorithm <;> rfl
  | jmp value | jnz value | jz value | push value | copy value | drop value | pushb value =>
    exact ⟨_, rfl, rfl⟩

/-! ## One instruction -/

theorem operandBytes_blob {instruction : Instruction} {value : Bytes}
    (h : instruction.operand = .blob value) (hvalue : value.length ≤ 255) :
    instruction.operandBytes = .ok (UInt8.ofNat value.length :: value) := by
  rw [Instruction.operandBytes, h]
  simp only [hvalue, if_true]

theorem operandBytes_of_readFirst {opcode : UInt8} {rest : Bytes} {instruction : Instruction}
    {size : Nat} (h : readFirst opcode rest = .ok (instruction, size)) :
    instruction.opcode = opcode ∧
      ∃ operand following, instruction.operandBytes = .ok operand ∧
        rest = operand ++ following ∧ size = 1 + operand.length := by
  unfold readFirst at h
  split at h
  · cases h
  · rename_i found hshape
    cases h
    obtain ⟨hopcode, hoperand⟩ := makes_of_ofOpcode? hshape
    exact ⟨hopcode, [], rest, by rw [Instruction.operandBytes, hoperand], rfl, rfl⟩
  · rename_i make hshape
    split at h
    · cases h
    rename_i value following
    cases h
    obtain ⟨hopcode, hoperand⟩ := makes_of_ofOpcode? hshape value
    exact ⟨hopcode, [value], following, by rw [Instruction.operandBytes, hoperand], rfl, rfl⟩
  · rename_i make hshape
    split at h
    · cases h
    rename_i length payload
    split at h
    · rename_i hlength
      cases h
      obtain ⟨hopcode, hoperand⟩ := makes_of_ofOpcode? hshape (payload.take length.toNat)
      have htake : (payload.take length.toNat).length = length.toNat :=
        List.length_take_of_le hlength
      have hbyte : length.toNat < 256 := length.toNat_lt
      have hbytes := operandBytes_blob hoperand (by omega)
      rw [htake, UInt8.ofNat_toNat] at hbytes
      refine ⟨hopcode, length :: payload.take length.toNat, payload.drop length.toNat, hbytes,
        ?_, ?_⟩
      · rw [List.cons_append, List.take_append_drop]
      · rw [List.length_cons, htake]
        omega
    · cases h

theorem readFirst_operandBytes {instruction : Instruction} {operand : Bytes}
    (h : instruction.operandBytes = .ok operand) (following : Bytes) :
    readFirst instruction.opcode (operand ++ following) =
      .ok (instruction, 1 + operand.length) := by
  have htable := ofOpcode?_opcode instruction
  unfold Instruction.operandBytes at h
  cases hoperand : instruction.operand with
  | none =>
    rw [hoperand] at h htable
    cases h
    simp only [readFirst, htable]
    rfl
  | byte value =>
    rw [hoperand] at h htable
    obtain ⟨make, hmake, hvalue⟩ := htable
    cases h
    simp only [readFirst, hmake, List.cons_append, hvalue]
    rfl
  | blob value =>
    rw [hoperand] at h htable
    obtain ⟨make, hmake, hvalue⟩ := htable
    simp only at h
    split at h
    · rename_i hlength
      cases h
      -- the length byte holds the length, since no more than 255 bytes were let through
      have hbyte : (UInt8.ofNat value.length).toNat = value.length := by
        rw [UInt8.toNat_ofNat']
        omega
      have hfits : value.length ≤ (value ++ following).length := by
        rw [List.length_append]
        omega
      simp only [readFirst, hmake, List.cons_append, hbyte, hfits, if_true, List.take_left, hvalue,
        List.length_cons]
      congr 2
      omega
    · cases h

/-! ## Whole scripts -/

theorem drop_operand (opcode : UInt8) (operand following : Bytes) :
    (opcode :: (operand ++ following)).drop (1 + operand.length) = following := by
  rw [Nat.add_comm, List.drop_succ_cons, List.drop_left]

theorem decode_cons {opcode : UInt8} {rest : Bytes} {instruction : Instruction} {size : Nat}
    (h : readFirst opcode rest = .ok (instruction, size)) :
    decode (opcode :: rest) =
      (decode ((opcode :: rest).drop size)).map (instruction :: ·) := by
  rw [decode]
  split
  · rename_i hread
    rw [h] at hread
    cases hread
  · rename_i hread
    rw [h] at hread
    cases hread
    rfl

theorem encode_cons_eq_ok_iff {instruction : Instruction} {script : Script} {bytes : Bytes} :
    encode (instruction :: script) = .ok bytes ↔
      ∃ operand rest, instruction.operandBytes = .ok operand ∧ encode script = .ok rest ∧
        bytes = instruction.opcode :: (operand ++ rest) := by
  rw [encode, Result.bind_eq_ok_iff]
  constructor
  · intro hparts
    obtain ⟨first, hfirst, hrest⟩ := hparts
    obtain ⟨operand, hoperand, rfl⟩ := Result.map_eq_ok_iff.1 hfirst
    obtain ⟨rest, hscript, hbytes⟩ := Result.bind_eq_ok_iff.1 hrest
    cases hbytes
    exact ⟨operand, rest, hoperand, hscript, rfl⟩
  · intro hparts
    obtain ⟨operand, rest, hoperand, hscript, rfl⟩ := hparts
    refine ⟨instruction.opcode :: operand, ?_, ?_⟩
    · rw [Instruction.encode, hoperand]
      rfl
    · rw [hscript]
      rfl

/-- A written script is read back in front of whatever follows it. -/
theorem decode_append {script : Script} {bytes : Bytes} (h : encode script = .ok bytes)
    (following : Bytes) :
    decode (bytes ++ following) = (decode following).map (script ++ ·) := by
  induction script generalizing bytes with
  | nil =>
    cases h
    cases hdecode : decode following <;> simp [hdecode, Except.map]
  | cons instruction script ih =>
    obtain ⟨operand, rest, hoperand, hrest, rfl⟩ := encode_cons_eq_ok_iff.1 h
    have hread := readFirst_operandBytes hoperand (rest ++ following)
    rw [List.cons_append, List.append_assoc, decode_cons hread, drop_operand, ih hrest]
    cases decode following <;> rfl

theorem decode_of_encode {script : Script} {bytes : Bytes} (h : encode script = .ok bytes) :
    decode bytes = .ok script := by
  have hread := decode_append h []
  rw [List.append_nil, decode] at hread
  simpa [Except.map] using hread

theorem encode_of_decode {bytes : Bytes} {script : Script} (h : decode bytes = .ok script) :
    encode script = .ok bytes := by
  fun_induction decode bytes generalizing script with
  | case1 =>
    cases h
    rfl
  | case2 opcode rest e size hread => cases h
  | case3 opcode rest instruction size hread ih =>
    -- what was read determines the bytes in front, and the rest is read from behind them
    obtain ⟨tail, htail, rfl⟩ := Result.map_eq_ok_iff.1 h
    obtain ⟨rfl, operand, following, hoperand, rfl, rfl⟩ := operandBytes_of_readFirst hread
    rw [drop_operand] at htail ih
    exact encode_cons_eq_ok_iff.2 ⟨operand, following, hoperand, ih htail, rfl⟩

/-! ## What cannot be written -/

/-- No blob of the script is longer than its length byte can say. -/
def Writable (script : Script) : Prop := ∀ blob, .pushb blob ∈ script → blob.length ≤ 255

theorem operandBytes_eq_error_iff {instruction : Instruction} {e : EncodeError} :
    instruction.operandBytes = .error e ↔
      ∃ blob, instruction = .pushb blob ∧ 255 < blob.length ∧ e = .blobTooLong blob.length := by
  constructor
  · intro h
    unfold Instruction.operandBytes at h
    cases instruction with
    | pushb blob =>
      simp only [Instruction.operand] at h
      split at h
      · cases h
      · cases h
        exact ⟨blob, rfl, by omega, rfl⟩
    | _ => cases h
  · intro hparts
    obtain ⟨blob, rfl, hlong, rfl⟩ := hparts
    simp only [Instruction.operandBytes, Instruction.operand]
    rw [if_neg (by omega)]

theorem encode_cons_eq_error_iff {instruction : Instruction} {script : Script}
    {e : EncodeError} :
    encode (instruction :: script) = .error e ↔
      instruction.operandBytes = .error e ∨
        (∃ operand, instruction.operandBytes = .ok operand) ∧ encode script = .error e := by
  rw [encode, Result.bind_eq_error_iff, Instruction.encode, Result.map_eq_error_iff]
  cases hoperand : instruction.operandBytes with
  | error reason => simp [Except.map]
  | ok operand =>
    cases hscript : encode script with
    | error reason => simp [Except.map, bind, Except.bind]
    | ok rest => simp [Except.map, bind, Except.bind, pure, Except.pure]

theorem writable_nil : Writable [] := by
  intro blob hmem
  cases hmem

theorem writable_cons_iff {instruction : Instruction} {script : Script} :
    Writable (instruction :: script) ↔
      (∃ operand, instruction.operandBytes = .ok operand) ∧ Writable script := by
  constructor
  · intro h
    refine ⟨?_, fun blob hmem => h blob (List.mem_cons_of_mem _ hmem)⟩
    cases hoperand : instruction.operandBytes with
    | ok operand => exact ⟨operand, rfl⟩
    | error e =>
      obtain ⟨blob, rfl, hlong, -⟩ := operandBytes_eq_error_iff.1 hoperand
      have hshort := h blob List.mem_cons_self
      omega
  · intro hparts blob hmem
    obtain ⟨⟨operand, hoperand⟩, hscript⟩ := hparts
    rcases List.mem_cons.1 hmem with rfl | hmem
    · rcases Nat.lt_or_ge 255 blob.length with hlong | hshort
      · rw [operandBytes_eq_error_iff.2 ⟨blob, rfl, hlong, rfl⟩] at hoperand
        cases hoperand
      · exact hshort
    · exact hscript blob hmem

theorem encode_isOk_iff {script : Script} :
    (∃ bytes, encode script = .ok bytes) ↔ Writable script := by
  induction script with
  | nil => exact ⟨fun _ => writable_nil, fun _ => ⟨[], rfl⟩⟩
  | cons instruction script ih =>
    rw [writable_cons_iff, ← ih]
    constructor
    · intro hparts
      obtain ⟨bytes, hbytes⟩ := hparts
      obtain ⟨operand, rest, hoperand, hrest, -⟩ := encode_cons_eq_ok_iff.1 hbytes
      exact ⟨⟨operand, hoperand⟩, rest, hrest⟩
    · intro hparts
      obtain ⟨⟨operand, hoperand⟩, rest, hrest⟩ := hparts
      exact ⟨_, encode_cons_eq_ok_iff.2 ⟨operand, rest, hoperand, hrest, rfl⟩⟩

/-- The error is that of the first blob that is too long. -/
theorem encode_eq_error_iff {script : Script} {e : EncodeError} :
    encode script = .error e ↔
      ∃ before blob after, script = before ++ .pushb blob :: after ∧ Writable before ∧
        255 < blob.length ∧ e = .blobTooLong blob.length := by
  induction script with
  | nil => simp [encode]
  | cons instruction script ih =>
    rw [encode_cons_eq_error_iff, operandBytes_eq_error_iff, ih]
    constructor
    · intro herror
      rcases herror with ⟨blob, rfl, hlong, rfl⟩ | ⟨hfirst, hrest⟩
      · exact ⟨[], blob, script, rfl, writable_nil, hlong, rfl⟩
      · obtain ⟨before, blob, after, rfl, hbefore, hlong, rfl⟩ := hrest
        have hwritable := writable_cons_iff.2 ⟨hfirst, hbefore⟩
        exact ⟨instruction :: before, blob, after, rfl, hwritable, hlong, rfl⟩
    · intro hparts
      obtain ⟨before, blob, after, hscript, hbefore, hlong, rfl⟩ := hparts
      cases before with
      | nil =>
        cases hscript
        exact .inl ⟨blob, rfl, hlong, rfl⟩
      | cons first before =>
        cases hscript
        obtain ⟨hfirst, hbefore⟩ := writable_cons_iff.1 hbefore
        exact .inr ⟨hfirst, before, blob, after, rfl, hbefore, hlong, rfl⟩

/-- Writing and reading are inverse to each other over the whole format, and writing fails for
nothing but a blob that is too long, the first of which it names. -/
theorem encode_decode_inverse (script : Script) (bytes : Bytes) :
    (Writable script → ∃ written, encode script = .ok written ∧ decode written = .ok script) ∧
    (decode bytes = .ok script → encode script = .ok bytes) ∧
    ((∃ e, encode script = .error e) ↔ ∃ blob, .pushb blob ∈ script ∧ 255 < blob.length) ∧
    ∀ e, encode script = .error e ↔
      ∃ before blob after, script = before ++ .pushb blob :: after ∧ Writable before ∧
        255 < blob.length ∧ e = .blobTooLong blob.length := by
  refine ⟨?_, encode_of_decode, ?_, fun e => encode_eq_error_iff⟩
  · intro h
    obtain ⟨written, hwritten⟩ := encode_isOk_iff.2 h
    have hread := decode_append hwritten []
    rw [List.append_nil, decode] at hread
    refine ⟨written, hwritten, hread.trans ?_⟩
    simp [Except.map]
  · constructor
    · intro hparts
      obtain ⟨e, he⟩ := hparts
      obtain ⟨before, blob, after, rfl, -, hlong, -⟩ := encode_eq_error_iff.1 he
      exact ⟨blob, List.mem_append_right _ List.mem_cons_self, hlong⟩
    · intro hparts
      obtain ⟨blob, hmem, hlong⟩ := hparts
      cases hencode : encode script with
      | error e => exact ⟨e, rfl⟩
      | ok written =>
        have hshort := encode_isOk_iff.1 ⟨written, hencode⟩ blob hmem
        omega

theorem encode_decode_inverse_pushb :
    Writable [.pushb [0x30], .not] ∧ decode [0x32, 0x01, 0x30, 0x10] = .ok [.pushb [0x30], .not] ∧
      encode [.pushb [0x30], .not] = .ok [0x32, 0x01, 0x30, 0x10] := by
  have hwritable : Writable [.pushb [0x30], .not] := by simp [Writable]
  have hinverse := encode_decode_inverse [.pushb [0x30], .not] [0x32, 0x01, 0x30, 0x10]
  obtain ⟨written, hwritten, hread⟩ := hinverse.1 hwritable
  cases hwritten
  exact ⟨hwritable, hread, hinverse.2.1 hread⟩

end Script
end LockScript
