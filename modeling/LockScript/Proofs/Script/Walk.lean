import LockScript.Proofs.Script.Grammar

/-!
A walk over bytes, with questions on the way.

A reader can be asked for the next instruction and for its position, in any order and as often as
one likes.  Whatever was asked, it is in one of two places.  It stands behind a written script, all
of which it has handed out, or it has met an error behind one.  `Reached` says so, and one call
leads from the one to the other or stays.  What can be observed from outside follows from the place:
the positions, the one error, and that nothing moves any more once an end was reported.
-/

namespace LockScript
namespace Script

/-- The byte that says how long a blob is has been read, though the blob is not there. -/
def lengthRead (opcode : UInt8) (rest : Bytes) : Nat :=
  if opcode = 0x32 ∧ rest ≠ [] then 1 else 0

/-! ## Sizes -/

theorem eq_pushb_of_operand {instruction : Instruction} {blob : Bytes}
    (h : instruction.operand = .blob blob) : instruction = .pushb blob := by
  cases instruction with
  | pushb value =>
    cases h
    rfl
  | _ => cases h

theorem size_of_readFirst_error {opcode : UInt8} {rest : Bytes} {e : DecodeError} {size : Nat}
    (h : readFirst opcode rest = .error (e, size)) :
    size = 1 + lengthRead opcode rest ∧ size ≤ (opcode :: rest).length := by
  unfold readFirst at h
  split at h
  · rename_i hshape
    cases h
    have hopcode : opcode ≠ 0x32 := by
      rintro rfl
      cases hshape
    simp [lengthRead, hopcode]
  · cases h
  · split at h
    · cases h
      simp [lengthRead]
    · cases h
  · rename_i make hshape
    split at h
    · cases h
      simp [lengthRead]
    · split at h
      · cases h
      · cases h
        obtain ⟨hopcode, hoperand⟩ := makes_of_ofOpcode? hshape []
        rw [eq_pushb_of_operand hoperand] at hopcode
        simp [lengthRead, ← hopcode, Instruction.opcode]

theorem encode_append {script other : Script} {front behind : Bytes}
    (h : encode script = .ok front) (hother : encode other = .ok behind) :
    encode (script ++ other) = .ok (front ++ behind) := by
  induction script generalizing front with
  | nil =>
    cases h
    exact hother
  | cons instruction script ih =>
    obtain ⟨operand, rest, hoperand, hrest, rfl⟩ := encode_cons_eq_ok_iff.1 h
    refine encode_cons_eq_ok_iff.2 ⟨operand, rest ++ behind, hoperand, ih hrest, ?_⟩
    rw [List.cons_append, List.append_assoc]

namespace Reader

/-! ## One call -/

/-- All that a call can come to: nothing, an instruction or an error. -/
theorem next_cases (reader : Reader) :
    (reader.next = (none, reader) ∧ (reader.failed = true ∨ reader.rest = [])) ∨
    (∃ opcode rest instruction size, reader.next = (some (.ok instruction), reader.skip size) ∧
      reader.failed = false ∧ reader.rest = opcode :: rest ∧
      readFirst opcode rest = .ok (instruction, size)) ∨
    ∃ opcode rest e size,
      reader.next = (some (.error e), { reader.skip size with failed := true }) ∧
      reader.failed = false ∧ reader.rest = opcode :: rest ∧
      readFirst opcode rest = .error (e, size) := by
  unfold next
  cases hfailed : reader.failed with
  | true => exact .inl ⟨rfl, .inl rfl⟩
  | false =>
    cases hrest : reader.rest with
    | nil => exact .inl ⟨rfl, .inr rfl⟩
    | cons opcode rest =>
      cases hread : readFirst opcode rest with
      | ok found =>
        refine .inr (.inl ⟨opcode, rest, found.1, found.2, ?_, rfl, rfl, hread⟩)
        simp [hread]
      | error failure =>
        refine .inr (.inr ⟨opcode, rest, failure.1, failure.2, ?_, rfl, rfl, hread⟩)
        simp [hread]

theorem next_of_end {reader : Reader} (h : reader.failed = true ∨ reader.rest = []) :
    reader.next = (none, reader) := by
  unfold next
  rcases h with hfailed | hrest
  · rw [if_pos hfailed]
  · rw [hrest]
    split <;> rfl

theorem next_eq_none_iff {reader : Reader} :
    reader.next.1 = none ↔ reader.failed = true ∨ reader.rest = [] := by
  constructor
  · intro h
    obtain ⟨-, hend⟩ | ⟨_, _, _, _, hnext, -⟩ | ⟨_, _, _, _, hnext, -⟩ := next_cases reader
    · exact hend
    · rw [hnext] at h
      cases h
    · rw [hnext] at h
      cases h
  · intro hend
    rw [next_of_end hend]

theorem position_lt_next {reader : Reader} {item : Except DecodeError Instruction}
    (h : reader.next.1 = some item) : reader.position < reader.next.2.position := by
  obtain ⟨hnext, -⟩ | ⟨_, _, _, size, hnext, -, -, hread⟩ | ⟨_, _, _, size, hnext, -, -, hread⟩ :=
    next_cases reader
  · rw [hnext] at h
    cases h
  · have hpos := readFirst_pos hread
    rw [hnext]
    show reader.position < reader.position + size
    omega
  · have hsize := (size_of_readFirst_error hread).1
    rw [hnext]
    show reader.position < reader.position + size
    omega

theorem position_le_next (reader : Reader) : reader.position ≤ reader.next.2.position := by
  cases h : reader.next.1 with
  | none =>
    have hsame := next_of_end (next_eq_none_iff.1 h)
    simp [hsame]
  | some item => exact Nat.le_of_lt (position_lt_next h)

/-! ## Questions and answers -/

/-- What a reader can be asked for. -/
inductive Query where
  | next
  | position
deriving DecidableEq, Repr

inductive Answer where
  | item (item? : Option (Except DecodeError Instruction))
  | position (value : Nat)

def Answer.item? : Answer → Option (Except DecodeError Instruction)
  | item item? => item?
  | position _ => none

def Answer.position? : Answer → Option Nat
  | item _ => none
  | position value => some value

/-- The answer reports the end of the bytes or an error. -/
def Answer.isLast : Answer → Bool
  | item none => true
  | item (some (.error _)) => true
  | _ => false

/-- What was handed out, instructions and errors alike. -/
def found (answers : List Answer) : List (Except DecodeError Instruction) :=
  answers.filterMap Answer.item?

/-- The answer to a question, and the reader behind it. -/
def ask (reader : Reader) : Query → Answer × Reader
  | .next => (.item reader.next.1, reader.next.2)
  | .position => (.position reader.position, reader)

def answers (reader : Reader) : List Query → List Answer
  | [] => []
  | query :: rest => (reader.ask query).1 :: (reader.ask query).2.answers rest

def after (reader : Reader) : List Query → Reader
  | [] => reader
  | query :: rest => (reader.ask query).2.after rest

theorem found_cons (answer : Answer) (answers : List Answer) :
    found (answer :: answers) = answer.item?.toList ++ found answers := by
  cases h : answer.item? <;> simp [found, h]

/-- The positions asked for lie between where the reader was and where it is, each at or behind the
one before. -/
theorem pairwise_positions (reader : Reader) (queries : List Query) :
    (reader.position :: ((reader.answers queries).filterMap Answer.position? ++
      [(reader.after queries).position])).Pairwise (· ≤ ·) := by
  induction queries generalizing reader with
  | nil => simp [answers, after]
  | cons query queries ih =>
    cases query with
    | next =>
      have hle := position_le_next reader
      obtain ⟨hhead, htail⟩ := List.pairwise_cons.1 (ih reader.next.2)
      refine List.pairwise_cons.2 ⟨fun value hvalue => ?_, htail⟩
      exact Nat.le_trans hle (hhead value hvalue)
    | position =>
      obtain ⟨hhead, htail⟩ := List.pairwise_cons.1 (ih reader)
      refine List.pairwise_cons.2 ⟨fun value hvalue => ?_, ih reader⟩
      rcases List.mem_cons.1 hvalue with rfl | hvalue
      · exact Nat.le_refl _
      · exact hhead value hvalue

theorem position_le_after (reader : Reader) (queries : List Query) :
    reader.position ≤ (reader.after queries).position :=
  (List.pairwise_cons.1 (pairwise_positions reader queries)).1 _ (by simp)

/-! ## After the end -/

section

variable {reader : Reader}

theorem after_of_end (h : reader.next.1 = none) (queries : List Query) :
    reader.after queries = reader ∧
      ∀ item?, .item item? ∈ reader.answers queries → item? = none := by
  have hnext := next_of_end (next_eq_none_iff.1 h)
  induction queries with
  | nil => simp [after, answers]
  | cons query queries ih =>
    cases query with
    | next => simpa [after, answers, ask, hnext] using ih
    | position => simpa [after, answers, ask] using ih

/-- Behind the answer that reports an end there is nothing to come. -/
theorem next_of_isLast {query : Query} (h : (reader.ask query).1.isLast = true) :
    (reader.ask query).2.next.1 = none := by
  cases query with
  | position => cases h
  | next =>
    change (Answer.item reader.next.1).isLast = true at h
    show reader.next.2.next.1 = none
    obtain ⟨hnext, hend⟩ | ⟨_, _, _, _, hnext, -⟩ | ⟨_, _, _, _, hnext, -⟩ := next_cases reader
    · rw [hnext]
      exact next_eq_none_iff.2 hend
    · rw [hnext] at h
      cases h
    · rw [hnext]
      exact next_eq_none_iff.2 (.inl rfl)

theorem next_after_of_isLast {queries : List Query} {answer : Answer}
    (hmem : answer ∈ reader.answers queries) (h : answer.isLast = true) :
    (reader.after queries).next.1 = none := by
  induction queries generalizing reader with
  | nil => cases hmem
  | cons query queries ih =>
    rcases List.mem_cons.1 hmem with rfl | hmem
    · have hend := next_of_isLast h
      rw [after, (after_of_end hend queries).1]
      exact hend
    · exact ih hmem

/-- Each call that hands something out leaves less to read. -/
theorem next_after_of_count {queries : List Query}
    (h : reader.rest.length ≤ queries.count .next) : (reader.after queries).next.1 = none := by
  induction queries generalizing reader with
  | nil =>
    have hrest : reader.rest = [] := List.length_eq_zero_iff.1 (by simpa using h)
    exact next_eq_none_iff.2 (.inr hrest)
  | cons query queries ih =>
    cases query with
    | position => exact ih (by simpa [ask] using h)
    | next =>
      rw [List.count_cons_self] at h
      show (reader.next.2.after queries).next.1 = none
      cases hitem : reader.next.1 with
      | none =>
        have hnext := next_of_end (next_eq_none_iff.1 hitem)
        rw [hnext, (after_of_end hitem queries).1]
        exact hitem
      | some item =>
        cases item with
        | ok instruction =>
          have hlt : reader.next.2.rest.length < reader.rest.length :=
            length_rest_lt (Prod.ext hitem rfl)
          exact ih (by omega)
        | error e =>
          have hend : (reader.ask .next).2.next.1 = none :=
            next_of_isLast (by rw [ask, hitem]; rfl)
          change reader.next.2.next.1 = none at hend
          rw [(after_of_end hend queries).1]
          exact hend

end

/-! ## Where a reader is -/

/-- A reader of `bytes` that has handed out the items. -/
inductive Reached (bytes : Bytes) : List (Except DecodeError Instruction) → Reader → Prop where
  | reading {script : Script} {front rest : Bytes} (hfront : encode script = .ok front)
    (hbytes : bytes = front ++ rest) : Reached bytes (script.map .ok) ⟨rest, front.length, false⟩
  | stopped {script : Script} {front rest : Bytes} {opcode : UInt8} {e : DecodeError} {size : Nat}
    (hfront : encode script = .ok front) (hbytes : bytes = front ++ opcode :: rest)
    (hread : readFirst opcode rest = .error (e, size)) :
    Reached bytes (script.map .ok ++ [.error e])
      ⟨(opcode :: rest).drop size, front.length + size, true⟩

section

variable {bytes : Bytes} {items : List (Except DecodeError Instruction)} {reader : Reader}

theorem reached_ofBytes (bytes : Bytes) : Reached bytes [] (ofBytes bytes) :=
  @Reached.reading bytes [] [] bytes rfl rfl

theorem Reached.next (h : Reached bytes items reader) :
    Reached bytes (items ++ reader.next.1.toList) reader.next.2 := by
  obtain ⟨hnext, -⟩ | ⟨opcode, rest, instruction, size, hnext, hfailed, hrest, hread⟩ |
    ⟨opcode, rest, e, size, hnext, hfailed, hrest, hread⟩ := next_cases reader
  · rw [hnext]
    simpa using h
  · rw [hnext]
    cases h with
    | stopped => cases hfailed
    | @reading script front _ hfront hbytes =>
      subst hrest
      obtain ⟨rfl, operand, following, hoperand, rfl, rfl⟩ := operandBytes_of_readFirst hread
      have hone : encode [instruction] = .ok (instruction.opcode :: (operand ++ [])) :=
        encode_cons_eq_ok_iff.2 ⟨operand, [], hoperand, rfl, rfl⟩
      rw [List.append_nil] at hone
      have hsplit : bytes = front ++ instruction.opcode :: operand ++ following := by
        simp [hbytes]
      have hstep := Reached.reading (encode_append hfront hone) hsplit
      simpa [skip, drop_operand, Nat.add_comm 1] using hstep
  · rw [hnext]
    cases h with
    | stopped => cases hfailed
    | reading hfront hbytes =>
      subst hrest
      exact .stopped hfront hbytes hread

theorem Reached.after (h : Reached bytes items reader) (queries : List Query) :
    Reached bytes (items ++ found (reader.answers queries)) (reader.after queries) := by
  induction queries generalizing items reader with
  | nil => simpa [Reader.answers, Reader.after, found] using h
  | cons query queries ih =>
    rw [Reader.answers, found_cons, ← List.append_assoc]
    cases query with
    | next => exact ih h.next
    | position => exact ih (by simpa [ask, Answer.item?] using h)

theorem Reached.position_le (h : Reached bytes items reader) : reader.position ≤ bytes.length := by
  cases h with
  | reading hfront hbytes => simp [hbytes]
  | stopped hfront hbytes hread =>
    have hsize := (size_of_readFirst_error hread).2
    rw [hbytes, List.length_append]
    show _ + _ ≤ _
    omega

theorem countP_map_ok (script : Script) :
    (script.map (@Except.ok DecodeError Instruction)).countP (fun item => !item.isOk) = 0 := by
  rw [List.countP_eq_zero]
  intro item hitem
  obtain ⟨instruction, -, rfl⟩ := List.mem_map.1 hitem
  simp [Except.isOk, Except.toBool]

theorem Reached.countP_le (h : Reached bytes items reader) :
    items.countP (fun item => !item.isOk) ≤ 1 := by
  cases h with
  | reading hfront hbytes =>
    rw [countP_map_ok]
    omega
  | stopped hfront hbytes hread =>
    rw [List.countP_append, countP_map_ok, List.countP_singleton]
    split <;> omega

theorem Reached.behind (h : Reached bytes items reader) {script : Script}
    (hitems : items = script.map .ok) :
    ∃ front, encode script = .ok front ∧ front <+: bytes ∧ reader.position = front.length := by
  cases h with
  | @reading other front rest hfront hbytes =>
    have hsame : other = script := (List.map_inj_right fun _ _ => Except.ok.inj).1 hitems
    subst hsame
    exact ⟨front, hfront, ⟨rest, hbytes.symm⟩, rfl⟩
  | stopped hfront hbytes hread =>
    have hlast := congrArg List.getLast? hitems
    rw [List.getLast?_concat, List.getLast?_map] at hlast
    cases h : script.getLast? <;> simp [h] at hlast

theorem Reached.position_of_error (h : Reached bytes items reader) {e : DecodeError}
    (he : reader.next.1 = some (.error e)) :
    ∃ opcode rest, bytes.drop reader.position = opcode :: rest ∧
      reader.next.2.position = reader.position + 1 + lengthRead opcode rest := by
  obtain ⟨hnext, -⟩ | ⟨_, _, _, _, hnext, -⟩ |
    ⟨opcode, rest, _, size, hnext, hfailed, hrest, hread⟩ := next_cases reader
  · rw [hnext] at he
    cases he
  · rw [hnext] at he
    cases he
  · rw [hnext]
    cases h with
    | stopped => cases hfailed
    | @reading script front _ hfront hbytes =>
      have hsize := (size_of_readFirst_error hread).1
      refine ⟨opcode, rest, ?_, ?_⟩
      · rw [hbytes, List.drop_left]
        exact hrest
      · show front.length + size = front.length + 1 + lengthRead opcode rest
        omega

theorem mapM_map_ok (script : Script) (items : List (Except DecodeError Instruction)) :
    (script.map Except.ok ++ items).mapM id = (items.mapM id).map (script ++ ·) := by
  induction script with
  | nil => cases h : items.mapM id <;> simp [h, Except.map]
  | cons instruction script ih =>
    rw [List.map_cons, List.cons_append, List.mapM_cons, ih]
    cases items.mapM id <;> rfl

theorem Reached.mapM_eq_decode (h : Reached bytes items reader) (hnext : reader.next.1 = none) :
    items.mapM id = decode bytes := by
  cases h with
  | reading hfront hbytes =>
    rcases next_eq_none_iff.1 hnext with hfailed | hrest
    · cases hfailed
    · subst hrest
      rw [hbytes, decode_append hfront, decode, ← List.append_nil (List.map _ _), mapM_map_ok]
      rfl
  | stopped hfront hbytes hread =>
    rw [hbytes, decode_append hfront, decode_of_readFirst_error hread, mapM_map_ok]
    rfl

end

/-- What can be said of a reader of `bytes` that has given the answers and now stands at
`reader`. -/
structure Keeps (bytes : Bytes) (answers : List Answer) (reader : Reader) : Prop where
  sorted : (answers.filterMap Answer.position? ++ [reader.position]).Pairwise (· ≤ ·)
  position_le : reader.position ≤ bytes.length
  climbs : ∀ queries, reader.position ≤ (reader.after queries).position
  advances : ∀ item, reader.next.1 = some item → reader.position < reader.next.2.position
  /-- As long as nothing but instructions was handed out, they are what lies in front. -/
  behind : ∀ script, found answers = script.map .ok →
    ∃ front, encode script = .ok front ∧ front <+: bytes ∧ reader.position = front.length
  oneError : (found answers).countP (fun item => !item.isOk) ≤ 1
  /-- Once an error or the end was reported nothing changes, whatever is asked. -/
  fused : ∀ answer ∈ answers, answer.isLast = true → ∀ queries, reader.after queries = reader ∧
    ∀ item?, .item item? ∈ reader.answers queries → item? = none
  /-- An error leaves the reader behind the opcode, or behind the length of a blob. -/
  stops : ∀ e, reader.next.1 = some (.error e) →
    ∃ opcode rest, bytes.drop reader.position = opcode :: rest ∧
      reader.next.2.position = reader.position + 1 + lengthRead opcode rest
  /-- Where nothing is left, all that was handed out is the script or its error. -/
  collects : reader.next.1 = none → (found answers).mapM id = decode bytes

/-- A reader starts at zero and keeps to its protocol whatever it is asked, and it comes to an end
after no more calls than there are bytes. -/
theorem reader_keeps_protocol (bytes : Bytes) :
    (ofBytes bytes).position = 0 ∧
    ∀ queries, Keeps bytes ((ofBytes bytes).answers queries) ((ofBytes bytes).after queries) ∧
      (bytes.length ≤ queries.count .next → ((ofBytes bytes).after queries).next.1 = none) := by
  refine ⟨rfl, fun queries => ⟨?_, fun hcount => next_after_of_count hcount⟩⟩
  have hreached := (reached_ofBytes bytes).after queries
  rw [List.nil_append] at hreached
  exact {
    sorted := (List.pairwise_cons.1 (pairwise_positions (ofBytes bytes) queries)).2
    position_le := hreached.position_le
    climbs := position_le_after _
    advances := fun _ hitem => position_lt_next hitem
    behind := fun _ hitems => hreached.behind hitems
    oneError := hreached.countP_le
    fused := fun _ hmem hlast => after_of_end (next_after_of_isLast hmem hlast)
    stops := fun _ hnext => hreached.position_of_error hnext
    collects := hreached.mapM_eq_decode }

/-- A blob that was cut.  Its opcode is at 1 and its first byte at 3, where the reader stays. -/
theorem reader_keeps_protocol_cut_blob :
    let queries : List Query := [.next, .position, .next, .position, .next, .position]
    let reader := (ofBytes [0x10, 0x32, 0x02, 0x30]).after queries
    (ofBytes [0x10, 0x32, 0x02, 0x30]).answers queries =
      [.item (some (.ok .not)), .position 1, .item (some (.error .truncatedOperand)), .position 3,
        .item none, .position 3] ∧
    decode [0x10, 0x32, 0x02, 0x30] = .error .truncatedOperand ∧
    ∀ later, (reader.after later).position = 3 := by
  intro queries reader
  have hkeeps := ((reader_keeps_protocol [0x10, 0x32, 0x02, 0x30]).2 queries).1
  refine ⟨rfl, (hkeeps.collects rfl).symm, fun later => ?_⟩
  have hlast : Answer.item none ∈ (ofBytes [0x10, 0x32, 0x02, 0x30]).answers queries :=
    List.mem_of_getElem? (show _[4]? = some (Answer.item none) from rfl)
  rw [(hkeeps.fused _ hlast rfl later).1]
  rfl

end Reader
end Script
end LockScript
