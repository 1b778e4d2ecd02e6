import LockScript.Proofs.Machine.Locks
import LockScript.Proofs.Machine.Unreached

/-!
What opens a hash lock.

A hash lock computes the digest of what it finds, puts the target beside it and compares the two.
It is read from its end to its start like any lock.  The values on the way all have to fit: the one
that was brought along, and the target together with the digest.  A target that does not fit is
never a digest, so under the standard limits only the size of the preimage is left to ask for.

There is no signature check in a hash lock, and the message is looked at by nothing else.
-/

namespace LockScript
namespace Machine

/-- The lock that asks for a value with a given digest. -/
def hashLock (algorithm : Digest.Algorithm) (target : Bytes) : Script :=
  [.digest algorithm, .pushb target, .eq]

section

variable {context : Context} {items : List Bytes} {length pc target : Nat} {next : Stack}

theorem perform_eq_iff (h : (Stack.ofItems items).Within context.limits) :
    perform context length pc (.ofItems items) .eq = .ok (.next target next) ↔
      ∃ first second rest, items = first :: second :: rest ∧ target = pc + 1 ∧
        next = .ofItems (ofBool (first == second) :: rest) ∧
        (Stack.ofItems (ofBool (first == second) :: rest)).Within context.limits := by
  constructor
  · intro hperform
    match items with
    | [] => cases hperform
    | [_] => cases hperform
    | first :: second :: rest =>
      have hbelow := h.sublist ((List.sublist_cons_self second rest).cons first)
      obtain ⟨popped, hpop, hperform⟩ := Result.bind_eq_ok_iff.1 hperform
      rw [Stack.pop_ofItems_cons] at hpop
      cases hpop
      obtain ⟨popped, hpop, hperform⟩ := Result.bind_eq_ok_iff.1 hperform
      rw [Stack.pop_ofItems_cons] at hpop
      cases hpop
      obtain ⟨pushed, hpush, hnext⟩ := Result.bind_eq_ok_iff.1 hperform
      cases hnext
      exact ⟨first, second, rest, rfl, rfl, (Stack.push_ofItems_eq_ok_iff hbelow).1 hpush⟩
  · rintro ⟨first, second, rest, rfl, rfl, rfl, hwithin⟩
    refine Result.bind_eq_ok_iff.2 ⟨_, Stack.pop_ofItems_cons first _, ?_⟩
    refine Result.bind_eq_ok_iff.2 ⟨_, Stack.pop_ofItems_cons second rest, ?_⟩
    exact Result.bind_eq_ok_iff.2 ⟨_, Table.push_eq_ok hwithin, rfl⟩

end

/-! ## Room on the stack -/

section

variable {limits : Limits} {algorithm : Digest.Algorithm} {target value : Bytes}

theorem within_singleton_iff :
    (Stack.ofItems [value]).Within limits ↔
      value.length ≤ limits.maxMemory ∧ 1 ≤ limits.maxStackDepth ∧
        value.length ≤ limits.maxValueSize := by
  simp [Stack.within_ofItems_iff]

theorem within_target_digest_iff :
    (Stack.ofItems [target, algorithm.digest value]).Within limits ↔
      target.length + algorithm.size ≤ limits.maxMemory ∧ 2 ≤ limits.maxStackDepth ∧
        target.length ≤ limits.maxValueSize ∧ algorithm.size ≤ limits.maxValueSize := by
  simp [Stack.within_ofItems_iff]

theorem size_pos (algorithm : Digest.Algorithm) : 1 ≤ algorithm.size := by
  cases algorithm <;> decide

/-- A truth value takes no more room than a digest. -/
theorem within_ofBool_of_digest {holds : Bool}
    (h : (Stack.ofItems [target, algorithm.digest value]).Within limits) :
    (Stack.ofItems [ofBool holds]).Within limits := by
  obtain ⟨hmemory, hdepth, -, hsize⟩ := within_target_digest_iff.1 h
  have hbool : (ofBool holds).length ≤ 1 := by cases holds <;> decide
  have hpos := size_pos algorithm
  exact within_singleton_iff.2 ⟨by omega, by omega, by omega⟩

end

/-- The value is all that is brought along, and the limits have room for it and for comparing its
digest with the target. -/
structure RevealsAlone (limits : Limits) (algorithm : Digest.Algorithm) (target : Bytes)
    (unlocking : Script) (params : List Bytes) (value : Bytes) : Prop where
  pushOnly : unlocking.pushOnly = true
  witness_eq : witness unlocking params = [value]
  steps : 3 ≤ limits.maxSteps
  loaded : (Stack.ofItems [value]).Within limits
  compared : (Stack.ofItems [target, algorithm.digest value]).Within limits

section

variable {context : Context} {algorithm : Digest.Algorithm} {target : Bytes} {unlocking : Script}
  {params : List Bytes} {verdict : Verdict}

theorem unlock_hashLock_iff (hverdict : verdict.IsOfResult) :
    (unlock context unlocking params (hashLock algorithm target)).1 = verdict ↔
      ∃ value, RevealsAlone context.limits algorithm target unlocking params value ∧
        .ofResult (ofBool (target == algorithm.digest value)) = verdict := by
  rw [unlock_verdict_iff hverdict rfl, run]
  constructor
  · rintro ⟨hpush, hloaded, hrun⟩
    obtain ⟨-, _, _, hdigested, hrun⟩ := (runFrom_verdict_iff hverdict rfl).1 hrun
    obtain ⟨value, rest, hitems, rfl, rfl, hdigest⟩ := (perform_digest_iff hloaded).1 hdigested
    obtain ⟨-, _, _, hpushed, hrun⟩ := (runFrom_verdict_iff hverdict rfl).1 hrun
    obtain ⟨rfl, rfl, hboth⟩ := (perform_pushb_iff hdigest).1 hpushed
    obtain ⟨hsteps, _, _, hcompared, hrun⟩ := (runFrom_verdict_iff hverdict rfl).1 hrun
    obtain ⟨_, _, _, hstack, rfl, rfl, -⟩ := (perform_eq_iff hboth).1 hcompared
    cases hstack
    rw [runFrom_verdict_end rfl, conclude_eq_iff hverdict] at hrun
    -- only one value may be left, so nothing lay below the one that was hashed
    obtain ⟨result, hresult, hofResult⟩ := hrun
    obtain ⟨rfl, rfl⟩ := List.cons.inj hresult
    rw [hitems] at hloaded
    exact ⟨value, ⟨hpush, List.reverse_eq_iff.1 hitems, by omega, hloaded, hboth⟩, hofResult⟩
  · rintro ⟨value, hreveals, hofResult⟩
    have hloaded := hreveals.loaded
    have hboth := hreveals.compared
    have hdigest := hboth.sublist (List.sublist_cons_self target [algorithm.digest value])
    have hsteps := hreveals.steps
    rw [hreveals.witness_eq]
    refine ⟨hreveals.pushOnly, hloaded, ?_⟩
    refine (runFrom_verdict_iff hverdict rfl).2 ⟨by omega, 1, _,
      (perform_digest_iff hloaded).2 ⟨value, [], rfl, rfl, rfl, hdigest⟩, ?_⟩
    refine (runFrom_verdict_iff hverdict rfl).2 ⟨by omega, 2, _,
      (perform_pushb_iff hdigest).2 ⟨rfl, rfl, hboth⟩, ?_⟩
    refine (runFrom_verdict_iff hverdict rfl).2 ⟨by omega, 3, _,
      (perform_eq_iff hboth).2 ⟨target, _, [], rfl, rfl, rfl, within_ofBool_of_digest hboth⟩, ?_⟩
    rw [runFrom_verdict_end rfl]
    exact (conclude_eq_iff hverdict).2 ⟨_, rfl, hofResult⟩

theorem revealsAlone_standard_iff {value : Bytes} :
    RevealsAlone .standard algorithm target unlocking params value ↔
      unlocking.pushOnly = true ∧ witness unlocking params = [value] ∧ value.length ≤ 512 ∧
        target.length ≤ 512 := by
  have hsize : algorithm.size ≤ 32 := by cases algorithm <;> decide
  constructor
  · rintro ⟨hpush, hwitness, -, hloaded, hcompared⟩
    exact ⟨hpush, hwitness, (within_singleton_iff.1 hloaded).2.2,
      (within_target_digest_iff.1 hcompared).2.2.1⟩
  · rintro ⟨hpush, hwitness, hvalue, htarget⟩
    refine ⟨hpush, hwitness, by decide, within_singleton_iff.2 ?_, within_target_digest_iff.2 ?_⟩
    · show value.length ≤ 1024 ∧ 1 ≤ 256 ∧ value.length ≤ 512
      omega
    · show target.length + algorithm.size ≤ 1024 ∧ 2 ≤ 256 ∧ target.length ≤ 512 ∧
        algorithm.size ≤ 512
      omega

theorem length_le_of_digest_eq {value : Bytes} (h : algorithm.digest value = target) :
    target.length ≤ 512 := by
  rw [← h, algorithm.length_digest]
  cases algorithm <;> decide

end

/-! ## The message -/

section

variable (message message' : Key.Message) (limits : Limits) {script : Script}

theorem unlock_of_no_checks (h : .chksig ∉ script) (unlocking : Script) (params : List Bytes) :
    unlock ⟨message', limits⟩ unlocking params script =
      unlock ⟨message, limits⟩ unlocking params script := by
  refine unlock_of_message ?_ unlocking params
  intro instruction hmem length pc stack
  apply perform_of_ne_chksig
  intro hcheck
  rw [hcheck] at hmem
  exact h hmem

end

/-- A hash lock opens for exactly a lone value with the digest it asks for, whatever the message.  A
lone value with another digest makes the result false. -/
theorem hashLock_opens_iff (algorithm : Digest.Algorithm) (target : Bytes) (message : Key.Message)
    (unlocking : Script) (params : List Bytes) :
    ((unlock { message } unlocking params (hashLock algorithm target)).1 = .accepted ↔
      unlocking.pushOnly = true ∧
        ∃ value, witness unlocking params = [value] ∧ value.length ≤ 512 ∧
          algorithm.digest value = target) ∧
    ((unlock { message } unlocking params (hashLock algorithm target)).1 = .rejected .falseResult ↔
      unlocking.pushOnly = true ∧ target.length ≤ 512 ∧
        ∃ value, witness unlocking params = [value] ∧ value.length ≤ 512 ∧
          algorithm.digest value ≠ target) ∧
    ∀ other, unlock { message := other } unlocking params (hashLock algorithm target) =
      unlock { message } unlocking params (hashLock algorithm target) := by
  refine ⟨?_, ?_, fun other => ?_⟩
  · rw [unlock_hashLock_iff (.inl rfl)]
    simp only [revealsAlone_standard_iff, ofResult_ofBool_eq_accepted_iff, beq_iff_eq]
    constructor
    · rintro ⟨value, ⟨hpush, hwitness, hvalue, -⟩, hdigest⟩
      exact ⟨hpush, value, hwitness, hvalue, hdigest.symm⟩
    · rintro ⟨hpush, value, hwitness, hvalue, hdigest⟩
      exact ⟨value, ⟨hpush, hwitness, hvalue, length_le_of_digest_eq hdigest⟩, hdigest.symm⟩
  · rw [unlock_hashLock_iff (.inr rfl)]
    simp only [revealsAlone_standard_iff, ofResult_ofBool_eq_falseResult_iff, beq_eq_false_iff_ne]
    constructor
    · rintro ⟨value, ⟨hpush, hwitness, hvalue, htarget⟩, hdigest⟩
      exact ⟨hpush, htarget, value, hwitness, hvalue, hdigest.symm⟩
    · rintro ⟨hpush, htarget, value, hwitness, hvalue, hdigest⟩
      exact ⟨value, ⟨hpush, hwitness, hvalue, htarget⟩, hdigest.symm⟩
  · apply unlock_of_no_checks
    simp [hashLock]

end Machine
end LockScript
