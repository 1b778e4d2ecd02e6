import LockScript.Proofs.Basic
import LockScript.Proofs.Machine.Budget
import LockScript.Proofs.Machine.Table
import LockScript.Proofs.Machine.Unlock

/-!
What opens a lock, read from its end to its start.

Two verdicts speak of the result of a script: it is accepted or it is false.  No instruction and no
check in front gives either of them, so they say that the script went through to its end with a
single value.  For each instruction that a lock is made of there is then an equivalence: what the
stack and the limits have to be before it for the verdict to come out in the end.  A lock is read by
using one after the other.
-/

namespace LockScript
namespace Machine

/-- The verdict on a script that has gone through and left one value. -/
def Verdict.ofResult (value : Bytes) : Verdict :=
  if value = [] then .rejected .falseResult else .accepted

/-- The verdict says how the result of a script turned out. -/
def Verdict.IsOfResult (verdict : Verdict) : Prop :=
  verdict = .accepted ∨ verdict = .rejected .falseResult

section

variable {context : Context} {script unlocking lock : Script} {params items : List Bytes}
  {budget pc : Nat} {stack : Stack} {done : List Step} {verdict : Verdict}

theorem rejected_ne_of_isOperational {reason : Reason} (hverdict : verdict.IsOfResult)
    (h : reason.isOperational = true) : .rejected reason ≠ verdict := by
  rcases hverdict with rfl | rfl
  · intro heq
    cases heq
  · intro heq
    cases heq
    cases h

theorem conclude_eq_iff (hverdict : verdict.IsOfResult) :
    conclude (.ofItems items) = verdict ↔ ∃ value, items = [value] ∧ .ofResult value = verdict := by
  match items with
  | [] => rcases hverdict with rfl | rfl <;> simp [conclude]
  | [value] => cases value <;> simp [conclude, isTrue, Verdict.ofResult]
  | _ :: _ :: _ => rcases hverdict with rfl | rfl <;> simp [conclude]

/-! ## One instruction -/

theorem runFrom_verdict_end (hpc : script[pc]? = none) :
    (runFrom context script budget pc stack done).verdict = conclude stack := by
  rw [runFrom_end hpc]

theorem runFrom_verdict_iff {instruction : Instruction} (hverdict : verdict.IsOfResult)
    (hpc : script[pc]? = some instruction) :
    (runFrom context script budget pc stack done).verdict = verdict ↔
      1 ≤ budget ∧ ∃ target next,
        perform context script.length pc stack instruction = .ok (.next target next) ∧
        (runFrom context script (budget - 1) target next []).verdict = verdict := by
  cases budget with
  | zero =>
    rw [runFrom_exhausted hpc]
    rcases hverdict with rfl | rfl <;> simp
  | succ budget =>
    cases hperform : perform context script.length pc stack instruction with
    | error reason =>
      have hne := rejected_ne_of_isOperational hverdict (isOperational_of_perform_error hperform)
      rw [runFrom_error hpc hperform]
      simp [hne]
    | ok effect =>
      cases effect with
      | burned =>
        rw [runFrom_burned hpc hperform]
        rcases hverdict with rfl | rfl <;> simp
      | next target next =>
        rw [runFrom_next hpc hperform, runFrom_done]
        constructor
        · intro hrest
          exact ⟨Nat.le_add_left 1 budget, target, next, rfl, hrest⟩
        · rintro ⟨-, _, _, hnext, hrest⟩
          cases hnext
          exact hrest

theorem perform_pushb_iff {blob : Bytes} {length target : Nat} {next : Stack}
    (h : (Stack.ofItems items).Within context.limits) :
    perform context length pc (.ofItems items) (.pushb blob) = .ok (.next target next) ↔
      target = pc + 1 ∧ next = .ofItems (blob :: items) ∧
        (Stack.ofItems (blob :: items)).Within context.limits := by
  constructor
  · intro hperform
    obtain ⟨pushed, hpush, hnext⟩ := Result.bind_eq_ok_iff.1 hperform
    cases hnext
    exact ⟨rfl, (Stack.push_ofItems_eq_ok_iff h).1 hpush⟩
  · rintro ⟨rfl, rfl, hwithin⟩
    exact Result.bind_eq_ok_iff.2 ⟨_, Table.push_eq_ok hwithin, rfl⟩

/-- A truth value takes less room than a key and a signature. -/
theorem within_ofBool {key : Key.PublicKey} {signature : Octets 65} {holds : Bool}
    (h : (Stack.ofItems (key.bytes :: signature.bytes :: items)).Within context.limits) :
    (Stack.ofItems (ofBool holds :: items)).Within context.limits := by
  obtain ⟨hmemory, hdepth, hsize⟩ := Stack.within_ofItems_iff.1 h
  have hbool : (ofBool holds).length ≤ 1 := by cases holds <;> decide
  have hkey : key.bytes.length ≤ context.limits.maxValueSize := hsize _ (by simp)
  have hlength := key.length_bytes
  simp only [weight_cons, List.length_cons] at hmemory hdepth
  refine Stack.within_ofItems_iff.2 ⟨?_, ?_, fun value hvalue => ?_⟩
  · rw [weight_cons]
    omega
  · rw [List.length_cons]
    omega
  · rcases List.mem_cons.1 hvalue with rfl | hvalue
    · omega
    · exact hsize value (by simp [hvalue])

theorem popSized_iff {size : Nat} {octets : Octets size} {below : Stack} :
    (Stack.ofItems items).popSized size = .ok (octets, below) ↔
      ∃ rest, items = octets.bytes :: rest ∧ below = .ofItems rest := by
  constructor
  · intro hpop
    match items with
    | [] => cases hpop
    | value :: rest =>
      by_cases hsize : value.length = size
      · rw [Table.popSized_ofItems_of_eq hsize] at hpop
        cases hpop
        exact ⟨rest, rfl, rfl⟩
      · rw [Table.popSized_ofItems_of_ne hsize] at hpop
        cases hpop
  · rintro ⟨rest, rfl, rfl⟩
    exact Table.popSized_ofItems_of_eq octets.length_bytes rest

theorem perform_chksig_iff {length target : Nat} {next : Stack}
    (h : (Stack.ofItems items).Within context.limits) :
    perform context length pc (.ofItems items) .chksig = .ok (.next target next) ↔
      ∃ (key : Key.PublicKey) (signature : Octets 65) (rest : List Bytes),
        items = key.bytes :: signature.bytes :: rest ∧ target = pc + 1 ∧
        next = .ofItems (ofBool (signatureHolds key signature context.message) :: rest) := by
  constructor
  · intro hperform
    obtain ⟨⟨key, below⟩, hkey, hperform⟩ := Result.bind_eq_ok_iff.1 hperform
    obtain ⟨under, rfl, rfl⟩ := popSized_iff.1 hkey
    obtain ⟨⟨signature, below⟩, hsignature, hperform⟩ := Result.bind_eq_ok_iff.1 hperform
    obtain ⟨rest, rfl, rfl⟩ := popSized_iff.1 hsignature
    obtain ⟨pushed, hpush, hnext⟩ := Result.bind_eq_ok_iff.1 hperform
    rw [Table.push_eq_ok (within_ofBool h)] at hpush
    cases hpush
    cases hnext
    exact ⟨key, signature, rest, rfl, rfl, rfl⟩
  · rintro ⟨key, signature, rest, rfl, rfl, rfl⟩
    refine Result.bind_eq_ok_iff.2 ⟨_, popSized_iff.2 ⟨_, rfl, rfl⟩, ?_⟩
    refine Result.bind_eq_ok_iff.2 ⟨_, popSized_iff.2 ⟨_, rfl, rfl⟩, ?_⟩
    exact Result.bind_eq_ok_iff.2 ⟨_, Table.push_eq_ok (within_ofBool h), rfl⟩

theorem perform_digest_iff {algorithm : Digest.Algorithm} {length target : Nat} {next : Stack}
    (h : (Stack.ofItems items).Within context.limits) :
    perform context length pc (.ofItems items) (.digest algorithm) = .ok (.next target next) ↔
      ∃ value rest, items = value :: rest ∧ target = pc + 1 ∧
        next = .ofItems (algorithm.digest value :: rest) ∧
        (Stack.ofItems (algorithm.digest value :: rest)).Within context.limits := by
  constructor
  · intro hperform
    match items with
    | [] => cases hperform
    | value :: rest =>
      have hbelow := h.sublist (List.sublist_cons_self value rest)
      obtain ⟨popped, hpop, hperform⟩ := Result.bind_eq_ok_iff.1 hperform
      rw [Stack.pop_ofItems_cons] at hpop
      cases hpop
      obtain ⟨pushed, hpush, hnext⟩ := Result.bind_eq_ok_iff.1 hperform
      cases hnext
      exact ⟨value, rest, rfl, rfl, (Stack.push_ofItems_eq_ok_iff hbelow).1 hpush⟩
  · rintro ⟨value, rest, rfl, rfl, rfl, hwithin⟩
    refine Result.bind_eq_ok_iff.2 ⟨_, Stack.pop_ofItems_cons value rest, ?_⟩
    exact Result.bind_eq_ok_iff.2 ⟨_, Table.push_eq_ok hwithin, rfl⟩

/-! ## What comes before the lock -/

theorem unlock_verdict_iff (hverdict : verdict.IsOfResult) (hchecks : lock.tooManyChecks = false) :
    (unlock context unlocking params lock).1 = verdict ↔
      unlocking.pushOnly = true ∧
        (Stack.ofItems (witness unlocking params).reverse).Within context.limits ∧
        (run context lock (.ofItems (witness unlocking params).reverse)).verdict = verdict := by
  by_cases hpush : unlocking.pushOnly = true
  · by_cases hwithin : (Stack.ofItems (witness unlocking params).reverse).Within context.limits
    · rw [unlock_eq_run hchecks hpush hwithin]
      simp [hpush, hwithin, Run.logged]
    · obtain ⟨reason, hceiling, hunlock⟩ := unlock_of_not_within hchecks hpush hwithin
      have hoperational : reason.isOperational = true := by simp [Reason.isOperational, hceiling]
      rw [hunlock]
      simp [hwithin, rejected_ne_of_isOperational hverdict hoperational]
  · have hunlock : (unlock context unlocking params lock).1 = .rejected .invalidUnlockScript := by
      simp [unlock, hchecks, hpush, Verdict.logged]
    rw [hunlock]
    rcases hverdict with rfl | rfl <;> simp [hpush]

end

/-! ## Pay to public key -/

/-- The lock that asks for a signature by a key. -/
def payToKey (key : Key.PublicKey) : Script := [.pushb key.bytes, .chksig]

/-- The signature is all that is brought along, and the limits have room for the check. -/
structure PresentsAlone (limits : Limits) (unlocking : Script) (params : List Bytes)
    (signature : Octets 65) : Prop where
  pushOnly : unlocking.pushOnly = true
  witness_eq : witness unlocking params = [signature.bytes]
  steps : 2 ≤ limits.maxSteps
  depth : 2 ≤ limits.maxStackDepth
  size : 65 ≤ limits.maxValueSize
  memory : 129 ≤ limits.maxMemory

theorem within_key_signature_iff {limits : Limits} {key : Key.PublicKey} {signature : Octets 65} :
    (Stack.ofItems [key.bytes, signature.bytes]).Within limits ↔
      129 ≤ limits.maxMemory ∧ 2 ≤ limits.maxStackDepth ∧ 65 ≤ limits.maxValueSize := by
  have hkey := key.length_bytes
  have hsignature := signature.length_bytes
  rw [Stack.within_ofItems_iff]
  simp only [weight_cons, weight_nil, hkey, hsignature, List.length_cons, List.length_nil,
    List.mem_cons, List.not_mem_nil, or_false, forall_eq_or_imp, forall_eq]
  omega

section

variable {context : Context} {unlocking : Script} {params : List Bytes} {key : Key.PublicKey}
  {verdict : Verdict}

theorem unlock_payToKey_iff (hverdict : verdict.IsOfResult) :
    (unlock context unlocking params (payToKey key)).1 = verdict ↔
      ∃ signature, PresentsAlone context.limits unlocking params signature ∧
        .ofResult (ofBool (signatureHolds key signature context.message)) = verdict := by
  rw [unlock_verdict_iff hverdict rfl, run]
  constructor
  · rintro ⟨hpush, hloaded, hrun⟩
    obtain ⟨-, _, _, hpushed, hrun⟩ := (runFrom_verdict_iff hverdict rfl).1 hrun
    obtain ⟨rfl, rfl, hwithin⟩ := (perform_pushb_iff hloaded).1 hpushed
    obtain ⟨hsteps, _, _, hchecked, hrun⟩ := (runFrom_verdict_iff hverdict rfl).1 hrun
    obtain ⟨found, signature, rest, hitems, rfl, rfl⟩ := (perform_chksig_iff hwithin).1 hchecked
    rw [runFrom_verdict_end rfl, conclude_eq_iff hverdict] at hrun
    -- only one value may be left, so nothing lay below the signature
    obtain ⟨value, hvalue, hresult⟩ := hrun
    obtain ⟨rfl, rfl⟩ := List.cons.inj hvalue
    obtain ⟨hfound, hwitness⟩ := List.cons.inj hitems
    obtain rfl := Octets.ext_bytes hfound
    rw [hwitness] at hwithin
    obtain ⟨hmemory, hdepth, hsize⟩ := within_key_signature_iff.1 hwithin
    exact ⟨signature, ⟨hpush, List.reverse_eq_iff.1 hwitness, by omega, hdepth, hsize, hmemory⟩,
      hresult⟩
  · rintro ⟨signature, hpresents, hresult⟩
    have hwithin : (Stack.ofItems [key.bytes, signature.bytes]).Within context.limits :=
      within_key_signature_iff.2 ⟨hpresents.memory, hpresents.depth, hpresents.size⟩
    have hloaded := hwithin.sublist (List.sublist_cons_self key.bytes [signature.bytes])
    have hsteps := hpresents.steps
    rw [hpresents.witness_eq]
    refine ⟨hpresents.pushOnly, hloaded, ?_⟩
    refine (runFrom_verdict_iff hverdict rfl).2 ⟨by omega, 1, _,
      (perform_pushb_iff hloaded).2 ⟨rfl, rfl, hwithin⟩, ?_⟩
    refine (runFrom_verdict_iff hverdict rfl).2 ⟨by omega, 2, _,
      (perform_chksig_iff hwithin).2 ⟨key, signature, [], rfl, rfl, rfl⟩, ?_⟩
    rw [runFrom_verdict_end rfl]
    exact (conclude_eq_iff hverdict).2 ⟨_, rfl, hresult⟩

end

theorem signatureHolds_eq_true_iff {key : Key.PublicKey} {signature : Octets 65}
    {message : Key.Message} :
    signatureHolds key signature message = true ↔
      Key.verify key (.ofOctets signature) message = .ok true := by
  unfold signatureHolds
  cases Key.verify key (.ofOctets signature) message <;> simp

theorem ofResult_ofBool_eq_accepted_iff {holds : Bool} :
    Verdict.ofResult (ofBool holds) = .accepted ↔ holds = true := by
  cases holds <;> decide

theorem ofResult_ofBool_eq_falseResult_iff {holds : Bool} :
    Verdict.ofResult (ofBool holds) = .rejected .falseResult ↔ holds = false := by
  cases holds <;> decide

/-- The lock on a key opens for exactly a lone signature that holds.  A lone string of the size of a
signature that does not hold, be it malformed or the key off the curve, makes the result false. -/
theorem payToKey_opens_iff (context : Context) (unlocking : Script) (params : List Bytes)
    (key : Key.PublicKey) :
    ((unlock context unlocking params (payToKey key)).1 = .accepted ↔
      ∃ signature, PresentsAlone context.limits unlocking params signature ∧
        Key.verify key (.ofOctets signature) context.message = .ok true) ∧
    ((unlock context unlocking params (payToKey key)).1 = .rejected .falseResult ↔
      ∃ signature, PresentsAlone context.limits unlocking params signature ∧
        Key.verify key (.ofOctets signature) context.message ≠ .ok true) := by
  constructor
  · rw [unlock_payToKey_iff (.inl rfl)]
    simp only [ofResult_ofBool_eq_accepted_iff, signatureHolds_eq_true_iff]
  · rw [unlock_payToKey_iff (.inr rfl)]
    simp only [ofResult_ofBool_eq_falseResult_iff, ← Bool.not_eq_true, signatureHolds_eq_true_iff,
      ne_eq]

/-- The first coordinate of the generator, taken twice, is a signature of the zero message for the
generator's own key and none for a key off the curve. -/
theorem payToKey_opens_generator :
    ∃ (signature : Octets 65) (key : Key.PublicKey),
      Key.Ecdsa.publicKey? Curve.generator = some key ∧
      (unlock {} [] [signature.bytes] (payToKey key)).1 = .accepted ∧
      (unlock {} [] [signature.bytes] (payToKey (Octets.zero 64))).1 = .rejected .falseResult := by
  let x := Octets.ofNat 32 0x79be667ef9dcbbac55a06295ce870b07029bfcdb2dce28d959f2815b16f81798
  let signature : Octets 65 := ⟨x.bytes ++ x.bytes ++ [0], by simp [x.length_bytes]⟩
  have hpresents : PresentsAlone {} [] [signature.bytes] signature :=
    ⟨rfl, rfl, by decide, by decide, by decide, by decide⟩
  refine ⟨signature, _, rfl, (payToKey_opens_iff {} [] [signature.bytes] _).1.2 ?_,
    (payToKey_opens_iff {} [] [signature.bytes] _).2.2 ?_⟩
  · exact ⟨signature, hpresents, by decide +kernel⟩
  · exact ⟨signature, hpresents, by decide +kernel⟩

end Machine
end LockScript
