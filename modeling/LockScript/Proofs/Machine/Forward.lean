import LockScript.Proofs.Machine.Attempts
import LockScript.Proofs.Machine.Records
import LockScript.Proofs.Machine.Relocation

/-!
Scripts that only jump forward.

An instruction leads behind itself or to the position it names.  If every jump names a position
behind it, the positions of a run only go up, so what is executed is the script with some
instructions left out.  That bounds the length of a run by the length of the script, and each kind
of instruction by its number of occurrences.  The bound on the signature checks written in a lock is
then a bound on those that are made when it is unlocked.
-/

namespace LockScript

namespace Script

/-- Every jump goes to a position behind it. -/
def Forward (script : Script) : Prop :=
  ∀ (pc : Nat) (instruction : Instruction) (target : UInt8), script[pc]? = some instruction →
    instruction.target? = some target → pc < target.toNat

def jumpsForward (script : Script) : Bool :=
  script.zipIdx.all fun entry => entry.1.target?.all fun target => entry.2 < target.toNat

theorem jumpsForward_iff {script : Script} : script.jumpsForward = true ↔ script.Forward := by
  simp only [jumpsForward, List.all_eq_true, Option.all_eq_true, decide_eq_true_eq]
  constructor
  · intro h pc instruction target hpc htarget
    exact h (instruction, pc) (List.mem_zipIdx_iff_getElem?.2 hpc) target htarget
  · rintro h ⟨instruction, pc⟩ hmem target htarget
    exact h pc instruction target (List.mem_zipIdx_iff_getElem?.1 hmem) htarget

instance (script : Script) : Decidable script.Forward :=
  decidable_of_iff _ jumpsForward_iff

end Script

namespace Machine

/-! ## Runs -/

section

variable {context : Context} {script : Script} {budget pc : Nat} {stack : Stack}
  (h : script.Forward)

include h

theorem lt_of_perform {target : Nat} {next : Stack} {instruction : Instruction}
    (hpc : script[pc]? = some instruction)
    (e : perform context script.length pc stack instruction = .ok (.next target next)) :
    pc < target := by
  have hleaf := leaf_of_perform e
  cases hleaf with
  | next => omega
  | jump htarget => exact h pc instruction _ hpc htarget

theorem le_pc_of_mem_attemptsFrom {attempt : Attempt}
    (hmem : attempt ∈ attemptsFrom context script budget pc stack) : pc ≤ attempt.pc := by
  refine attemptsFrom_invariant (fun reached _ => pc ≤ reached) ?_ (Nat.le_refl pc) hmem
  intro reached _ _ target _ hpc hperform hle
  have hlt := lt_of_perform h hpc hperform
  omega

theorem pairwise_pc_attemptsFrom :
    ((attemptsFrom context script budget pc stack).map Attempt.pc).Pairwise (· < ·) := by
  fun_induction attemptsFrom context script budget pc stack with
  | case1 | case2 => exact .nil
  | case3 | case4 => exact List.pairwise_singleton _ _
  | case5 budget pc stack instruction hpc target next hperform ih =>
    rw [List.map_cons, List.pairwise_cons]
    refine ⟨?_, ih⟩
    intro position hposition
    obtain ⟨attempt, hattempt, rfl⟩ := List.mem_map.1 hposition
    have hlt := lt_of_perform h hpc hperform
    have hle := le_pc_of_mem_attemptsFrom h hattempt
    show pc < attempt.pc
    omega

/-- What is executed is the rest of the script with some instructions left out. -/
theorem attemptsFrom_sublist :
    ((attemptsFrom context script budget pc stack).map Attempt.instruction).Sublist
      (script.drop pc) := by
  fun_induction attemptsFrom context script budget pc stack with
  | case1 | case2 => exact List.nil_sublist _
  | case3 budget pc stack instruction hpc | case4 budget pc stack instruction hpc =>
    rw [List.drop_eq_getElem?_toList_append, hpc]
    exact (List.nil_sublist _).cons_cons instruction
  | case5 budget pc stack instruction hpc target next hperform ih =>
    have hlt := lt_of_perform h hpc hperform
    rw [List.drop_eq_getElem?_toList_append, hpc]
    exact (ih.trans (List.drop_sublist_drop_left script hlt)).cons_cons instruction

theorem attempts_sublist (context : Context) (stack : Stack) :
    ((attempts context script stack).map Attempt.instruction).Sublist script :=
  attemptsFrom_sublist h

theorem runFrom_ne_stepLimitExceeded (hbudget : script.length ≤ pc + budget) :
    (runFrom context script budget pc stack []).verdict ≠ .rejected .stepLimitExceeded := by
  induction budget generalizing pc stack with
  | zero =>
    have hpc : script[pc]? = none := List.getElem?_eq_none hbudget
    rw [runFrom_end hpc]
    exact conclude_ne stack (by decide)
  | succ budget ih =>
    cases hpc : script[pc]? with
    | none =>
      rw [runFrom_end hpc]
      exact conclude_ne stack (by decide)
    | some instruction =>
      cases hperform : perform context script.length pc stack instruction with
      | error reason =>
        have hoperational := isOperational_of_perform_error hperform
        rw [runFrom_error hpc hperform]
        intro hlimit
        cases hlimit
        cases hoperational
      | ok effect =>
        cases effect with
        | burned =>
          rw [runFrom_burned hpc hperform]
          nofun
        | next target next =>
          -- every step leaves at least one position of the script behind
          have hlt := lt_of_perform h hpc hperform
          rw [runFrom_next hpc hperform, runFrom_done]
          exact ih (by omega)

end

theorem pairwise_pc_steps {script : Script} (h : script.Forward) (context : Context)
    (stack : Stack) : ((run context script stack).steps.map Step.pc).Pairwise (· < ·) := by
  obtain ⟨-, last, -, hplaces, -⟩ := executes_attempts context script stack
  have hattempts : ((attempts context script stack).map Attempt.pc).Pairwise (· < ·) :=
    pairwise_pc_attemptsFrom h
  have hpcs : (attempts context script stack).map Attempt.pc =
      (run context script stack).steps.map Step.pc ++ last.map Prod.fst := by
    have hfst := congrArg (List.map Prod.fst) hplaces
    rwa [List.map_append, List.map_map, List.map_map] at hfst
  rw [hpcs] at hattempts
  exact (List.pairwise_append.1 hattempts).1

/-! ## Locks -/

/-- What unlocking comes to, and the instructions it executes.  Either it is turned down before the
lock runs, and the log tells of no step, or it is the run of the lock on what was brought along. -/
inductive Unlocks (context : Context) (unlocking : Script) (params : List Bytes)
    (lock : Script) : List Attempt → Log.Logged Verdict → Prop where
  | tooManyChecks (hchecks : lock.tooManyChecks = true) :
    Unlocks context unlocking params lock [] (.rejected .tooManySignatureChecks, [])
  | notPushOnly (hpush : unlocking.pushOnly = false) :
    Unlocks context unlocking params lock []
      (.rejected .invalidUnlockScript, [rejection .invalidUnlockScript])
  | overfull {reason : Reason}
    (hload : Stack.empty.pushAll context.limits (witness unlocking params) = .error reason) :
    Unlocks context unlocking params lock [] (.rejected reason, [rejection reason])
  | runs {stack : Stack}
    (hload : Stack.empty.pushAll context.limits (witness unlocking params) = .ok stack) :
    Unlocks context unlocking params lock (attempts context lock stack)
      (run context lock stack).logged

theorem exists_unlocks (context : Context) (unlocking : Script) (params : List Bytes)
    (lock : Script) :
    ∃ executed,
      Unlocks context unlocking params lock executed (unlock context unlocking params lock) := by
  unfold unlock
  split
  · rename_i hchecks
    exact ⟨[], .tooManyChecks hchecks⟩
  split
  · rename_i hpush
    rw [Bool.not_eq_true'] at hpush
    exact ⟨[], .notPushOnly hpush⟩
  cases hload : Stack.empty.pushAll context.limits (witness unlocking params) with
  | error reason => exact ⟨[], .overfull hload⟩
  | ok stack => exact ⟨attempts context lock stack, .runs hload⟩

namespace Unlocks

variable {context : Context} {unlocking lock : Script} {params : List Bytes}
  {executed : List Attempt} {logged : Log.Logged Verdict}

/-- No run ends on this rejection, so nothing was executed before it. -/
theorem eq_nil (hunlocks : Unlocks context unlocking params lock executed logged)
    (hmany : logged.1 = .rejected .tooManySignatureChecks) : executed = [] := by
  cases hunlocks with
  | tooManyChecks | notPushOnly | overfull => rfl
  | runs => exact absurd hmany (run_ne_tooManySignatureChecks context lock _)

theorem sublist (h : lock.Forward)
    (hunlocks : Unlocks context unlocking params lock executed logged) :
    (executed.map Attempt.instruction).Sublist lock := by
  cases hunlocks with
  | tooManyChecks | notPushOnly | overfull => exact List.nil_sublist _
  | runs => exact attempts_sublist h context _

theorem ne_stepLimitExceeded (h : lock.Forward)
    (hunlocks : Unlocks context unlocking params lock executed logged)
    (hsteps : lock.length ≤ context.limits.maxSteps) :
    logged.1 ≠ .rejected .stepLimitExceeded := by
  cases hunlocks with
  | tooManyChecks | notPushOnly => decide
  | overfull hload =>
    have hceiling := Stack.isCeiling_of_pushAll_error hload
    intro hlimit
    cases hlimit
    cases hceiling
  | runs => exact runFrom_ne_stepLimitExceeded h (by omega)

theorem count_chksig_le (h : lock.Forward)
    (hunlocks : Unlocks context unlocking params lock executed
      (unlock context unlocking params lock)) :
    (executed.map Attempt.instruction).count .chksig ≤ lock.signatureChecks ∧
      (executed.map Attempt.instruction).count .chksig ≤ 5 := by
  have hdynamic : (executed.map Attempt.instruction).count .chksig ≤ lock.signatureChecks :=
    (hunlocks.sublist h).count_le .chksig
  refine ⟨hdynamic, ?_⟩
  by_cases hmany : lock.tooManyChecks = true
  · rw [hunlocks.eq_nil (unlock_eq_tooManySignatureChecks_iff.2 hmany)]
    exact Nat.zero_le 5
  · rw [Script.tooManyChecks, Script.maxSignatureChecks, decide_eq_true_iff] at hmany
    omega

end Unlocks

/-- A script without backward jumps has a static cost.  Its steps go up through the script, so it
executes no more instructions than it has and does not run out of as many steps, on its own or as a
lock.  As a lock it executes no more signature checks than are written in it, and at most five. -/
theorem forward_static_cost (context : Context) (script : Script) (h : script.Forward) :
    ((trace context script).1.steps.map Step.pc).Pairwise (· < ·) ∧
    (∀ stack, Executes context script stack (attempts context script stack)) ∧
    (attempts context script .empty).length ≤ script.length ∧
    (script.length ≤ context.limits.maxSteps →
      (trace context script).1.verdict ≠ .rejected .stepLimitExceeded ∧
      ∀ unlocking params,
        (unlock context unlocking params script).1 ≠ .rejected .stepLimitExceeded) ∧
    ∀ unlocking params,
      (∃ executed, Unlocks context unlocking params script executed
        (unlock context unlocking params script)) ∧
      ∀ executed, Unlocks context unlocking params script executed
          (unlock context unlocking params script) →
        (executed.map Attempt.instruction).count .chksig ≤ script.signatureChecks ∧
          (executed.map Attempt.instruction).count .chksig ≤ 5 := by
  refine ⟨pairwise_pc_steps h context .empty, executes_attempts context script, ?_, ?_, ?_⟩
  · have hlength := (attempts_sublist h context .empty).length_le
    rwa [List.length_map] at hlength
  · intro hsteps
    refine ⟨runFrom_ne_stepLimitExceeded h (by omega), ?_⟩
    intro unlocking params
    obtain ⟨_, hunlocks⟩ := exists_unlocks context unlocking params script
    exact hunlocks.ne_stepLimitExceeded h hsteps
  · intro unlocking params
    refine ⟨exists_unlocks context unlocking params script, ?_⟩
    intro executed hunlocks
    exact hunlocks.count_chksig_le h

/-- A jump over an instruction that would burn to a signature check, with a step for every
instruction. -/
theorem forward_static_cost_chksig :
    Script.Forward [.jmp 2, .burn, .chksig] ∧
      (attempts { limits := { maxSteps := 3 } } [.jmp 2, .burn, .chksig] .empty).length ≤ 3 ∧
      (trace { limits := { maxSteps := 3 } } [.jmp 2, .burn, .chksig]).1.verdict ≠
        .rejected .stepLimitExceeded ∧
      ∃ executed,
        Unlocks {} [.push 1] [[2]] [.jmp 2, .burn, .chksig] executed
          (unlock {} [.push 1] [[2]] [.jmp 2, .burn, .chksig]) ∧
        (executed.map Attempt.instruction).count .chksig ≤ 1 := by
  have hforward : Script.Forward [.jmp 2, .burn, .chksig] := by decide
  obtain ⟨-, -, hlength, hverdict, -⟩ :=
    forward_static_cost { limits := { maxSteps := 3 } } [.jmp 2, .burn, .chksig] hforward
  obtain ⟨-, -, -, -, hchecks⟩ := forward_static_cost {} [.jmp 2, .burn, .chksig] hforward
  obtain ⟨⟨executed, hunlocks⟩, hcount⟩ := hchecks [.push 1] [[2]]
  exact ⟨hforward, hlength, (hverdict (by decide)).1, executed, hunlocks,
    (hcount executed hunlocks).1⟩

end Machine
end LockScript
