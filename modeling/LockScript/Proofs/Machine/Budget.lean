import LockScript.Machine.Execute
import LockScript.Proofs.Machine.Padding

/-!
How long a run takes.

`Ends` is the loop as a relation.  It counts the instructions executed so far and stops only where
the loop does: at the end of the script, before an instruction that there is no step left for, and
in an instruction that fails or burns.  No bound on its depth is part of it.  Every run is derived
in it in exactly one way, so the loop always comes to an end, and the number of instructions it
executed can be read off the derivation: those completed, and one more if it ended inside one.
-/

namespace LockScript
namespace Machine

/-! ## The reasons an instruction fails for -/

/-- The reasons for which an instruction fails: a value is missing, a ceiling is met, or the
instruction has a fault of its own. -/
def Reason.isOperational (reason : Reason) : Bool :=
  reason.isMissing || reason.isCeiling || reason.isFault

theorem Operation.isOperational_of_apply_error {limits : Limits} {operation : Operation}
    {stack : Stack} {reason : Reason} (e : operation.apply limits stack = .error reason) :
    reason.isOperational = true := by
  cases operation with
  | push value =>
    rcases Result.bind_eq_error_iff.1 e with hpush | ⟨pushed, -, hdone⟩
    · simp [Reason.isOperational, Stack.isCeiling_of_push_error hpush]
    · cases hdone
  | pop =>
    obtain ⟨items, memory, depth, hlength⟩ := stack
    cases items with
    | nil =>
      cases e
      rfl
    | cons value items => cases e
  | get index =>
    rcases Result.bind_eq_error_iff.1 e with hget | ⟨value, -, hdone⟩
    · unfold Stack.get at hget
      split at hget
      · cases hget
      · cases hget
        rfl
    · cases hdone
  | remove index =>
    rcases Result.bind_eq_error_iff.1 e with hremove | ⟨value, -, hdone⟩
    · unfold Stack.remove at hremove
      split at hremove
      · cases hremove
      · cases hremove
        rfl
    · cases hdone

theorem Plan.isOperational_of_exec_error {α : Type} {limits : Limits} {plan : Plan α}
    {stack : Stack} {reason : Reason} (h : plan.FailsOnFault)
    (e : plan.exec limits stack = .error reason) : reason.isOperational = true := by
  induction plan generalizing stack with
  | done result => cases e
  | fail fault =>
    cases e
    have hfault : reason.isFault = true := h
    simp [Reason.isOperational, hfault]
  | step operation next ih =>
    rw [exec] at e
    split at e
    · rename_i failed happly
      cases e
      exact operation.isOperational_of_apply_error happly
    · rename_i value reached _
      exact ih value (h value) e

theorem isOperational_of_perform_error {context : Context} {length pc : Nat} {stack : Stack}
    {instruction : Instruction} {reason : Reason}
    (e : perform context length pc stack instruction = .error reason) :
    reason.isOperational = true := by
  rw [Plan.perform_eq_exec, Result.map_eq_error_iff] at e
  exact Plan.isOperational_of_exec_error (Plan.failsOnFault_ofInstruction _ _ _ _) e

/-! ## The loop as a relation -/

/-- Where the loop was left. -/
inductive Ending where
  /-- At the end of the script, with a stack. -/
  | finished (stack : Stack)
  /-- Before an instruction, with no step left for it. -/
  | outOfSteps
  /-- In an instruction that failed. -/
  | failed (reason : Reason)
  /-- In an instruction that burned. -/
  | burned

namespace Ending

def verdict : Ending → Verdict
  | finished stack => conclude stack
  | outOfSteps => .rejected .stepLimitExceeded
  | failed reason => .rejected reason
  | burned => .burned

/-- The number of instructions that were executed and not completed. -/
def unfinished : Ending → Nat
  | finished _ | outOfSteps => 0
  | failed _ | burned => 1

end Ending

/-- From position `pc` with a stack, after `used` instructions, the loop completes some steps and
is left. -/
inductive Ends (context : Context) (script : Script) :
    (used pc : Nat) → Stack → List Step → Ending → Prop where
  | finish {used pc : Nat} {stack : Stack} (hpc : script[pc]? = none) :
    Ends context script used pc stack [] (.finished stack)
  | limit {used pc : Nat} {stack : Stack} {instruction : Instruction}
    (hpc : script[pc]? = some instruction) (hused : context.limits.maxSteps ≤ used) :
    Ends context script used pc stack [] .outOfSteps
  | fail {used pc : Nat} {stack : Stack} {instruction : Instruction} {reason : Reason}
    (hpc : script[pc]? = some instruction) (hused : used < context.limits.maxSteps)
    (hperform : perform context script.length pc stack instruction = .error reason) :
    Ends context script used pc stack [] (.failed reason)
  | burn {used pc : Nat} {stack : Stack} {instruction : Instruction}
    (hpc : script[pc]? = some instruction) (hused : used < context.limits.maxSteps)
    (hperform : perform context script.length pc stack instruction = .ok .burned) :
    Ends context script used pc stack [] .burned
  | go {used pc target : Nat} {stack next : Stack} {instruction : Instruction}
    {steps : List Step} {ending : Ending}
    (hpc : script[pc]? = some instruction) (hused : used < context.limits.maxSteps)
    (hperform : perform context script.length pc stack instruction = .ok (.next target next))
    (rest : Ends context script (used + 1) target next steps ending) :
    Ends context script used pc stack (⟨pc, instruction, next⟩ :: steps) ending

section

variable {context : Context} {script : Script} {used pc : Nat} {stack : Stack}
  {steps : List Step} {ending : Ending}

/-! ## A run is what the loop does -/

theorem exists_ends (budget : Nat) (h : used + budget = context.limits.maxSteps) :
    ∃ ending,
      Ends context script used pc stack (runFrom context script budget pc stack []).steps
        ending := by
  -- what is left of the budget and what is used always make up the limit
  induction budget generalizing used pc stack with
  | zero =>
    cases hpc : script[pc]? with
    | none =>
      rw [runFrom_end hpc]
      exact ⟨_, .finish hpc⟩
    | some instruction =>
      rw [runFrom_exhausted hpc]
      exact ⟨_, .limit hpc (by omega)⟩
  | succ budget ih =>
    cases hpc : script[pc]? with
    | none =>
      rw [runFrom_end hpc]
      exact ⟨_, .finish hpc⟩
    | some instruction =>
      have hused : used < context.limits.maxSteps := by omega
      cases hperform : perform context script.length pc stack instruction with
      | error reason =>
        rw [runFrom_error hpc hperform]
        exact ⟨_, .fail hpc hused hperform⟩
      | ok effect =>
        cases effect with
        | burned =>
          rw [runFrom_burned hpc hperform]
          exact ⟨_, .burn hpc hused hperform⟩
        | next target next =>
          obtain ⟨ending, hends⟩ := @ih (used + 1) target next (by omega)
          rw [runFrom_next hpc hperform, runFrom_done]
          exact ⟨ending, .go hpc hused hperform hends⟩

theorem Ends.runFrom_eq {budget : Nat} (h : Ends context script used pc stack steps ending)
    (hbudget : used + budget = context.limits.maxSteps) :
    runFrom context script budget pc stack [] = ⟨steps, ending.verdict⟩ := by
  induction h generalizing budget with
  | finish hpc => exact runFrom_end hpc
  | limit hpc hused =>
    obtain rfl : budget = 0 := by omega
    exact runFrom_exhausted hpc
  | fail hpc hused hperform =>
    obtain ⟨budget, rfl⟩ : ∃ left, budget = left + 1 := ⟨budget - 1, by omega⟩
    exact runFrom_error hpc hperform
  | burn hpc hused hperform =>
    obtain ⟨budget, rfl⟩ : ∃ left, budget = left + 1 := ⟨budget - 1, by omega⟩
    exact runFrom_burned hpc hperform
  | go hpc hused hperform rest ih =>
    obtain ⟨budget, rfl⟩ : ∃ left, budget = left + 1 := ⟨budget - 1, by omega⟩
    rw [runFrom_next hpc hperform, runFrom_done, ih (by omega)]
    rfl

theorem exists_ends_run (context : Context) (script : Script) (stack : Stack) :
    ∃ ending, Ends context script 0 0 stack (run context script stack).steps ending :=
  exists_ends context.limits.maxSteps (Nat.zero_add _)

theorem Ends.run_eq (h : Ends context script 0 0 stack steps ending) :
    run context script stack = ⟨steps, ending.verdict⟩ :=
  h.runFrom_eq (Nat.zero_add _)

/-! ## Counting -/

theorem Ends.executed_le (h : Ends context script used pc stack steps ending)
    (hused : used ≤ context.limits.maxSteps) :
    used + (steps.length + ending.unfinished) ≤ context.limits.maxSteps := by
  induction h with
  | finish | limit => exact hused
  | fail _ hlt | burn _ hlt => exact hlt
  | go _ hlt _ _ ih =>
    have hrest := ih hlt
    rw [List.length_cons]
    omega

theorem Ends.length_of_outOfSteps (h : Ends context script used pc stack steps ending)
    (hused : used ≤ context.limits.maxSteps) (hending : ending = .outOfSteps) :
    used + steps.length = context.limits.maxSteps := by
  induction h with
  | finish | fail | burn => cases hending
  | limit _ hge => exact Nat.le_antisymm hused hge
  | go _ hlt _ _ ih =>
    have hrest := ih hlt hending
    rw [List.length_cons]
    omega

theorem Ends.isOperational {reason : Reason}
    (h : Ends context script used pc stack steps ending) (hending : ending = .failed reason) :
    reason.isOperational = true := by
  induction h with
  | finish | limit | burn => cases hending
  | fail _ _ hperform =>
    cases hending
    exact isOperational_of_perform_error hperform
  | go _ _ _ _ ih => exact ih hending

/-! ## The verdict at the end -/

theorem conclude_mem (stack : Stack) :
    conclude stack ∈ [.accepted, .rejected .falseResult, .rejected .uncleanStack,
      .rejected .stackUnderflow] := by
  unfold conclude
  split
  · simp
  · split <;> simp
  · simp

/-- A rejection that comes from no instruction and from no stack at the end comes from the limit. -/
theorem Ends.eq_outOfSteps {reason : Reason} (h : Ends context script used pc stack steps ending)
    (hverdict : ending.verdict = .rejected reason) (hoperational : reason.isOperational = false)
    (hfinal : ∀ last, conclude last ≠ .rejected reason) : ending = .outOfSteps := by
  cases ending with
  | finished last => exact absurd hverdict (hfinal last)
  | outOfSteps => rfl
  | failed failure =>
    have hfailure := h.isOperational rfl
    cases hverdict
    rw [hoperational] at hfailure
    cases hfailure
  | burned => cases hverdict

theorem conclude_ne {verdict : Verdict} (stack : Stack)
    (h : verdict ∉ [.accepted, .rejected .falseResult, .rejected .uncleanStack,
      .rejected .stackUnderflow]) : conclude stack ≠ verdict := by
  intro hconclude
  exact h (hconclude ▸ conclude_mem stack)

theorem Ends.finished_of_full (h : Ends context script 0 pc stack steps ending)
    (hfull : steps.length = context.limits.maxSteps)
    (hverdict : ending.verdict ≠ .rejected .stepLimitExceeded) :
    ∃ last, ending = .finished last := by
  have hle := h.executed_le (Nat.zero_le _)
  cases ending with
  | finished last => exact ⟨last, rfl⟩
  | outOfSteps => exact absurd rfl hverdict
  | failed reason =>
    rw [Ending.unfinished] at hle
    omega
  | burned =>
    rw [Ending.unfinished] at hle
    omega

end

/-- Every run comes to an end and executes no more instructions than it has steps.  It has
completed as many as it has steps if it ran out of them, and otherwise only if it came to the end of
the script with the last one: an instruction that fails or burns uses a step and is not among
those completed. -/
theorem trace_within_budget (context : Context) (script : Script) :
    (∀ stack,
      (∃ ending, Ends context script 0 0 stack (run context script stack).steps ending) ∧
      ∀ steps ending, Ends context script 0 0 stack steps ending →
        run context script stack = ⟨steps, ending.verdict⟩ ∧
          steps.length + ending.unfinished ≤ context.limits.maxSteps) ∧
    (trace context script).1.steps.length ≤ context.limits.maxSteps ∧
    ((trace context script).1.verdict = .rejected .stepLimitExceeded →
      (trace context script).1.steps.length = context.limits.maxSteps) ∧
    ((trace context script).1.steps.length = context.limits.maxSteps →
      (trace context script).1.verdict ≠ .rejected .stepLimitExceeded →
      (∃ last, Ends context script 0 0 .empty (trace context script).1.steps (.finished last)) ∧
      (trace context script).1.verdict ∈
        [.accepted, .rejected .falseResult, .rejected .uncleanStack,
          .rejected .stackUnderflow]) := by
  refine ⟨?_, ?_⟩
  · intro stack
    refine ⟨exists_ends_run context script stack, ?_⟩
    intro steps ending h
    have hle := h.executed_le (Nat.zero_le _)
    rw [Nat.zero_add] at hle
    exact ⟨h.run_eq, hle⟩
  · obtain ⟨ending, hends⟩ := exists_ends_run context script .empty
    show (run context script .empty).steps.length ≤ _ ∧ _
    have hle := hends.executed_le (Nat.zero_le _)
    have hverdict : (run context script .empty).verdict = ending.verdict :=
      congrArg Run.verdict hends.run_eq
    refine ⟨by omega, ?_, ?_⟩
    · intro hlimit
      have hending := hends.eq_outOfSteps (hverdict.symm.trans hlimit) rfl
        fun last => conclude_ne last (by decide)
      have hlength := hends.length_of_outOfSteps (Nat.zero_le _) hending
      rwa [Nat.zero_add] at hlength
    · intro hfull hother
      obtain ⟨last, rfl⟩ := hends.finished_of_full hfull (hverdict ▸ hother)
      exact ⟨⟨last, hends⟩, hverdict ▸ conclude_mem last⟩

/-- A jump to itself uses up its steps, and a push that takes the only step is followed by the end
of the script. -/
theorem trace_uses_budget :
    ((trace { limits := { maxSteps := 3 } } [.jmp 0]).1.verdict = .rejected .stepLimitExceeded ∧
      (trace { limits := { maxSteps := 3 } } [.jmp 0]).1.steps.length = 3) ∧
    (trace { limits := { maxSteps := 1 } } [.push 1]).1.steps.length = 1 ∧
      ∃ last, Ends { limits := { maxSteps := 1 } } [.push 1] 0 0 .empty
        (trace { limits := { maxSteps := 1 } } [.push 1]).1.steps (.finished last) := by
  have hloop : (trace { limits := { maxSteps := 3 } } [.jmp 0]).1.verdict =
      .rejected .stepLimitExceeded := by decide
  have hfull : (trace { limits := { maxSteps := 1 } } [.push 1]).1.steps.length = 1 := by decide
  exact ⟨⟨hloop, (trace_within_budget _ _).2.2.1 hloop⟩, hfull,
    ((trace_within_budget _ _).2.2.2 hfull (by decide)).1⟩

end Machine
end LockScript
