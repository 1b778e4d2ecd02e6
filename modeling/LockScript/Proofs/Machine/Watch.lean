import LockScript.Machine.Execute
import LockScript.Proofs.Machine.Loop
import LockScript.Proofs.Machine.Plan

/-!
Runs with every stack they go through.

A run keeps the stack behind each completed instruction.  A watched run keeps all of
them: those an unlock script and its parameters leave one by one, those between two
instructions, those between the operations inside an instruction, also one that fails
half way, and the one that is left when the result has been taken.  A watched run is
the run with these stacks beside it, and all of them are within the ceilings.
-/

namespace LockScript
namespace Machine

structure Watched (α : Type) where
  result : α
  trail : List Stack

/-- The verdict on what was taken from the stack at the end. -/
def verdictOf : Except Reason (Bytes × Stack) → Verdict
  | .error reason => .rejected reason
  | .ok (result, rest) =>
    if rest.depth ≠ 0 then .rejected .uncleanStack
    else if isTrue result then .accepted
    else .rejected .falseResult

/-- `runFrom` with the stacks, carried out plan by plan. -/
def watchFrom (context : Context) (script : Script) :
    (budget pc : Nat) → Stack → (done : List Step) → Watched Run
  | budget, pc, stack, done =>
    match script[pc]? with
    | none =>
      ⟨⟨done.reverse, verdictOf (Plan.takeResult.exec context.limits stack)⟩,
        Plan.takeResult.visits context.limits stack⟩
    | some instruction =>
      match budget with
      | 0 => ⟨⟨done.reverse, .rejected .stepLimitExceeded⟩, [stack]⟩
      | budget + 1 =>
        let plan := Plan.ofInstruction context.message script.length pc instruction
        let inside := plan.visits context.limits stack
        match plan.exec context.limits stack with
        | .error reason => ⟨⟨done.reverse, .rejected reason⟩, inside⟩
        | .ok (none, _) => ⟨⟨done.reverse, .burned⟩, inside⟩
        | .ok (some target, next) =>
          let rest := watchFrom context script budget target next (⟨pc, instruction, next⟩ :: done)
          ⟨rest.result, inside ++ rest.trail⟩

def watch (context : Context) (script : Script) (stack : Stack) : Watched Run :=
  watchFrom context script context.limits.maxSteps 0 stack []

/-- `unlock` with the stacks, those of the loading first. -/
def watchUnlock (context : Context) (unlock : Script) (params : List Bytes) (lock : Script) :
    Watched Verdict :=
  if lock.tooManyChecks then ⟨.rejected .tooManySignatureChecks, []⟩
  else if !unlock.pushOnly then ⟨.rejected .invalidUnlockScript, []⟩
  else
    let plan := Plan.load (witness unlock params)
    let loading := plan.visits context.limits .empty
    match plan.exec context.limits .empty with
    | .error reason => ⟨.rejected reason, loading⟩
    | .ok (_, stack) =>
      let rest := watch context lock stack
      ⟨rest.result.verdict, loading ++ rest.trail⟩

/-! ## A watched run is the run -/

theorem conclude_eq_verdictOf (limits : Limits) (stack : Stack) :
    conclude stack = verdictOf (Plan.takeResult.exec limits stack) := by
  obtain ⟨items, memory, depth, rfl⟩ := stack
  match items with
  | [] => rfl
  | [value] => rfl
  | _ :: _ :: _ => rfl

theorem watchFrom_result (context : Context) (script : Script) (budget pc : Nat) (stack : Stack)
    (done : List Step) :
    (watchFrom context script budget pc stack done).result =
      runFrom context script budget pc stack done := by
  fun_induction watchFrom context script budget pc stack done with
  | case1 budget pc stack done hpc =>
    rw [runFrom_end hpc, conclude_eq_verdictOf context.limits]
  | case2 pc stack done instruction hpc => rw [runFrom_exhausted hpc]
  | case3 pc stack done instruction hpc budget plan inside reason hexec =>
    rw [runFrom_error hpc (Plan.perform_of_exec hexec)]
  | case4 pc stack done instruction hpc budget plan inside next hexec =>
    rw [runFrom_burned hpc (Plan.perform_of_exec hexec)]
  | case5 pc stack done instruction hpc budget plan inside target next hexec rest ih =>
    rw [runFrom_next hpc (Plan.perform_of_exec hexec)]
    exact ih

theorem watchUnlock_result (context : Context) (script : Script) (params : List Bytes)
    (lock : Script) :
    (watchUnlock context script params lock).result = (unlock context script params lock).1 := by
  unfold watchUnlock unlock
  rw [Plan.pushAll_eq_exec]
  split
  · rfl
  split
  · rfl
  dsimp only
  cases (Plan.load (witness script params)).exec context.limits .empty with
  | error reason => rfl
  | ok reached =>
    obtain ⟨_, stack⟩ := reached
    have hrun := watchFrom_result context lock context.limits.maxSteps 0 stack []
    exact congrArg Run.verdict hrun

/-! ## The stacks of a watched run -/

section

variable {context : Context} {script : Script} {budget pc : Nat} {stack : Stack} {done : List Step}

theorem start_mem_watchFrom :
    stack ∈ (watchFrom context script budget pc stack done).trail := by
  fun_cases watchFrom context script budget pc stack done with
  | case1 | case3 | case4 => exact Plan.start_mem_visits
  | case2 => exact List.mem_cons_self
  | case5 => exact List.mem_append_left _ Plan.start_mem_visits

theorem mem_trail_of_mem_steps {step : Step}
    (h : step ∈ (watchFrom context script budget pc stack done).result.steps) :
    step ∈ done ∨ step.stack ∈ (watchFrom context script budget pc stack done).trail := by
  fun_induction watchFrom context script budget pc stack done with
  | case1 | case2 | case3 | case4 => exact .inl (List.mem_reverse.1 h)
  | case5 pc stack done instruction hpc budget plan inside target next hexec rest ih =>
    rcases ih h with hdone | hstack
    · rcases List.mem_cons.1 hdone with rfl | hdone
      -- the stack behind this instruction is the one that the next pass starts with
      · exact .inr (List.mem_append_right _ start_mem_watchFrom)
      · exact .inl hdone
    · exact .inr (List.mem_append_right _ hstack)

theorem within_of_mem_watchFrom {visited : Stack} (h : stack.Within context.limits)
    (hmem : visited ∈ (watchFrom context script budget pc stack done).trail) :
    visited.Within context.limits := by
  fun_induction watchFrom context script budget pc stack done with
  | case1 budget pc stack done hpc => exact Plan.within_of_mem_visits h hmem
  | case2 pc stack done instruction hpc =>
    rw [List.mem_singleton.1 hmem]
    exact h
  | case3 | case4 => exact Plan.within_of_mem_visits h hmem
  | case5 pc stack done instruction hpc budget plan inside target next hexec rest ih =>
    rcases List.mem_append.1 hmem with hmem | hmem
    · exact Plan.within_of_mem_visits h hmem
    · exact ih (Plan.within_of_exec h hexec) hmem

theorem within_of_mem_watchUnlock {unlock lock : Script} {params : List Bytes} {visited : Stack}
    (hmem : visited ∈ (watchUnlock context unlock params lock).trail) :
    visited.Within context.limits := by
  have hempty := Stack.within_empty context.limits
  unfold watchUnlock at hmem
  split at hmem
  · cases hmem
  split at hmem
  · cases hmem
  dsimp only at hmem
  split at hmem
  · exact Plan.within_of_mem_visits hempty hmem
  · rename_i loaded stack hexec
    rcases List.mem_append.1 hmem with hmem | hmem
    · exact Plan.within_of_mem_visits hempty hmem
    · exact within_of_mem_watchFrom (Plan.within_of_exec hempty hexec) hmem

end

/-- Every stack that any way of running a script goes through counts its bytes right and keeps to
the three ceilings on stacks.  The watched runs are the runs, and the stacks that tracing returns
are among those watched. -/
theorem watched_stacks_within (context : Context) (script unlocking : Script)
    (params : List Bytes) (lock : Script) :
    ((watch context script .empty).result = (trace context script).1 ∧
      (watch context script .empty).result.verdict = (execute context script).1 ∧
      ∀ stack ∈ (watch context script .empty).trail, stack.Within context.limits) ∧
    ((watchUnlock context unlocking params lock).result =
        (unlock context unlocking params lock).1 ∧
      ∀ stack ∈ (watchUnlock context unlocking params lock).trail,
        stack.Within context.limits) ∧
    ∀ step ∈ (trace context script).1.steps,
      step.stack ∈ (watch context script .empty).trail ∧ step.stack.Within context.limits := by
  have hrun : (watch context script .empty).result = run context script .empty :=
    watchFrom_result context script context.limits.maxSteps 0 .empty []
  have hwithin : ∀ stack ∈ (watch context script .empty).trail, stack.Within context.limits :=
    fun stack hmem => within_of_mem_watchFrom (Stack.within_empty context.limits) hmem
  refine ⟨⟨hrun, congrArg Run.verdict hrun, hwithin⟩, ⟨?_, ?_⟩, ?_⟩
  · exact watchUnlock_result context unlocking params lock
  · intro stack hmem
    exact within_of_mem_watchUnlock hmem
  · intro step hstep
    have hsteps : step ∈ (watch context script .empty).result.steps := by
      rw [hrun]
      exact hstep
    rcases mem_trail_of_mem_steps hsteps with hdone | hstack
    · cases hdone
    · exact ⟨hstack, hwithin step.stack hstack⟩

/-- Half way through a swap the former top lies alone, and that stack is watched as well. -/
theorem watched_swap_within :
    Stack.ofItems [[8]] ∈ (watch {} [.push 7, .push 8, .swap] .empty).trail ∧
      (Stack.ofItems [[8]]).Within Limits.standard := by
  have hmem : Stack.ofItems [[8]] ∈ (watch {} [.push 7, .push 8, .swap] .empty).trail := by decide
  exact ⟨hmem, (watched_stacks_within {} [.push 7, .push 8, .swap] [] [] []).1.2.2 _ hmem⟩

end Machine
end LockScript
