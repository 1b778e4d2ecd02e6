import LockScript.Proofs.Machine.Attempts

/-!
Runs that come back to where they were.

What an instruction does depends on the position and the stack it finds, and on nothing that the
run did before.  A run that finds the same twice has therefore gone round a loop, and it goes round
again for as long as it has steps.  No bound on the length of the loop is needed: the attempts up to
the second visit are a set of states that is entered and never left, since each one leads to the next
and the last one leads back into the set.
-/

namespace LockScript
namespace Machine

/-! ## States that are not left -/

section

variable {context : Context} {script : Script} {budget pc : Nat} {stack : Stack}

/-- In each of some states an instruction is completed, and it leads to one of them again. -/
def Trap (context : Context) (script : Script) (states : Nat → Stack → Prop) : Prop :=
  ∀ pc stack, states pc stack → ∃ instruction target next,
    script[pc]? = some instruction ∧
      perform context script.length pc stack instruction = .ok (.next target next) ∧
      states target next

theorem Trap.runFrom {states : Nat → Stack → Prop} (h : Trap context script states)
    (budget : Nat) (hstart : states pc stack) :
    (Machine.runFrom context script budget pc stack []).verdict =
      .rejected .stepLimitExceeded := by
  induction budget generalizing pc stack with
  | zero =>
    obtain ⟨instruction, _, _, hpc, -, -⟩ := h pc stack hstart
    rw [runFrom_exhausted hpc]
  | succ budget ih =>
    obtain ⟨instruction, target, next, hpc, hperform, hnext⟩ := h pc stack hstart
    rw [runFrom_next hpc hperform, runFrom_done]
    exact ih hnext

theorem Trap.withSteps {states : Nat → Stack → Prop} (h : Trap context script states)
    (steps : Nat) : Trap (context.withSteps steps) script states := by
  intro pc stack hstate
  obtain ⟨instruction, target, next, hpc, hperform, hnext⟩ := h pc stack hstate
  refine ⟨instruction, target, next, hpc, ?_, hnext⟩
  rw [perform_withSteps]
  exact hperform

/-! ## One attempt after the other -/

theorem attemptsFrom_first {attempt : Attempt}
    (h : (attemptsFrom context script budget pc stack)[0]? = some attempt) :
    attempt.pc = pc ∧ attempt.stack = stack := by
  fun_induction attemptsFrom context script budget pc stack with
  | case1 | case2 => cases h
  | case3 | case4 | case5 =>
    cases h
    exact ⟨rfl, rfl⟩

/-- An attempt that is followed by another one was completed, and it led there. -/
theorem attemptsFrom_follow {index : Nat} {attempt following : Attempt}
    (h : (attemptsFrom context script budget pc stack)[index]? = some attempt)
    (hnext : (attemptsFrom context script budget pc stack)[index + 1]? = some following) :
    perform context script.length attempt.pc attempt.stack attempt.instruction =
      .ok (.next following.pc following.stack) := by
  fun_induction attemptsFrom context script budget pc stack generalizing index with
  | case1 | case2 | case3 | case4 => simp at hnext
  | case5 budget pc stack instruction hpc target next hperform ih =>
    rw [List.getElem?_cons_succ] at hnext
    cases index with
    | zero =>
      cases h
      obtain ⟨rfl, rfl⟩ := attemptsFrom_first hnext
      exact hperform
    | succ index => exact ih h hnext

/-! ## The loop -/

/-- The positions and stacks of the attempts before one of them. -/
def StatesBefore (list : List Attempt) (bound pc : Nat) (stack : Stack) : Prop :=
  ∃ index attempt, index < bound ∧ list[index]? = some attempt ∧ attempt.pc = pc ∧
    attempt.stack = stack

theorem trap_of_revisit {i j : Nat} {first second : Attempt} (hij : i < j)
    (hfirst : (attemptsFrom context script budget pc stack)[i]? = some first)
    (hsecond : (attemptsFrom context script budget pc stack)[j]? = some second)
    (hpc : first.pc = second.pc) (hstack : first.stack = second.stack) :
    Trap context script (StatesBefore (attemptsFrom context script budget pc stack) j) := by
  rintro _ _ ⟨index, attempt, hindex, hattempt, rfl, rfl⟩
  -- there is an attempt at `j`, so there is one behind every attempt before it
  have hlength : j < (attemptsFrom context script budget pc stack).length :=
    (List.getElem?_eq_some_iff.1 hsecond).1
  have hbound : index + 1 < (attemptsFrom context script budget pc stack).length := by omega
  have hfollowing := List.getElem?_eq_getElem hbound
  have hperform := attemptsFrom_follow hattempt hfollowing
  have hfetch := fetch_of_mem_attemptsFrom (List.mem_of_getElem? hattempt)
  refine ⟨attempt.instruction, _, _, hfetch, hperform, ?_⟩
  by_cases hlast : index + 1 = j
  · -- the loop is closed: what comes next is what was found at `i`
    subst hlast
    rw [hsecond] at hfollowing
    cases hfollowing
    exact ⟨i, first, hij, hfirst, hpc, hstack⟩
  · exact ⟨index + 1, _, by omega, hfollowing, rfl, rfl⟩

theorem start_mem_statesBefore {j : Nat} {attempt : Attempt} (hj : 0 < j)
    (h : (attemptsFrom context script budget pc stack)[j]? = some attempt) :
    StatesBefore (attemptsFrom context script budget pc stack) j pc stack := by
  have hbound : 0 < (attemptsFrom context script budget pc stack).length := by
    have hlength := (List.getElem?_eq_some_iff.1 h).1
    omega
  have hhead := List.getElem?_eq_getElem hbound
  obtain ⟨hpc, hstack⟩ := attemptsFrom_first hhead
  exact ⟨0, _, hj, hhead, hpc, hstack⟩

end

theorem Stack.Within.eq_of_items {limits : Limits} {stack stack' : Stack}
    (h : stack.Within limits) (h' : stack'.Within limits) (hitems : stack.items = stack'.items) :
    stack = stack' := by
  rw [h.eq_ofItems, h'.eq_ofItems, hitems]

/-- A run that comes to a position with the values it had there before never decides.  It runs out
of steps, and with any other number of steps it runs out of them as well. -/
theorem execute_of_revisit (context : Context) (script : Script) (i j : Nat)
    (first second : Attempt) (hij : i < j)
    (hfirst : (attempts context script .empty)[i]? = some first)
    (hsecond : (attempts context script .empty)[j]? = some second)
    (hpc : first.pc = second.pc) (hitems : first.stack.items = second.stack.items) :
    (execute context script).1 = .rejected .stepLimitExceeded ∧
      ∀ steps, (execute (context.withSteps steps) script).1 = .rejected .stepLimitExceeded := by
  -- the values are the whole stack, because both stacks count them right
  have hstack : first.stack = second.stack := by
    have hempty := Stack.within_empty context.limits
    have hwithin := within_of_mem_attemptsFrom hempty (List.mem_of_getElem? hfirst)
    have hwithin' := within_of_mem_attemptsFrom hempty (List.mem_of_getElem? hsecond)
    exact hwithin.eq_of_items hwithin' hitems
  have htrap := trap_of_revisit hij hfirst hsecond hpc hstack
  have hstart := start_mem_statesBefore (by omega) hsecond
  refine ⟨?_, ?_⟩
  · exact htrap.runFrom context.limits.maxSteps hstart
  · intro steps
    exact (htrap.withSteps steps).runFrom steps hstart

/-- A loop that pushes a value and takes it off again is back after three instructions, which four
steps are enough to see. -/
theorem execute_of_revisit_loop :
    (attempts { limits := { maxSteps := 4 } } [.push 1, .pop, .jmp 0] .empty)[0]? =
        some ⟨0, .push 1, .empty⟩ ∧
      (attempts { limits := { maxSteps := 4 } } [.push 1, .pop, .jmp 0] .empty)[3]? =
        some ⟨0, .push 1, .empty⟩ ∧
      ∀ steps, (execute (Context.withSteps { limits := { maxSteps := 4 } } steps)
        [.push 1, .pop, .jmp 0]).1 = .rejected .stepLimitExceeded := by
  have hfirst : (attempts { limits := { maxSteps := 4 } } [.push 1, .pop, .jmp 0] .empty)[0]? =
      some ⟨0, .push 1, .empty⟩ := by decide
  have hsecond : (attempts { limits := { maxSteps := 4 } } [.push 1, .pop, .jmp 0] .empty)[3]? =
      some ⟨0, .push 1, .empty⟩ := by decide
  exact ⟨hfirst, hsecond,
    (execute_of_revisit _ _ 0 3 _ _ (by decide) hfirst hsecond rfl rfl).2⟩

end Machine
end LockScript
