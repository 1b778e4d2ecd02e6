import LockScript.Proofs.Machine.Budget

/-!
Everything a run executes.

The steps of a run are the instructions it completed.  An instruction that fails or burns is
executed as well, and it is the last one, but no step tells where it stood or what it found.
`attempts` lists all of them, each with its position and with the stack before it, so that it can
be said where a run has been.  Two runs that do the same at every attempt of the first one are
compared by `runFrom_abreast`, which asks nothing about positions that are not reached.
-/

namespace LockScript
namespace Machine

/-- An instruction that a run sets out on. -/
structure Attempt where
  pc : Nat
  instruction : Instruction
  /-- The stack before it. -/
  stack : Stack
deriving DecidableEq, Repr

def Attempt.place (attempt : Attempt) : Nat × Instruction :=
  (attempt.pc, attempt.instruction)

def Step.place (step : Step) : Nat × Instruction :=
  (step.pc, step.instruction)

/-- The instructions that `runFrom` executes, with the one that fails or burns. -/
def attemptsFrom (context : Context) (script : Script) :
    (budget pc : Nat) → Stack → List Attempt
  | 0, _, _ => []
  | budget + 1, pc, stack =>
    match script[pc]? with
    | none => []
    | some instruction =>
      match perform context script.length pc stack instruction with
      | .error _ => [⟨pc, instruction, stack⟩]
      | .ok .burned => [⟨pc, instruction, stack⟩]
      | .ok (.next target next) =>
        ⟨pc, instruction, stack⟩ :: attemptsFrom context script budget target next

def attempts (context : Context) (script : Script) (stack : Stack) : List Attempt :=
  attemptsFrom context script context.limits.maxSteps 0 stack

section

variable {context : Context} {script : Script} {budget pc : Nat} {stack : Stack}
  {instruction : Instruction}

theorem attemptsFrom_end (h : script[pc]? = none) :
    attemptsFrom context script budget pc stack = [] := by
  cases budget with
  | zero => rfl
  | succ budget => simp only [attemptsFrom, h]

theorem attemptsFrom_of_halt {verdict : Verdict} (hpc : script[pc]? = some instruction)
    (h : pass context script pc stack = .halt verdict) :
    attemptsFrom context script (budget + 1) pc stack = [⟨pc, instruction, stack⟩] := by
  rw [pass_of_some hpc] at h
  simp only [attemptsFrom, hpc]
  generalize perform context script.length pc stack instruction = result at h ⊢
  match result, h with
  | .error _, _ => rfl
  | .ok .burned, _ => rfl

theorem attemptsFrom_of_go {step : Step} {target : Nat} (hpc : script[pc]? = some instruction)
    (h : pass context script pc stack = .go step target) :
    attemptsFrom context script (budget + 1) pc stack =
      ⟨pc, instruction, stack⟩ :: attemptsFrom context script budget target step.stack := by
  rw [pass_of_some hpc] at h
  simp only [attemptsFrom, hpc]
  generalize perform context script.length pc stack instruction = result at h ⊢
  match result, h with
  | .ok (.next target next), rfl => rfl

/-! ## What an attempt tells -/

theorem mem_attemptsFrom_head (hpc : script[pc]? = some instruction) :
    ⟨pc, instruction, stack⟩ ∈ attemptsFrom context script (budget + 1) pc stack := by
  simp only [attemptsFrom, hpc]
  split <;> exact List.mem_cons_self

theorem fetch_of_mem_attemptsFrom {attempt : Attempt}
    (h : attempt ∈ attemptsFrom context script budget pc stack) :
    script[attempt.pc]? = some attempt.instruction := by
  fun_induction attemptsFrom context script budget pc stack with
  | case1 | case2 => cases h
  | case3 budget pc stack instruction hpc | case4 budget pc stack instruction hpc =>
    rw [List.mem_singleton.1 h]
    exact hpc
  | case5 budget pc stack instruction hpc target next hperform ih =>
    rcases List.mem_cons.1 h with rfl | hrest
    · exact hpc
    · exact ih hrest

/-- What every completed instruction preserves holds at every attempt. -/
theorem attemptsFrom_invariant (holds : Nat → Stack → Prop) {attempt : Attempt}
    (hstep : ∀ pc stack instruction target next, script[pc]? = some instruction →
      perform context script.length pc stack instruction = .ok (.next target next) →
      holds pc stack → holds target next)
    (hstart : holds pc stack) (h : attempt ∈ attemptsFrom context script budget pc stack) :
    holds attempt.pc attempt.stack := by
  fun_induction attemptsFrom context script budget pc stack with
  | case1 | case2 => cases h
  | case3 | case4 =>
    obtain rfl := List.mem_singleton.1 h
    exact hstart
  | case5 budget pc stack instruction hpc target next hperform ih =>
    rcases List.mem_cons.1 h with rfl | hrest
    · exact hstart
    · exact ih (hstep pc stack instruction target next hpc hperform hstart) hrest

theorem within_of_mem_attemptsFrom {attempt : Attempt} (hstack : stack.Within context.limits)
    (h : attempt ∈ attemptsFrom context script budget pc stack) :
    attempt.stack.Within context.limits := by
  refine attemptsFrom_invariant (fun _ stack => stack.Within context.limits) ?_ hstack h
  intro _ _ _ _ _ _ hperform hwithin
  exact within_of_perform hwithin hperform

/-- What is executed is what the steps tell of, and one more if the run ended inside an
instruction. -/
theorem Ends.map_place_attemptsFrom {used : Nat} {steps : List Step} {ending : Ending}
    (h : Ends context script used pc stack steps ending)
    (hbudget : used + budget = context.limits.maxSteps) :
    ∃ last, (attemptsFrom context script budget pc stack).map Attempt.place =
      steps.map Step.place ++ last ∧ last.length = ending.unfinished := by
  induction h generalizing budget with
  | finish hpc =>
    rw [attemptsFrom_end hpc]
    exact ⟨[], rfl, rfl⟩
  | limit hpc hused =>
    obtain rfl : budget = 0 := by omega
    exact ⟨[], rfl, rfl⟩
  | fail hpc hused hperform | burn hpc hused hperform =>
    obtain ⟨budget, rfl⟩ : ∃ left, budget = left + 1 := ⟨budget - 1, by omega⟩
    simp only [attemptsFrom, hpc, hperform]
    exact ⟨[_], rfl, rfl⟩
  | go hpc hused hperform _ ih =>
    obtain ⟨budget, rfl⟩ : ∃ left, budget = left + 1 := ⟨budget - 1, by omega⟩
    obtain ⟨last, hmap, hlast⟩ := @ih budget (by omega)
    simp only [attemptsFrom, hpc, hperform, List.map_cons, hmap]
    exact ⟨last, rfl, hlast⟩

/-- The instructions that a run on a stack executes: those it completes, and the one it ends inside
if there is such a one. -/
def Executes (context : Context) (script : Script) (stack : Stack) (executed : List Attempt) :
    Prop :=
  ∃ ending last, Ends context script 0 0 stack (run context script stack).steps ending ∧
    executed.map Attempt.place = (run context script stack).steps.map Step.place ++ last ∧
    last.length = ending.unfinished

theorem executes_attempts (context : Context) (script : Script) (stack : Stack) :
    Executes context script stack (attempts context script stack) := by
  obtain ⟨ending, hends⟩ := exists_ends_run context script stack
  obtain ⟨last, hplaces, hlast⟩ := hends.map_place_attemptsFrom (Nat.zero_add _)
  exact ⟨ending, last, hends, hplaces, hlast⟩

end

/-! ## Two runs along the attempts of one -/

section

variable (ends : List Attempt → Run → Run → Prop)

/-- What two passes make of one attempt: both end the run, or both go on from the same position
with the same stack, and `ends` is carried over from what comes behind. -/
inductive Abreast (attempt : Attempt) : Pass → Pass → Prop where
  | halt {first second : Verdict} (h : ends [attempt] (.ended first) (.ended second)) :
    Abreast attempt (.halt first) (.halt second)
  | go {first second : Step} {target : Nat} (hstack : second.stack = first.stack)
    (h : ∀ rest run run', ends rest run run' →
      ends (attempt :: rest) (run.after first) (run'.after second)) :
    Abreast attempt (.go first target) (.go second target)

variable {context context' : Context} {script script' : Script}

/-- Scripts of one length end at the same positions and run out of steps at the same positions, so
only the attempts have to be compared. -/
theorem runFrom_abreast (hlength : script'.length = script.length)
    (hend : ∀ verdict, ends [] (.ended verdict) (.ended verdict)) (budget pc : Nat) (stack : Stack)
    (h : ∀ attempt ∈ attemptsFrom context script budget pc stack,
      Abreast ends attempt (pass context script attempt.pc attempt.stack)
        (pass context' script' attempt.pc attempt.stack)) :
    ends (attemptsFrom context script budget pc stack)
      (runFrom context script budget pc stack [])
      (runFrom context' script' budget pc stack []) := by
  -- where the first script ends the second one ends, whatever is left of the budget
  have hfinish : ∀ budget pc stack, script[pc]? = none →
      ends (attemptsFrom context script budget pc stack)
        (runFrom context script budget pc stack [])
        (runFrom context' script' budget pc stack []) := by
    intro budget pc stack hpc
    have hpc' : script'[pc]? = none := by
      rw [List.getElem?_eq_none_iff] at hpc ⊢
      omega
    rw [runFrom_end hpc, runFrom_end hpc', attemptsFrom_end hpc]
    exact hend (conclude stack)
  induction budget generalizing pc stack with
  | zero =>
    cases hpc : script[pc]? with
    | none => exact hfinish 0 pc stack hpc
    | some instruction =>
      -- the instruction is not executed, so it is enough that the second script has one here
      have hbound : pc < script'.length := by
        rw [hlength]
        exact (List.getElem?_eq_some_iff.1 hpc).1
      rw [runFrom_exhausted hpc, runFrom_exhausted (List.getElem?_eq_getElem hbound)]
      exact hend (.rejected .stepLimitExceeded)
  | succ budget ih =>
    cases hpc : script[pc]? with
    | none => exact hfinish (budget + 1) pc stack hpc
    | some instruction =>
      have hhead := h _ (mem_attemptsFrom_head hpc)
      generalize hfirst : pass context script pc stack = first at hhead
      generalize hsecond : pass context' script' pc stack = second at hhead
      cases hhead with
      | halt hends =>
        rw [runFrom_of_halt hfirst, runFrom_of_halt hsecond, attemptsFrom_of_halt hpc hfirst]
        exact hends
      | @go step step' target hstack hends =>
        rw [attemptsFrom_of_go hpc hfirst] at h ⊢
        rw [runFrom_of_go hfirst, runFrom_of_go hsecond, hstack]
        refine hends _ _ _ (ih target step.stack ?_)
        intro attempt hattempt
        exact h attempt (List.mem_cons_of_mem _ hattempt)

end

end Machine
end LockScript
