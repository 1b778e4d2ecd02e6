import LockScript.Proofs.Machine.Loop

/-!
Two runs side by side.

`pass` is one pass of the loop as a function of the position and the stack alone: the budget
decides only whether it is made.  Two machines whose passes agree wherever their positions and
stacks are related make related runs.  What related means is open, for positions and stacks as
for runs, so that one induction serves shifted positions, stacks with more below and ceilings
set higher.
-/

namespace LockScript
namespace Machine

/-- What a run does where it stands. -/
inductive Pass where
  /-- The script is at its end, which takes no step. -/
  | finish (verdict : Verdict)
  /-- The instruction ends the run. -/
  | halt (verdict : Verdict)
  /-- The instruction is completed, and the run goes on at `target`. -/
  | go (step : Step) (target : Nat)

def Pass.ofResult (pc : Nat) (instruction : Instruction) : Except Reason Effect → Pass
  | .error reason => halt (.rejected reason)
  | .ok .burned => halt .burned
  | .ok (.next target next) => go ⟨pc, instruction, next⟩ target

def pass (context : Context) (script : Script) (pc : Nat) (stack : Stack) : Pass :=
  match script[pc]? with
  | none => .finish (conclude stack)
  | some instruction =>
    .ofResult pc instruction (perform context script.length pc stack instruction)

namespace Run

def ended (verdict : Verdict) : Run := ⟨[], verdict⟩

/-- The run with one more step in front. -/
def after (run : Run) (step : Step) : Run := ⟨step :: run.steps, run.verdict⟩

def exhausted : Run := ended (.rejected .stepLimitExceeded)

end Run

section

variable {context : Context} {script : Script} {budget pc : Nat} {stack : Stack}

theorem pass_of_none (h : script[pc]? = none) :
    pass context script pc stack = .finish (conclude stack) := by
  rw [pass, h]

theorem pass_of_some {instruction : Instruction} (h : script[pc]? = some instruction) :
    pass context script pc stack =
      .ofResult pc instruction (perform context script.length pc stack instruction) := by
  rw [pass, h]

theorem runFrom_of_finish {verdict : Verdict} (h : pass context script pc stack = .finish verdict) :
    runFrom context script budget pc stack [] = .ended verdict := by
  cases hpc : script[pc]? with
  | none =>
    rw [pass_of_none hpc] at h
    cases h
    exact runFrom_end hpc
  | some instruction =>
    rw [pass_of_some hpc] at h
    unfold Pass.ofResult at h
    split at h <;> cases h

theorem runFrom_zero (h : ∀ verdict, pass context script pc stack ≠ .finish verdict) :
    runFrom context script 0 pc stack [] = .exhausted := by
  cases hpc : script[pc]? with
  | none => exact absurd (pass_of_none hpc) (h _)
  | some instruction => exact runFrom_exhausted hpc

theorem runFrom_of_halt {verdict : Verdict} (h : pass context script pc stack = .halt verdict) :
    runFrom context script (budget + 1) pc stack [] = .ended verdict := by
  cases hpc : script[pc]? with
  | none =>
    rw [pass_of_none hpc] at h
    cases h
  | some instruction =>
    rw [pass_of_some hpc] at h
    unfold Pass.ofResult at h
    split at h
    · rename_i reason hperform
      cases h
      exact runFrom_error hpc hperform
    · rename_i hperform
      cases h
      exact runFrom_burned hpc hperform
    · cases h

theorem runFrom_of_go {step : Step} {target : Nat}
    (h : pass context script pc stack = .go step target) :
    runFrom context script (budget + 1) pc stack [] =
      (runFrom context script budget target step.stack []).after step := by
  cases hpc : script[pc]? with
  | none =>
    rw [pass_of_none hpc] at h
    cases h
  | some instruction =>
    rw [pass_of_some hpc] at h
    unfold Pass.ofResult at h
    split at h
    · cases h
    · cases h
    · rename_i next hperform
      cases h
      rw [runFrom_next hpc hperform, runFrom_done]
      rfl

end

section

variable (related : Nat × Stack → Nat × Stack → Prop) (ends : Run → Run → Prop)

/-- Two passes agree: both end the run or both go on, or one of them ends it in a way that says
nothing about where the other gets to. -/
inductive InStep : Pass → Pass → Prop where
  | finish {first second : Verdict} (h : ends (.ended first) (.ended second)) :
    InStep (.finish first) (.finish second)
  | halt {first second : Verdict} (h : ends (.ended first) (.ended second)) :
    InStep (.halt first) (.halt second)
  | go {first second : Step} {target target' : Nat}
    (h : related (target, first.stack) (target', second.stack))
    (hends : ∀ run run', ends run run' → ends (run.after first) (run'.after second)) :
    InStep (.go first target) (.go second target')
  | firstHalts {first : Verdict} {second : Step} {target : Nat}
    (h : ∀ run, ends (.ended first) run) : InStep (.halt first) (.go second target)
  | secondHalts {first : Step} {second : Verdict} {target : Nat}
    (h : ∀ run, ends run (.ended second)) : InStep (.go first target) (.halt second)

/-- The passes agree wherever positions and stacks are related. -/
def Lockstep (context : Context) (script : Script) (context' : Context) (script' : Script) : Prop :=
  ∀ pc stack pc' stack', related (pc, stack) (pc', stack') →
    InStep related ends (pass context script pc stack) (pass context' script' pc' stack')

end

section

variable {related : Nat × Stack → Nat × Stack → Prop} {ends : Run → Run → Prop}

section

variable {pc pc' : Nat} {instruction instruction' : Instruction} {reason : Reason}

theorem inStep_of_first_error (h : ∀ run, ends (.ended (.rejected reason)) run)
    (second : Except Reason Effect) :
    InStep related ends (.ofResult pc instruction (.error reason))
      (.ofResult pc' instruction' second) := by
  match second with
  | .error reason' => exact .halt (h _)
  | .ok .burned => exact .halt (h _)
  | .ok (.next target next) => exact .firstHalts h

theorem inStep_of_second_error (h : ∀ run, ends run (.ended (.rejected reason)))
    (first : Except Reason Effect) :
    InStep related ends (.ofResult pc instruction first)
      (.ofResult pc' instruction' (.error reason)) := by
  match first with
  | .error reason' => exact .halt (h _)
  | .ok .burned => exact .halt (h _)
  | .ok (.next target next) => exact .secondHalts h

end

/-- Runs whose passes agree end alike.  The second run may have steps to spare; if it has, running
out of them has to say nothing about it. -/
theorem Lockstep.runFrom {context context' : Context} {script script' : Script}
    (hpass : Lockstep related ends context script context' script') (spare : Nat)
    (hspent : ∀ run, (spare = 0 → run = .exhausted) → ends .exhausted run) (budget : Nat)
    {pc pc' : Nat} {stack stack' : Stack} (h : related (pc, stack) (pc', stack')) :
    ends (Machine.runFrom context script budget pc stack [])
      (Machine.runFrom context' script' (budget + spare) pc' stack' []) := by
  -- the two budgets go down together, and what the second has to spare stays
  induction budget generalizing pc stack pc' stack' with
  | zero =>
    have hstep := hpass pc stack pc' stack' h
    generalize hfirst : pass context script pc stack = first at hstep
    generalize hsecond : pass context' script' pc' stack' = second at hstep
    cases hstep with
    | finish hends =>
      rw [runFrom_of_finish hfirst, runFrom_of_finish hsecond]
      exact hends
    | halt | go | firstHalts | secondHalts =>
      rw [runFrom_zero (by simp [hfirst])]
      apply hspent
      intro hspare
      subst hspare
      exact runFrom_zero (by simp [hsecond])
  | succ budget ih =>
    have hstep := hpass pc stack pc' stack' h
    generalize hfirst : pass context script pc stack = first at hstep
    generalize hsecond : pass context' script' pc' stack' = second at hstep
    rw [Nat.add_right_comm]
    cases hstep with
    | finish hends =>
      rw [runFrom_of_finish hfirst, runFrom_of_finish hsecond]
      exact hends
    | halt hends =>
      rw [runFrom_of_halt hfirst, runFrom_of_halt hsecond]
      exact hends
    | go hrelated hends =>
      rw [runFrom_of_go hfirst, runFrom_of_go hsecond]
      exact hends _ _ (ih hrelated)
    | firstHalts hends =>
      rw [runFrom_of_halt hfirst]
      exact hends _
    | secondHalts hends =>
      rw [runFrom_of_halt hsecond]
      exact hends _

end

end Machine
end LockScript
