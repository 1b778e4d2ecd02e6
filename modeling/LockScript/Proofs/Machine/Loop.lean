import LockScript.Machine.Run

/-!
The loop of a run, one pass at a time.

`runFrom` looks at its position, at its budget and at what the instruction does, in
this order.  The equations here say what each of them decides, so that proofs about
runs follow the passes and need not open the loop.
-/

namespace LockScript
namespace Machine

section

variable {context : Context} {script : Script} {budget pc : Nat} {stack : Stack}
  {done : List Step} {instruction : Instruction}

theorem runFrom_end (h : script[pc]? = none) :
    runFrom context script budget pc stack done = ⟨done.reverse, conclude stack⟩ := by
  unfold runFrom
  rw [h]

theorem runFrom_exhausted (h : script[pc]? = some instruction) :
    runFrom context script 0 pc stack done = ⟨done.reverse, .rejected .stepLimitExceeded⟩ := by
  unfold runFrom
  rw [h]

theorem runFrom_error {reason : Reason} (h : script[pc]? = some instruction)
    (e : perform context script.length pc stack instruction = .error reason) :
    runFrom context script (budget + 1) pc stack done = ⟨done.reverse, .rejected reason⟩ := by
  unfold runFrom
  simp only [h, e]

theorem runFrom_burned (h : script[pc]? = some instruction)
    (e : perform context script.length pc stack instruction = .ok .burned) :
    runFrom context script (budget + 1) pc stack done = ⟨done.reverse, .burned⟩ := by
  unfold runFrom
  simp only [h, e]

theorem runFrom_next {target : Nat} {next : Stack} (h : script[pc]? = some instruction)
    (e : perform context script.length pc stack instruction = .ok (.next target next)) :
    runFrom context script (budget + 1) pc stack done =
      runFrom context script budget target next (⟨pc, instruction, next⟩ :: done) := by
  conv => lhs; unfold runFrom
  simp only [h, e]

end

theorem runFrom_done (context : Context) (script : Script) (budget pc : Nat) (stack : Stack)
    (done : List Step) :
    runFrom context script budget pc stack done =
      ⟨done.reverse ++ (runFrom context script budget pc stack []).steps,
        (runFrom context script budget pc stack []).verdict⟩ := by
  -- the steps made before are only carried along, but they grow with every pass
  induction budget generalizing pc stack done with
  | zero =>
    cases hpc : script[pc]? with
    | none => simp [runFrom_end hpc]
    | some instruction => simp [runFrom_exhausted hpc]
  | succ budget ih =>
    cases hpc : script[pc]? with
    | none => simp [runFrom_end hpc]
    | some instruction =>
      cases hperform : perform context script.length pc stack instruction with
      | error reason => simp [runFrom_error hpc hperform]
      | ok effect =>
        cases effect with
        | burned => simp [runFrom_burned hpc hperform]
        | next target next =>
          rw [runFrom_next hpc hperform, runFrom_next hpc hperform,
            ih target next (⟨pc, instruction, next⟩ :: done),
            ih target next [⟨pc, instruction, next⟩]]
          simp

/-! ## The limit on the steps -/

/-- The context with a limit of its own on the steps and the other limits as they are. -/
def Context.withSteps (context : Context) (steps : Nat) : Context :=
  { context with limits := { context.limits with maxSteps := steps } }

theorem perform_withSteps (context : Context) (steps length pc : Nat) (stack : Stack)
    (instruction : Instruction) :
    perform (context.withSteps steps) length pc stack instruction =
      perform context length pc stack instruction := by
  cases instruction <;> rfl

end Machine
end LockScript
