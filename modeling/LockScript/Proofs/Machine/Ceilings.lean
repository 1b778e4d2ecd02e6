import LockScript.Proofs.Machine.Lockstep
import LockScript.Proofs.Machine.Plan
import LockScript.Proofs.Machine.Unlock

/-!
Ceilings set higher.

An operation on the stack meets the ceilings in one place, the push, and there a ceiling either
turns the value down or leaves no mark.  So what an operation does under some limits it does
under larger ones, unless a ceiling was in its way.  The same then holds of plans, of
instructions and of whole runs, where the budget of steps is one more way to be cut short.
-/

namespace LockScript
namespace Machine

instance : LE Limits where
  le limits larger := ∀ ceiling, limits.value ceiling ≤ larger.value ceiling

/-- The second result is the first one, unless a ceiling stood in the way of the first. -/
def UpToCeiling {α : Type} (first second : Except Reason α) : Prop :=
  second = first ∨ ∃ reason, reason.isCeiling = true ∧ first = .error reason

theorem UpToCeiling.map {α β : Type} {first second : Except Reason α} (f : α → β)
    (h : UpToCeiling first second) : UpToCeiling (first.map f) (second.map f) := by
  rcases h with rfl | ⟨reason, hreason, rfl⟩
  · exact .inl rfl
  · exact .inr ⟨reason, hreason, rfl⟩

section

variable {limits larger : Limits} (h : limits ≤ larger)

include h

theorem Stack.push_of_le (value : Bytes) (stack : Stack) :
    UpToCeiling (stack.push limits value) (stack.push larger value) := by
  have hvalue : limits.maxValueSize ≤ larger.maxValueSize := h .valueSize
  have hdepth : limits.maxStackDepth ≤ larger.maxStackDepth := h .stackDepth
  have hmemory : limits.maxMemory ≤ larger.maxMemory := h .memory
  unfold Stack.push
  split
  · exact .inr ⟨.valueTooLarge, rfl, rfl⟩
  split
  · exact .inr ⟨.stackOverflow, rfl, rfl⟩
  split
  · exact .inr ⟨.outOfMemory, rfl, rfl⟩
  · rw [if_neg (by omega), if_neg (by omega), if_neg (by omega)]
    exact .inl rfl

theorem Operation.apply_of_le (operation : Operation) (stack : Stack) :
    UpToCeiling (operation.apply limits stack) (operation.apply larger stack) := by
  cases operation with
  | push value => exact (Stack.push_of_le h value stack).map fun stack => ([], stack)
  | pop | get | remove => exact .inl rfl

theorem Plan.exec_of_le {α : Type} (plan : Plan α) (stack : Stack) :
    UpToCeiling (plan.exec limits stack) (plan.exec larger stack) := by
  induction plan generalizing stack with
  | done | fail => exact .inl rfl
  | step operation next ih =>
    rw [exec, exec]
    rcases Operation.apply_of_le h operation stack with happly | ⟨reason, hreason, happly⟩
    · rw [happly]
      cases operation.apply limits stack with
      | error reason => exact .inl rfl
      | ok reached => exact ih reached.1 reached.2
    · rw [happly]
      exact .inr ⟨reason, hreason, rfl⟩

theorem Stack.pushAll_of_le (values : List Bytes) (stack : Stack) :
    UpToCeiling (stack.pushAll limits values) (stack.pushAll larger values) := by
  rw [Plan.pushAll_eq_exec, Plan.pushAll_eq_exec]
  exact (Plan.exec_of_le h _ stack).map Prod.snd

theorem perform_of_le (message : Key.Message) (length pc : Nat) (stack : Stack)
    (instruction : Instruction) :
    UpToCeiling (perform ⟨message, limits⟩ length pc stack instruction)
      (perform ⟨message, larger⟩ length pc stack instruction) := by
  rw [Plan.perform_eq_exec, Plan.perform_eq_exec]
  exact (Plan.exec_of_le h _ stack).map Effect.ofTarget

end

/-! ## Runs -/

/-- The verdicts of runs that the limits did not let go on. -/
def Verdict.cutShort : Verdict → Bool
  | rejected .stepLimitExceeded | rejected .stackOverflow | rejected .valueTooLarge
  | rejected .outOfMemory => true
  | _ => false

theorem Reason.cutShort_of_isCeiling {reason : Reason} (h : reason.isCeiling = true) :
    (Verdict.rejected reason).cutShort = true := by
  cases reason with
  | valueTooLarge | stackOverflow | outOfMemory => rfl
  | _ => cases h

/-- The second run makes the steps of the first, and it is the same unless the first was cut
short. -/
structure Run.Extends (run longer : Run) : Prop where
  steps_prefix : run.steps <+: longer.steps
  eq_of_whole : run.verdict.cutShort = false → longer = run

namespace Run

theorem Extends.refl (run : Run) : run.Extends run := ⟨List.prefix_rfl, fun _ => rfl⟩

theorem Extends.after {run longer : Run} (h : run.Extends longer) (step : Step) :
    (run.after step).Extends (longer.after step) where
  steps_prefix := (List.prefix_cons_inj step).2 h.steps_prefix
  eq_of_whole hwhole := by rw [h.eq_of_whole hwhole]

theorem extends_of_cutShort {verdict : Verdict} (h : verdict.cutShort = true) (longer : Run) :
    (ended verdict).Extends longer where
  steps_prefix := List.nil_prefix
  eq_of_whole hwhole := by
    rw [ended, h] at hwhole
    cases hwhole

end Run

theorem lockstep_of_le {limits larger : Limits} (h : limits ≤ larger) (message : Key.Message)
    (script : Script) :
    Lockstep Eq Run.Extends ⟨message, limits⟩ script ⟨message, larger⟩ script := by
  intro pc stack pc' stack' hsame
  obtain ⟨rfl, rfl⟩ := Prod.mk.inj hsame
  cases hpc : script[pc]? with
  | none =>
    rw [pass_of_none hpc, pass_of_none hpc]
    exact .finish (.refl _)
  | some instruction =>
    rw [pass_of_some hpc, pass_of_some hpc]
    rcases perform_of_le h message script.length pc stack instruction with
      hperform | ⟨reason, hreason, hperform⟩
    · rw [hperform]
      match perform ⟨message, limits⟩ script.length pc stack instruction with
      | .error reason => exact .halt (.refl _)
      | .ok .burned => exact .halt (.refl _)
      | .ok (.next target next) => exact .go rfl fun _ _ hends => hends.after _
    · -- a ceiling ends the first run, and the second may do as it likes
      rw [hperform]
      exact inStep_of_first_error
        (Run.extends_of_cutShort (Reason.cutShort_of_isCeiling hreason)) _

theorem run_of_le {limits larger : Limits} (h : limits ≤ larger) (message : Key.Message)
    (script : Script) (stack : Stack) :
    (run ⟨message, limits⟩ script stack).Extends (run ⟨message, larger⟩ script stack) := by
  have hsteps : limits.maxSteps ≤ larger.maxSteps := h .steps
  obtain ⟨spare, hspare⟩ := Nat.exists_eq_add_of_le hsteps
  rw [run, run]
  simp only [hspare]
  refine (lockstep_of_le h message script).runFrom spare ?_ limits.maxSteps rfl
  intro longer _
  exact Run.extends_of_cutShort rfl longer

theorem unlock_of_le {limits larger : Limits} (h : limits ≤ larger) (message : Key.Message)
    (unlocking : Script) (params : List Bytes) (lock : Script)
    (hwhole : (unlock ⟨message, limits⟩ unlocking params lock).1.cutShort = false) :
    (unlock ⟨message, larger⟩ unlocking params lock).1 =
      (unlock ⟨message, limits⟩ unlocking params lock).1 := by
  by_cases hchecks : lock.tooManyChecks = true
  · simp only [unlock, hchecks, if_true]
  by_cases hpush : unlocking.pushOnly = true
  · rw [Bool.not_eq_true] at hchecks
    rw [unlock_eq_load hchecks hpush] at hwhole
    rw [unlock_eq_load hchecks hpush, unlock_eq_load hchecks hpush]
    rcases Stack.pushAll_of_le h (witness unlocking params) .empty with
      hload | ⟨reason, hreason, hload⟩
    · simp only [hload]
      cases hstack : Stack.empty.pushAll limits (witness unlocking params) with
      | error reason => rfl
      | ok stack =>
        simp only [hstack] at hwhole
        exact congrArg Run.verdict ((run_of_le h message lock stack).eq_of_whole hwhole)
    · simp only [hload, Reason.cutShort_of_isCeiling hreason] at hwhole
      cases hwhole
  · simp only [unlock, hchecks, hpush, Bool.false_eq_true, if_false, Bool.not_false, if_true]

/-- Larger limits let a run go on and change nothing in what it does.  Its steps remain as the
beginning of the longer run, and a run that no limit ended is the same run. -/
theorem trace_of_le (message : Key.Message) (limits larger : Limits) (h : limits ≤ larger)
    (script unlocking : Script) (params : List Bytes) (lock : Script) :
    (trace ⟨message, limits⟩ script).1.steps <+: (trace ⟨message, larger⟩ script).1.steps ∧
    ((trace ⟨message, limits⟩ script).1.verdict.cutShort = false →
      (trace ⟨message, larger⟩ script).1 = (trace ⟨message, limits⟩ script).1) ∧
    ((unlock ⟨message, limits⟩ unlocking params lock).1.cutShort = false →
      (unlock ⟨message, larger⟩ unlocking params lock).1 =
        (unlock ⟨message, limits⟩ unlocking params lock).1) := by
  have hrun := run_of_le h message script .empty
  exact ⟨hrun.steps_prefix, hrun.eq_of_whole, unlock_of_le h message unlocking params lock⟩

/-- Limits that the script uses up to the last step, value and byte are as good as the standard
ones. -/
theorem trace_of_le_tight :
    (⟨1, 1, 1, 1⟩ : Limits) ≤ Limits.standard ∧
      (trace ⟨.zero 32, ⟨1, 1, 1, 1⟩⟩ [.push 7]).1.verdict.cutShort = false ∧
      (trace ⟨.zero 32, .standard⟩ [.push 7]).1 =
        ⟨[⟨0, .push 7, .ofItems [[7]]⟩], .accepted⟩ ∧
      (unlock ⟨.zero 32, ⟨1, 1, 1, 1⟩⟩ [.push 7] [] [.nop]).1.cutShort = false ∧
      (unlock ⟨.zero 32, .standard⟩ [.push 7] [] [.nop]).1 = .accepted := by
  have hle : (⟨1, 1, 1, 1⟩ : Limits) ≤ Limits.standard := by
    intro ceiling
    cases ceiling <;> decide
  have htrace : (trace ⟨.zero 32, ⟨1, 1, 1, 1⟩⟩ [.push 7]).1.verdict.cutShort = false := rfl
  have hunlock : (unlock ⟨.zero 32, ⟨1, 1, 1, 1⟩⟩ [.push 7] [] [.nop]).1.cutShort = false := rfl
  obtain ⟨-, hsame, hsame'⟩ :=
    trace_of_le (.zero 32) ⟨1, 1, 1, 1⟩ .standard hle [.push 7] [.push 7] [] [.nop]
  exact ⟨hle, htrace, (hsame htrace).trans rfl, hunlock, (hsame' hunlock).trans rfl⟩

end Machine
end LockScript
