import LockScript.Proofs.Machine.Budget

/-!
What the log tells about a run.

The records are made from the counts that the stack keeps beside its values.  Here they are
written down again from the values themselves.  Since every stack of a run counts right, executing
a script records exactly the steps that tracing returns, and the rejection behind them.  A lock
that is opened tells the same story of its own run.  A rejection made before the run stands alone
in the log, and the one for too many signature checks leaves nothing there.
-/

namespace LockScript
namespace Machine

/-- The record of an instruction completed at a position, counted from the values it left. -/
def account (pc : Nat) (instruction : Instruction) (values : List Bytes) : Log.Record where
  level := .trace
  target := "vm"
  text := "#" ++ toString pc ++ " " ++ instruction.text ++ " depth=" ++ toString values.length ++
    " memory=" ++ toString (weight values)

/-- The record of a rejection. -/
def rejection (reason : Reason) : Log.Record where
  level := .debug
  target := "vm"
  text := "Script rejected: " ++ reason.name

theorem Reason.name_injective {reason other : Reason} (h : reason.name = other.name) :
    reason = other := by
  cases reason <;> cases other <;> first | rfl | exact absurd h (by decide)

def accounts (steps : List Step) : List Log.Record :=
  steps.map fun step => account step.pc step.instruction step.stack.items

/-- The records tell of the steps, one after the other, then of the rejection if there is one, and
of nothing else. -/
structure Story (steps : List Step) (logged : Log.Logged Verdict) : Prop where
  rejected : ∀ reason, logged.1 = .rejected reason → logged.2 = accounts steps ++ [rejection reason]
  other : (∀ reason, logged.1 ≠ .rejected reason) → logged.2 = accounts steps

theorem story_records (steps : List Step) (verdict : Verdict) :
    Story steps (verdict, accounts steps ++ verdict.records) where
  rejected reason h := by
    rw [show verdict = .rejected reason from h]
    rfl
  other h := by
    cases verdict with
    | accepted | burned => exact List.append_nil _
    | rejected reason => exact absurd rfl (h reason)

/-! ## The counts -/

theorem record_eq_account {limits : Limits} {step : Step} (h : step.stack.Within limits) :
    step.record = account step.pc step.instruction step.stack.items := by
  rw [Step.record, account, h.memory_eq, ← step.stack.length_items]
  rfl

theorem Ends.within {context : Context} {script : Script} {used pc : Nat} {stack : Stack}
    {steps : List Step} {ending : Ending} (h : Ends context script used pc stack steps ending)
    (hstack : stack.Within context.limits) :
    ∀ step ∈ steps, step.stack.Within context.limits := by
  induction h with
  | finish | limit | fail | burn => nofun
  | go _ _ hperform _ ih =>
    have hnext := within_of_perform hstack hperform
    intro step hstep
    rcases List.mem_cons.1 hstep with rfl | hstep
    · exact hnext
    · exact ih hnext step hstep

theorem run_logged {context : Context} {stack : Stack} (script : Script)
    (h : stack.Within context.limits) :
    Story (run context script stack).steps (run context script stack).logged := by
  obtain ⟨ending, hends⟩ := exists_ends_run context script stack
  have hrecords : (run context script stack).steps.map Step.record =
      accounts (run context script stack).steps :=
    List.map_congr_left fun step hstep => record_eq_account (hends.within h step hstep)
  rw [Run.logged, hrecords]
  exact story_records _ _

/-! ## Locks -/

section

variable {context : Context} {unlocking lock : Script} {params : List Bytes}

theorem run_ne_tooManySignatureChecks (context : Context) (script : Script) (stack : Stack) :
    (run context script stack).verdict ≠ .rejected .tooManySignatureChecks := by
  intro h
  obtain ⟨ending, hends⟩ := exists_ends_run context script stack
  have hverdict : ending.verdict = .rejected .tooManySignatureChecks := by
    rw [← h, hends.run_eq]
  have hending := hends.eq_outOfSteps hverdict rfl fun last => conclude_ne last (by decide)
  rw [hending] at hverdict
  cases hverdict

theorem unlock_eq_tooManySignatureChecks_iff :
    (unlock context unlocking params lock).1 = .rejected .tooManySignatureChecks ↔
      lock.tooManyChecks = true := by
  constructor
  · intro h
    unfold unlock at h
    split at h
    · assumption
    split at h
    · cases h
    split at h
    · rename_i reason hload
      have hceiling := Stack.isCeiling_of_pushAll_error hload
      cases h
      cases hceiling
    · exact absurd h (run_ne_tooManySignatureChecks _ _ _)
  · intro h
    rw [unlock, if_pos h]

theorem within_of_load {values : List Bytes} {stack : Stack}
    (h : Stack.empty.pushAll context.limits values = .ok stack) :
    stack.Within context.limits := by
  have hempty := Stack.within_empty context.limits
  rw [Stack.empty_eq_ofItems] at hempty h
  rw [Stack.pushAll_ofItems_eq_ok_iff hempty] at h
  obtain ⟨rfl, hwithin⟩ := h
  exact hwithin

end

/-- The log and the trace tell the same story.  Executing records the steps that tracing returns
and the rejection behind them, and tracing only the rejection.  No two reasons go by one name, so
the record of a rejection tells its reason.  A lock with too many signature checks leaves no
record.  Any other is rejected with one record if what is brought along is no list of pushes or
does not fit, and tells the story of its run if it does. -/
theorem log_tells_trace (context : Context) (script unlocking : Script) (params : List Bytes)
    (lock : Script) :
    (execute context script).1 = (trace context script).1.verdict ∧
    Story (trace context script).1.steps (execute context script) ∧
    Story [] ((trace context script).1.verdict, (trace context script).2) ∧
    (∀ reason other : Reason, reason.name = other.name → reason = other) ∧
    ((unlock context unlocking params lock).1 = .rejected .tooManySignatureChecks →
      (unlock context unlocking params lock).2 = []) ∧
    ((unlock context unlocking params lock).1 ≠ .rejected .tooManySignatureChecks →
      (unlocking.pushOnly = false →
        (unlock context unlocking params lock).1 = .rejected .invalidUnlockScript ∧
        Story [] (unlock context unlocking params lock)) ∧
      (unlocking.pushOnly = true →
        (∀ reason,
          Stack.empty.pushAll context.limits (witness unlocking params) = .error reason →
          (unlock context unlocking params lock).1 = .rejected reason ∧
          Story [] (unlock context unlocking params lock)) ∧
        (∀ stack, Stack.empty.pushAll context.limits (witness unlocking params) = .ok stack →
          (unlock context unlocking params lock).1 = (run context lock stack).verdict ∧
          Story (run context lock stack).steps (unlock context unlocking params lock)))) := by
  refine ⟨rfl, run_logged script (Stack.within_empty _), story_records [] _,
    fun _ _ => Reason.name_injective, ?_, ?_⟩
  · intro h
    rw [unlock_eq_tooManySignatureChecks_iff] at h
    rw [unlock, if_pos h]
  · intro h
    rw [Ne, unlock_eq_tooManySignatureChecks_iff] at h
    refine ⟨?_, ?_⟩
    · intro hpush
      have hlogged : unlock context unlocking params lock =
          Verdict.logged (.rejected .invalidUnlockScript) := by
        rw [unlock, if_neg h, hpush]
        rfl
      rw [hlogged]
      exact ⟨rfl, story_records [] _⟩
    · intro hpush
      refine ⟨?_, ?_⟩
      · intro reason hload
        have hlogged : unlock context unlocking params lock =
            Verdict.logged (.rejected reason) := by
          rw [unlock, if_neg h, hpush, hload]
          rfl
        rw [hlogged]
        exact ⟨rfl, story_records [] _⟩
      · intro stack hload
        have hlogged : unlock context unlocking params lock =
            (run context lock stack).logged := by
          rw [unlock, if_neg h, hpush, hload]
          rfl
        rw [hlogged]
        exact ⟨rfl, run_logged lock (within_of_load hload)⟩

/-- A lock that ends on a false value tells of its step and of the rejection, one that is brought
something else than pushes only of the rejection, and one with too many checks of nothing. -/
theorem log_of_locks :
    (unlock {} [.push 1] [] [.not]).2 = [account 0 .not [[]], rejection .falseResult] ∧
    (unlock {} [.nop] [] [.not]).2 = [rejection .invalidUnlockScript] ∧
    (unlock {} [.nop] [] (List.replicate 6 .chksig)).2 = [] := by
  have hstack : Stack.empty.pushAll Limits.standard (witness [.push 1] []) =
      .ok (.ofItems [[1]]) := rfl
  obtain ⟨-, -, -, -, -, hrun⟩ := log_tells_trace {} [] [.push 1] [] [.not]
  obtain ⟨-, -, -, -, -, hinvalid⟩ := log_tells_trace {} [] [.nop] [] [.not]
  obtain ⟨-, -, -, -, hmany, -⟩ := log_tells_trace {} [] [.nop] [] (List.replicate 6 .chksig)
  refine ⟨?_, ?_, ?_⟩
  · have hstory := (((hrun (by decide)).2 (by decide)).2 _ hstack).2
    exact hstory.rejected .falseResult (by decide)
  · have hstory := ((hinvalid (by decide)).1 (by decide)).2
    exact hstory.rejected .invalidUnlockScript (by decide)
  · exact hmany (by decide)

end Machine
end LockScript
