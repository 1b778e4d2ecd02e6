import LockScript.Proofs.Machine.Lockstep
import LockScript.Proofs.Machine.Plan
import LockScript.Proofs.Machine.Unlock

/-!
Values at the bottom.

Depths are counted from the top of the stack, so values put in below are out of sight for every
operation that finds what it asks for.  They bring the ceilings nearer, and they are still there
at the end.  A run on the taller stack therefore makes the same steps until a ceiling stops it,
and where the other run ends on a single value it ends on too many.
-/

namespace LockScript
namespace Machine

/-- The reasons an operation is turned down for when it asks for a value that is not there. -/
def Reason.isMissing : Reason → Bool
  | stackUnderflow | indexOutOfBound => true
  | _ => false

/-- The reasons an instruction has of its own, beside those of the operations it is made of. -/
def Reason.isFault : Reason → Bool
  | typeMismatch | invalidJumpTarget => true
  | _ => false

theorem Reason.isMissing_iff {reason : Reason} :
    reason.isMissing = true ↔ reason = stackUnderflow ∨ reason = indexOutOfBound := by
  cases reason <;> simp [isMissing]

theorem Reason.isCeiling_iff {reason : Reason} :
    reason.isCeiling = true ↔ reason ∈ [valueTooLarge, stackOverflow, outOfMemory] := by
  cases reason <;> simp [isCeiling]

/-! ## Plans on a taller stack -/

/-- A result on a stack and the result with `below` under that stack.  They agree unless a value
was missing on the first or a ceiling was hit on the second. -/
inductive Framed {α : Type} (below : List Bytes) :
    Except Reason (α × Stack) → Except Reason (α × Stack) → Prop where
  | ok (result : α) (items : List Bytes) :
    Framed below (.ok (result, .ofItems items)) (.ok (result, .ofItems (items ++ below)))
  | fault {reason : Reason} (h : reason.isFault = true) :
    Framed below (.error reason) (.error reason)
  | missing {reason : Reason} (h : reason.isMissing = true) (second : Except Reason (α × Stack)) :
    Framed below (.error reason) second
  | ceiling {reason : Reason} (h : reason.isCeiling = true) (first : Except Reason (α × Stack)) :
    Framed below first (.error reason)

theorem push_of_push_append {limits : Limits} {value : Bytes} {items below : List Bytes}
    {stack : Stack} (h : (Stack.ofItems (items ++ below)).push limits value = .ok stack) :
    stack = .ofItems (value :: (items ++ below)) ∧
      (Stack.ofItems items).push limits value = .ok (.ofItems (value :: items)) := by
  have hweight : weight (value :: items) ≤ weight (value :: (items ++ below)) :=
    weight_le_of_sublist ((List.sublist_append_left items below).cons_cons value)
  have hlength : (value :: items).length ≤ (value :: (items ++ below)).length := by
    rw [List.length_cons, List.length_cons, List.length_append]
    omega
  -- no ceiling is met with the values below, so none is met without them
  rw [Stack.push_ofItems] at h ⊢
  split at h
  · cases h
  split at h
  · cases h
  split at h
  · cases h
  cases h
  refine ⟨rfl, ?_⟩
  rw [if_neg (by omega), if_neg (by omega), if_neg (by omega)]

theorem Operation.apply_framed (limits : Limits) (operation : Operation)
    (items below : List Bytes) :
    Framed below (operation.apply limits (.ofItems items))
      (operation.apply limits (.ofItems (items ++ below))) := by
  cases operation with
  | push value =>
    rw [apply, apply]
    cases hpush : (Stack.ofItems (items ++ below)).push limits value with
    | error reason => exact .ceiling (Stack.isCeiling_of_push_error hpush) _
    | ok stack =>
      obtain ⟨rfl, hbare⟩ := push_of_push_append hpush
      rw [hbare]
      exact .ok [] (value :: items)
  | pop =>
    rw [apply, apply]
    cases items with
    | nil => exact .missing rfl _
    | cons value items =>
      rw [List.cons_append, Stack.pop_ofItems_cons, Stack.pop_ofItems_cons]
      exact .ok value items
  | get index =>
    rw [apply, apply, Stack.get, Stack.get, Stack.items_ofItems, Stack.items_ofItems]
    cases hindex : items[index]? with
    | none => exact .missing rfl _
    | some value =>
      have hlength := (List.getElem?_eq_some_iff.1 hindex).1
      rw [List.getElem?_append_left hlength, hindex]
      exact .ok value items
  | remove index =>
    rw [apply, apply]
    cases hindex : items[index]? with
    | none =>
      rw [Stack.remove_of_none (by simpa using hindex)]
      exact .missing rfl _
    | some value =>
      have hlength := (List.getElem?_eq_some_iff.1 hindex).1
      have hbelow : (items ++ below)[index]? = some value := by
        rw [List.getElem?_append_left hlength, hindex]
      rw [Stack.remove_ofItems_of_some hindex, Stack.remove_ofItems_of_some hbelow,
        List.eraseIdx_append_of_lt_length hlength]
      exact .ok [] (items.eraseIdx index)

namespace Plan

/-- Where the plan itself gives up, it is for a fault of the instruction. -/
def FailsOnFault {α : Type} : Plan α → Prop
  | done _ => True
  | fail reason => reason.isFault = true
  | step _ next => ∀ value, (next value).FailsOnFault

theorem Leaves.failsOnFault {α : Type} {holds : Except Reason α → Prop} {plan : Plan α}
    (h : plan.Leaves holds) (hfault : ∀ reason, holds (.error reason) → reason.isFault = true) :
    plan.FailsOnFault := by
  induction plan with
  | done _ => trivial
  | fail reason => exact hfault reason h
  | step _ next ih => exact fun value => ih value (h value)

theorem failsOnFault_ofInstruction (message : Key.Message) (length pc : Nat)
    (instruction : Instruction) : (ofInstruction message length pc instruction).FailsOnFault := by
  refine (leaves_ofInstruction message length pc instruction).failsOnFault ?_
  intro reason hleaf
  cases hleaf with
  | invalidJumpTarget | typeMismatch => rfl

theorem exec_framed {α : Type} (limits : Limits) {plan : Plan α} (h : plan.FailsOnFault)
    (items below : List Bytes) :
    Framed below (plan.exec limits (.ofItems items))
      (plan.exec limits (.ofItems (items ++ below))) := by
  induction plan generalizing items with
  | done result => exact .ok result items
  | fail reason => exact .fault h
  | step operation next ih =>
    rw [exec, exec]
    have happly := operation.apply_framed limits items below
    generalize operation.apply limits (.ofItems items) = first at happly
    generalize operation.apply limits (.ofItems (items ++ below)) = second at happly
    cases happly with
    | ok value reached => exact ih value (h value) reached
    | fault hreason => exact .fault hreason
    | missing hreason => exact .missing hreason _
    | ceiling hreason => exact .ceiling hreason _

end Plan

/-! ## Runs on a taller stack -/

/-- What becomes of a verdict when values are put in below. -/
inductive Padded : Verdict → Verdict → Prop where
  /-- The script came to its end. -/
  | ended {verdict : Verdict}
    (h : verdict ∈ [.accepted, .rejected .falseResult, .rejected .uncleanStack]) :
    Padded verdict (.rejected .uncleanStack)
  /-- The run was over before. -/
  | kept {verdict : Verdict}
    (h : verdict ∈ [.burned, .rejected .invalidJumpTarget, .rejected .typeMismatch,
      .rejected .stepLimitExceeded, .rejected .tooManySignatureChecks]) :
    Padded verdict verdict
  | missing {reason : Reason} (h : reason.isMissing = true) (verdict : Verdict) :
    Padded (.rejected reason) verdict
  | ceiling {reason : Reason} (h : reason.isCeiling = true) (verdict : Verdict) :
    Padded verdict (.rejected reason)

theorem padded_of_isFault {reason : Reason} (h : reason.isFault = true) :
    Padded (.rejected reason) (.rejected reason) := by
  cases reason with
  | typeMismatch | invalidJumpTarget => exact .kept (by simp)
  | _ => cases h

theorem conclude_padded (items : List Bytes) {below : List Bytes} (h : below ≠ []) :
    Padded (conclude (.ofItems items)) (conclude (.ofItems (items ++ below))) := by
  obtain ⟨lowest, others, rfl⟩ := List.exists_cons_of_ne_nil h
  match items with
  | [] => exact .missing rfl _
  | [value] =>
    have hend : conclude (.ofItems [value]) = if isTrue value then .accepted
      else .rejected .falseResult := rfl
    rw [hend]
    by_cases htrue : isTrue value = true
    · rw [if_pos htrue]
      exact .ended (by simp)
    · rw [if_neg htrue]
      exact .ended (by simp)
  | _ :: _ :: _ =>
    -- there were too many values without those below
    exact .ended (by simp [conclude])

/-- The same position, and the same stack but for the values at the bottom. -/
def Above (below : List Bytes) : Nat × Stack → Nat × Stack → Prop
  | (pc, stack), (pc', taller) =>
    pc = pc' ∧ ∃ items, stack = .ofItems items ∧ taller = .ofItems (items ++ below)

theorem lockstep_above (context : Context) (script : Script) {below : List Bytes}
    (h : below ≠ []) :
    Lockstep (Above below) (fun run padded => Padded run.verdict padded.verdict) context script
      context script := by
  intro pc stack pc' stack' habove
  obtain ⟨rfl, items, rfl, rfl⟩ := habove
  cases hpc : script[pc]? with
  | none =>
    rw [pass_of_none hpc, pass_of_none hpc]
    exact .finish (conclude_padded items h)
  | some instruction =>
    rw [pass_of_some hpc, pass_of_some hpc, Plan.perform_eq_exec, Plan.perform_eq_exec]
    have hexec := Plan.exec_framed context.limits
      (Plan.failsOnFault_ofInstruction context.message script.length pc instruction) items below
    generalize (Plan.ofInstruction context.message script.length pc instruction).exec
      context.limits (.ofItems items) = first at hexec
    generalize (Plan.ofInstruction context.message script.length pc instruction).exec
      context.limits (.ofItems (items ++ below)) = second at hexec
    cases hexec with
    | ok target reached =>
      cases target with
      | none => exact .halt (.kept (by simp [Run.ended]))
      | some target => exact .go ⟨rfl, reached, rfl, rfl⟩ fun _ _ hends => hends
    | fault hreason => exact .halt (padded_of_isFault hreason)
    | missing hreason => exact inStep_of_first_error (fun _ => .missing hreason _) _
    | ceiling hreason => exact inStep_of_second_error (fun _ => .ceiling hreason _) _

theorem run_padded (context : Context) (script : Script) (items : List Bytes)
    {below : List Bytes} (h : below ≠ []) :
    Padded (run context script (.ofItems items)).verdict
      (run context script (.ofItems (items ++ below))).verdict := by
  have hstart : Above below (0, .ofItems items) (0, .ofItems (items ++ below)) :=
    ⟨rfl, items, rfl, rfl⟩
  refine (lockstep_above context script h).runFrom 0 ?_ context.limits.maxSteps hstart
  intro padded hspent
  rw [hspent rfl]
  exact .kept (by simp [Run.exhausted, Run.ended])

/-! ## Witnesses -/

theorem pushedValues_ne_nil {script : Script} (hpush : script.pushOnly = true)
    (hne : script ≠ []) : script.pushedValues ≠ [] := by
  obtain ⟨first, rest, rfl⟩ := List.exists_cons_of_ne_nil hne
  obtain ⟨value, -, -, hvalues⟩ := Script.pushedValues_cons hpush
  rw [hvalues]
  exact List.cons_ne_nil _ _

theorem witness_append (extra unlocking : Script) (params : List Bytes) :
    witness (extra ++ unlocking) params = extra.pushedValues ++ witness unlocking params := by
  rw [witness, witness, Script.pushedValues_append, List.append_assoc]

theorem unlock_of_not_within {context : Context} {unlocking lock : Script} {params : List Bytes}
    (hchecks : lock.tooManyChecks = false) (hpush : unlocking.pushOnly = true)
    (hwithin : ¬ (Stack.ofItems (witness unlocking params).reverse).Within context.limits) :
    ∃ reason, reason.isCeiling = true ∧
      (unlock context unlocking params lock).1 = .rejected reason := by
  have hempty := Stack.within_empty context.limits
  cases hload : Stack.empty.pushAll context.limits (witness unlocking params) with
  | error reason =>
    refine ⟨reason, Stack.isCeiling_of_pushAll_error hload, ?_⟩
    rw [unlock_eq_load hchecks hpush, hload]
  | ok stack =>
    rw [Stack.empty_eq_ofItems] at hempty hload
    rw [Stack.pushAll_ofItems_eq_ok_iff hempty, List.append_nil] at hload
    exact absurd hload.2 hwithin

theorem unlock_padded_verdict (context : Context) {extra unlocking : Script}
    (params : List Bytes) (lock : Script) (hextra : extra.pushOnly = true) (hne : extra ≠ [])
    (hpush : unlocking.pushOnly = true) :
    Padded (unlock context unlocking params lock).1
      (unlock context (extra ++ unlocking) params lock).1 := by
  have hboth : (extra ++ unlocking).pushOnly = true := by
    rw [Script.pushOnly_append, hextra, hpush]
    rfl
  cases hchecks : lock.tooManyChecks with
  | true =>
    simp only [unlock, hchecks, if_true]
    exact .kept (by simp)
  | false =>
    by_cases hwithin :
        (Stack.ofItems (witness (extra ++ unlocking) params).reverse).Within context.limits
    · rw [unlock_eq_run hchecks hboth hwithin]
      -- what is pushed first lies at the bottom
      rw [witness_append, List.reverse_append] at hwithin ⊢
      have hless := hwithin.sublist (List.sublist_append_left _ _)
      rw [unlock_eq_run hchecks hpush hless]
      apply run_padded
      rw [Ne, List.reverse_eq_nil_iff]
      exact pushedValues_ne_nil hextra hne
    · obtain ⟨reason, hreason, hverdict⟩ := unlock_of_not_within hchecks hboth hwithin
      rw [hverdict]
      exact .ceiling hreason _

/-- A witness cannot be padded.  With more values pushed in front of it, a run that missed no value
meets a ceiling, or it ends as before, or it comes to the end of the script and leaves too much. -/
theorem unlock_padded (context : Context) (extra unlocking : Script) (params : List Bytes)
    (lock : Script) (hextra : extra.pushOnly = true) (hne : extra ≠ [])
    (hpush : unlocking.pushOnly = true) :
    ((unlock context unlocking params lock).1 ≠ .rejected .stackUnderflow →
      (unlock context unlocking params lock).1 ≠ .rejected .indexOutOfBound →
      (∃ reason, reason ∈ [Reason.valueTooLarge, .stackOverflow, .outOfMemory] ∧
        (unlock context (extra ++ unlocking) params lock).1 = .rejected reason) ∨
      ((unlock context unlocking params lock).1 ∈
          [.accepted, .rejected .falseResult, .rejected .uncleanStack] ∧
        (unlock context (extra ++ unlocking) params lock).1 = .rejected .uncleanStack) ∨
      ((unlock context unlocking params lock).1 ∈
          [.burned, .rejected .invalidJumpTarget, .rejected .typeMismatch,
            .rejected .stepLimitExceeded, .rejected .tooManySignatureChecks] ∧
        (unlock context (extra ++ unlocking) params lock).1 =
          (unlock context unlocking params lock).1)) ∧
    ((unlock context unlocking params lock).1 = .accepted →
      (unlock context (extra ++ unlocking) params lock).1 ≠ .accepted) := by
  have hpadded := unlock_padded_verdict context params lock hextra hne hpush
  generalize (unlock context unlocking params lock).1 = verdict at hpadded
  generalize (unlock context (extra ++ unlocking) params lock).1 = padded at hpadded
  cases hpadded with
  | ended h => exact ⟨fun _ _ => .inr (.inl ⟨h, rfl⟩), fun _ => by simp⟩
  | kept h =>
    refine ⟨fun _ _ => .inr (.inr ⟨h, rfl⟩), ?_⟩
    intro haccepted
    subst haccepted
    simp at h
  | missing h =>
    refine ⟨fun hunderflow hindex => ?_, fun haccepted => by cases haccepted⟩
    rcases Reason.isMissing_iff.1 h with rfl | rfl
    · exact absurd rfl hunderflow
    · exact absurd rfl hindex
  | ceiling h =>
    exact ⟨fun _ _ => .inl ⟨_, Reason.isCeiling_iff.1 h, rfl⟩, fun _ => by simp⟩

theorem unlock_padded_push :
    Script.pushOnly [.push 9] = true ∧ ([.push 9] : Script) ≠ [] ∧
      Script.pushOnly [.push 5] = true ∧
      (unlock {} [.push 5] [] [.push 5, .eq]).1 = .accepted ∧
      ((∃ reason, reason ∈ [Reason.valueTooLarge, .stackOverflow, .outOfMemory] ∧
          (unlock {} [.push 9, .push 5] [] [.push 5, .eq]).1 = .rejected reason) ∨
        (unlock {} [.push 9, .push 5] [] [.push 5, .eq]).1 = .rejected .uncleanStack) ∧
      (unlock {} [.push 9, .push 5] [] [.push 5, .eq]).1 ≠ .accepted := by
  have haccepted : (unlock {} [.push 5] [] [.push 5, .eq]).1 = .accepted := by decide
  obtain ⟨hcases, hnot⟩ :=
    unlock_padded {} [.push 9] [.push 5] [] [.push 5, .eq] rfl (by simp) rfl
  refine ⟨rfl, by simp, rfl, haccepted, ?_, hnot haccepted⟩
  rcases hcases (by simp [haccepted]) (by simp [haccepted]) with
    hceiling | ⟨-, hunclean⟩ | ⟨hkept, -⟩
  · exact .inl hceiling
  · exact .inr hunclean
  · simp [haccepted] at hkept

end Machine
end LockScript
