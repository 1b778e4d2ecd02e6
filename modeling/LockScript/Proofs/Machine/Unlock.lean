import LockScript.Machine.Execute
import LockScript.Proofs.Machine.Loop
import LockScript.Proofs.Machine.Within

/-!
What it takes to open a lock.

A lock runs on the values that were brought along, once these have passed the checks
made before.  A lock without instructions shows what that comes to: on its own an empty
script is turned down, since its end finds nothing on the stack, but as a lock it ends
on what was brought along, and a single true value opens it.
-/

namespace LockScript
namespace Machine

section

variable {context : Context} {unlocking lock : Script} {params : List Bytes}

theorem unlock_eq_run (hchecks : lock.tooManyChecks = false) (hpush : unlocking.pushOnly = true)
    (hwithin : (Stack.ofItems (witness unlocking params).reverse).Within context.limits) :
    unlock context unlocking params lock =
      (run context lock (.ofItems (witness unlocking params).reverse)).logged := by
  have hload : Stack.empty.pushAll context.limits (witness unlocking params) =
      .ok (.ofItems (witness unlocking params).reverse) := by
    have hempty := Stack.within_empty context.limits
    rw [Stack.empty_eq_ofItems] at hempty ⊢
    rw [Stack.pushAll_ofItems_eq_ok_iff hempty, List.append_nil]
    exact ⟨rfl, hwithin⟩
  simp only [unlock, hchecks, hpush, hload, Bool.false_eq_true, if_false, Bool.not_true]

theorem unlock_eq_load (hchecks : lock.tooManyChecks = false)
    (hpush : unlocking.pushOnly = true) :
    (unlock context unlocking params lock).1 =
      match Stack.empty.pushAll context.limits (witness unlocking params) with
      | .error reason => .rejected reason
      | .ok stack => (run context lock stack).verdict := by
  simp only [unlock, hchecks, hpush, Bool.false_eq_true, if_false, Bool.not_true]
  cases Stack.empty.pushAll context.limits (witness unlocking params) <;> rfl

theorem unlock_eq_accepted_iff :
    (unlock context unlocking params lock).1 = .accepted ↔
      lock.tooManyChecks = false ∧ unlocking.pushOnly = true ∧
        (Stack.ofItems (witness unlocking params).reverse).Within context.limits ∧
        (run context lock (.ofItems (witness unlocking params).reverse)).verdict = .accepted := by
  constructor
  · intro h
    unfold unlock at h
    split at h
    · cases h
    rename_i hchecks
    split at h
    · cases h
    rename_i hpush
    split at h
    · cases h
    rename_i stack hload
    have hempty := Stack.within_empty context.limits
    rw [Stack.empty_eq_ofItems] at hempty hload
    rw [Stack.pushAll_ofItems_eq_ok_iff hempty, List.append_nil] at hload
    obtain ⟨rfl, hwithin⟩ := hload
    exact ⟨Bool.eq_false_iff.2 hchecks, by simpa using hpush, hwithin, h⟩
  · intro hparts
    obtain ⟨hchecks, hpush, hwithin, hrun⟩ := hparts
    rw [unlock_eq_run hchecks hpush hwithin]
    exact hrun

end

theorem conclude_ofItems_eq_accepted_iff {items : List Bytes} :
    conclude (.ofItems items) = .accepted ↔ ∃ value, items = [value] ∧ value ≠ [] := by
  match items with
  | [] => simp [conclude, Stack.ofItems]
  | [[]] => simp [conclude, Stack.ofItems, isTrue]
  | [byte :: value] => simp [conclude, Stack.ofItems, isTrue]
  | _ :: _ :: _ => simp [conclude, Stack.ofItems]

/-- Exactly a single true value that fits opens the empty lock. -/
theorem unlock_nil_eq_accepted_iff (context : Context) (unlocking : Script)
    (params : List Bytes) :
    (unlock context unlocking params []).1 = .accepted ↔
      unlocking.pushOnly = true ∧
        ∃ value, witness unlocking params = [value] ∧ value ≠ [] ∧
          value.length ≤ context.limits.maxValueSize ∧ 1 ≤ context.limits.maxStackDepth ∧
          value.length ≤ context.limits.maxMemory := by
  have hrun : ∀ stack, (run context [] stack).verdict = conclude stack := by
    intro stack
    rw [run, runFrom_end rfl]
  rw [unlock_eq_accepted_iff, hrun, conclude_ofItems_eq_accepted_iff,
    Stack.within_ofItems_iff]
  constructor
  · intro hparts
    obtain ⟨-, hpush, ⟨hmemory, hdepth, hsize⟩, value, hvalue, hne⟩ := hparts
    refine ⟨hpush, value, List.reverse_eq_iff.1 hvalue, hne, ?_, ?_, ?_⟩
    · exact hsize value (by simp [hvalue])
    · simpa [hvalue] using hdepth
    · simpa [hvalue] using hmemory
  · intro hparts
    obtain ⟨hpush, value, hvalue, hne, hsize, hdepth, hmemory⟩ := hparts
    refine ⟨rfl, hpush, ?_, value, by rw [hvalue]; rfl, hne⟩
    simpa [hvalue] using ⟨hmemory, hdepth, hsize⟩

/-- One byte pushed by the spender is all that the empty lock asks for. -/
theorem unlock_nil_push_accepted : (unlock {} [.push 1] [] []).1 = .accepted := by decide

end Machine
end LockScript
