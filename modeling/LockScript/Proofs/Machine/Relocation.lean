import LockScript.Proofs.Machine.Lockstep
import LockScript.Proofs.Machine.Plan
import LockScript.Proofs.Machine.Unlock

/-!
A lock behind the script that loads its stack.

Unlocking loads the witness without a step and runs the lock from its own first position.  The
same comes about in one script: instructions that push the witness, and behind them the lock with
every jump moved by their number.  What an instruction does to the stack is the same at both
places, and only the position its plan comes to is moved.
-/

namespace LockScript

namespace Instruction

def relocate (offset : Nat) : Instruction → Instruction
  | jmp target => jmp (.ofNat (target.toNat + offset))
  | jnz target => jnz (.ofNat (target.toNat + offset))
  | jz target => jz (.ofNat (target.toNat + offset))
  | instruction => instruction

end Instruction

namespace Machine

/-! ## One instruction -/

namespace Plan

section

variable {α β : Type} (f : α → β)

def map : Plan α → Plan β
  | done result => done (f result)
  | fail reason => fail reason
  | step operation next => step operation fun value => (next value).map

theorem exec_map (limits : Limits) (plan : Plan α) (stack : Stack) :
    (plan.map f).exec limits stack =
      (plan.exec limits stack).map fun reached => (f reached.1, reached.2) := by
  induction plan generalizing stack with
  | done result => rfl
  | fail reason => rfl
  | step operation next ih =>
    rw [map, exec, exec]
    cases operation.apply limits stack with
    | error reason => rfl
    | ok reached => exact ih reached.1 reached.2

theorem map_popSized (size : Nat) (next : Octets size → Plan α) :
    (popSized size next).map f = popSized size fun octets => (next octets).map f := by
  rw [popSized, popSized, pop, pop, map]
  congr 1
  funext value
  cases Octets.ofBytes? size value <;> rfl

end

theorem jump_relocate {offset : Nat} {target : UInt8} (h : target.toNat + offset ≤ 255)
    (length : Nat) :
    jump (offset + length) (.ofNat (target.toNat + offset)) =
      (jump length target).map (Option.map (offset + ·)) := by
  -- the operand is one byte, and the sum still fits into it
  have hbyte : (UInt8.ofNat (target.toNat + offset)).toNat = offset + target.toNat := by
    rw [UInt8.toNat_ofNat']
    omega
  unfold jump jumpTarget
  rw [hbyte]
  by_cases htarget : target.toNat ≤ length
  · rw [if_pos htarget, if_pos (by omega)]
    rfl
  · rw [if_neg htarget, if_neg (by omega)]
    rfl

theorem ofInstruction_relocate {offset : Nat} {instruction : Instruction}
    (h : ∀ target, instruction.target? = some target → target.toNat + offset ≤ 255)
    (message : Key.Message) (length pc : Nat) :
    ofInstruction message (offset + length) (offset + pc) (instruction.relocate offset) =
      (ofInstruction message length pc instruction).map (Option.map (offset + ·)) := by
  cases instruction with
  | nop | burn | not | eq | push | pop | pushb | dup | swap | copy | drop | digest => rfl
  | jmp target => exact jump_relocate (h target rfl) length
  | jnz target | jz target =>
    have hjump := jump_relocate (h target rfl) length
    simp only [Instruction.relocate, ofInstruction, pop, map, hjump]
    congr 1
    funext condition
    split <;> rfl
  | chksig =>
    simp only [Instruction.relocate, ofInstruction, map_popSized]
    rfl

end Plan

def Effect.shift (offset : Nat) : Effect → Effect
  | next pc stack => next (offset + pc) stack
  | burned => burned

theorem perform_relocate {offset : Nat} {instruction : Instruction}
    (h : ∀ target, instruction.target? = some target → target.toNat + offset ≤ 255)
    (context : Context) (length pc : Nat) (stack : Stack) :
    perform context (offset + length) (offset + pc) stack (instruction.relocate offset) =
      (perform context length pc stack instruction).map (Effect.shift offset) := by
  rw [Plan.perform_eq_exec, Plan.perform_eq_exec, Plan.ofInstruction_relocate h, Plan.exec_map]
  match (Plan.ofInstruction context.message length pc instruction).exec context.limits stack with
  | .error reason => rfl
  | .ok (none, reached) => rfl
  | .ok (some target, reached) => rfl

/-! ## The lock at its new place -/

def Context.addSteps (context : Context) (steps : Nat) : Context :=
  { context with limits := { context.limits with maxSteps := context.limits.maxSteps + steps } }

theorem perform_addSteps (context : Context) (steps length pc : Nat) (stack : Stack)
    (instruction : Instruction) :
    perform (context.addSteps steps) length pc stack instruction =
      perform context length pc stack instruction :=
  perform_withSteps context (context.limits.maxSteps + steps) length pc stack instruction

theorem pushAll_addSteps (context : Context) (steps : Nat) (values : List Bytes) (stack : Stack) :
    stack.pushAll (context.addSteps steps).limits values =
      stack.pushAll context.limits values := by
  induction values generalizing stack with
  | nil => rfl
  | cons value rest ih =>
    have hpush : stack.push (context.addSteps steps).limits value =
        stack.push context.limits value := rfl
    rw [Stack.pushAll, Stack.pushAll, hpush]
    congr 1
    funext pushed
    exact ih pushed

def Moved (offset : Nat) (state moved : Nat × Stack) : Prop :=
  moved = (offset + state.1, state.2)

section

variable {before lock : Script}
  (h : ∀ instruction ∈ lock, ∀ target, instruction.target? = some target →
    target.toNat + before.length ≤ 255)

include h

theorem lockstep_moved (context : Context) (steps : Nat) :
    Lockstep (Moved before.length) (fun run moved => run.verdict = moved.verdict) context lock
      (context.addSteps steps) (before ++ lock.map (.relocate before.length)) := by
  intro pc stack pc' stack' hmoved
  obtain ⟨rfl, rfl⟩ := Prod.mk.inj hmoved
  have hfetch : (before ++ lock.map (.relocate before.length))[before.length + pc]? =
      lock[pc]?.map (.relocate before.length) := by
    rw [List.getElem?_append_right (Nat.le_add_right _ _), Nat.add_sub_cancel_left,
      List.getElem?_map]
  cases hpc : lock[pc]? with
  | none =>
    rw [hpc] at hfetch
    rw [pass_of_none hpc, pass_of_none hfetch]
    exact .finish rfl
  | some instruction =>
    rw [hpc] at hfetch
    have hroom := h instruction (List.mem_of_getElem? hpc)
    rw [pass_of_some hpc, pass_of_some hfetch, perform_addSteps, List.length_append,
      List.length_map, perform_relocate hroom]
    match perform context lock.length pc stack' instruction with
    | .error reason => exact .halt rfl
    | .ok .burned => exact .halt rfl
    | .ok (.next target next) => exact .go rfl fun _ _ hends => hends

theorem runFrom_relocated (context : Context) (steps budget : Nat) (stack : Stack) :
    (runFrom context lock budget 0 stack []).verdict =
      (runFrom (context.addSteps steps) (before ++ lock.map (.relocate before.length)) budget
        before.length stack []).verdict := by
  have hstart : Moved before.length (0, stack) (before.length, stack) := rfl
  refine (lockstep_moved h context steps).runFrom 0 ?_ budget hstart
  intro moved hspent
  rw [hspent rfl]

end

/-! ## The instructions that load the stack -/

theorem perform_of_pushed {instruction : Instruction} {value : Bytes}
    (h : instruction.pushed? = some value) (context : Context) (length pc : Nat) (stack : Stack) :
    perform context length pc stack instruction =
      (stack.push context.limits value).map (.next (pc + 1)) := by
  cases instruction with
  | push byte =>
    cases h
    rfl
  | pushb blob =>
    cases h
    rfl
  | _ => cases h

/-- Pushing instructions load their values, each with a step of its own, and then the run goes on
behind them. -/
theorem runFrom_load (context : Context) (before loads after : Script)
    (hpush : loads.pushOnly = true) (budget : Nat) (stack : Stack) :
    (runFrom context (before ++ (loads ++ after)) (budget + loads.length) before.length stack
        []).verdict =
      match stack.pushAll context.limits loads.pushedValues with
      | .error reason => .rejected reason
      | .ok loaded => (runFrom context (before ++ (loads ++ after)) budget
          (before ++ loads).length loaded []).verdict := by
  induction loads generalizing before stack with
  | nil =>
    rw [List.append_nil]
    rfl
  | cons instruction loads ih =>
    obtain ⟨value, hvalue, hloads, hvalues⟩ := Script.pushedValues_cons hpush
    have hfetch : (before ++ (instruction :: loads ++ after))[before.length]? =
        some instruction := by
      rw [List.getElem?_append_right (Nat.le_refl _), Nat.sub_self]
      rfl
    have hpass : pass context (before ++ (instruction :: loads ++ after)) before.length stack =
        .ofResult before.length instruction
          ((stack.push context.limits value).map (.next (before.length + 1))) := by
      rw [pass_of_some hfetch, perform_of_pushed hvalue]
    rw [hvalues, Stack.pushAll, List.length_cons, ← Nat.add_assoc]
    cases hpushed : stack.push context.limits value with
    | error reason =>
      rw [hpushed] at hpass
      rw [runFrom_of_halt hpass]
      rfl
    | ok pushed =>
      rw [hpushed] at hpass
      -- the instruction joins those before, and the run goes on behind it
      have hrest := ih (before ++ [instruction]) hloads pushed
      have hscript : before ++ [instruction] ++ (loads ++ after) =
          before ++ (instruction :: loads ++ after) := by simp
      have hbehind : before ++ [instruction] ++ loads = before ++ instruction :: loads := by simp
      have hlength : (before ++ [instruction]).length = before.length + 1 := by simp
      rw [hscript, hbehind, hlength] at hrest
      rw [runFrom_of_go hpass]
      exact hrest

/-- The instructions that push what an unlock script and parameters bring along. -/
def loading (unlocking : Script) (params : List Bytes) : Script :=
  unlocking ++ params.reverse.map .pushb

theorem length_loading (unlocking : Script) (params : List Bytes) :
    (loading unlocking params).length = unlocking.length + params.length := by
  rw [loading, List.length_append, List.length_map, List.length_reverse]

theorem pushedValues_loading (unlocking : Script) (params : List Bytes) :
    (loading unlocking params).pushedValues = witness unlocking params := by
  have hparams : Script.pushedValues (params.reverse.map .pushb) = params.reverse := by
    rw [Script.pushedValues, List.filterMap_map]
    exact List.filterMap_some
  rw [loading, Script.pushedValues_append, hparams, witness]

theorem pushOnly_loading {unlocking : Script} (h : unlocking.pushOnly = true)
    (params : List Bytes) : (loading unlocking params).pushOnly = true := by
  have hparams : Script.pushOnly (params.reverse.map .pushb) = true := by
    rw [Script.pushOnly, List.all_map]
    exact List.all_eq_true.2 fun _ _ => rfl
  rw [loading, Script.pushOnly_append, h, hparams]
  rfl

theorem execute_loading (context : Context) {unlocking : Script} (hpush : unlocking.pushOnly = true)
    (params : List Bytes) (after : Script) :
    (execute (context.addSteps (loading unlocking params).length)
        (loading unlocking params ++ after)).1 =
      match Stack.empty.pushAll context.limits (witness unlocking params) with
      | .error reason => .rejected reason
      | .ok loaded => (runFrom (context.addSteps (loading unlocking params).length)
          (loading unlocking params ++ after) context.limits.maxSteps
          (loading unlocking params).length loaded []).verdict := by
  have hload := runFrom_load (context.addSteps (loading unlocking params).length) []
    (loading unlocking params) after (pushOnly_loading hpush params) context.limits.maxSteps .empty
  rw [pushedValues_loading, pushAll_addSteps, List.nil_append, List.nil_append] at hload
  exact hload

/-- Unlocking runs the lock as one script does that pushes the witness and then is the lock, moved
behind these instructions and given a step for each of them. -/
theorem unlock_eq_execute_relocated (context : Context) (unlocking : Script) (params : List Bytes)
    (lock : Script) (hpush : unlocking.pushOnly = true) (hchecks : lock.signatureChecks < 6)
    (hjumps : ∀ instruction ∈ lock, ∀ target, instruction.target? = some target →
      target.toNat + (unlocking.length + params.length) ≤ 255) :
    (unlock context unlocking params lock).1 =
      (execute (context.addSteps (unlocking.length + params.length))
        (unlocking ++ params.reverse.map .pushb ++
          lock.map (.relocate (unlocking.length + params.length)))).1 := by
  have hfew : lock.tooManyChecks = false := by
    rw [Script.tooManyChecks, Script.maxSignatureChecks, decide_eq_false_iff_not]
    omega
  rw [← length_loading] at hjumps ⊢
  rw [← loading, execute_loading context hpush, unlock_eq_load hfew hpush]
  cases Stack.empty.pushAll context.limits (witness unlocking params) with
  | error reason => rfl
  | ok loaded => exact runFrom_relocated hjumps context _ context.limits.maxSteps loaded

/-- A jump over an instruction that would burn, moved behind two pushes. -/
theorem unlock_eq_execute_jmp :
    Script.pushOnly [.push 1] = true ∧ Script.signatureChecks [.pop, .jmp 3, .burn] < 6 ∧
      (unlock {} [.push 1] [[2]] [.pop, .jmp 3, .burn]).1 =
        (execute (Context.addSteps {} 2) [.push 1, .pushb [2], .pop, .jmp 5, .burn]).1 ∧
      (unlock {} [.push 1] [[2]] [.pop, .jmp 3, .burn]).1 = .accepted := by
  refine ⟨rfl, by decide, ?_, by decide⟩
  refine unlock_eq_execute_relocated {} [.push 1] [[2]] [.pop, .jmp 3, .burn] rfl (by decide) ?_
  intro instruction hmem target htarget
  simp only [List.mem_cons, List.not_mem_nil, or_false] at hmem
  rcases hmem with rfl | rfl | rfl
  · cases htarget
  · cases htarget
    decide
  · cases htarget

end Machine
end LockScript
