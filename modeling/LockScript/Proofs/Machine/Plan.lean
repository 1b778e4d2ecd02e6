import LockScript.Machine.Run
import LockScript.Proofs.Machine.Within
import LockScript.Proofs.Basic

/-!
Instructions as plans.

`perform` carries out an instruction as a whole, and the stacks it goes through in
between are gone when it ends.  A `Plan` keeps the operations apart: it is what is
done to the stack, one operation after the other, each of which may depend on the
values that came off before.  `exec` carries a plan out and `visits` lists the
stack behind each of its operations.  Both read the same plan, and `perform` is
`exec` of the plan of the instruction, so a fact about the four operations becomes
a fact about all instructions by one induction over plans.  What an instruction can
come to, where it leads and which faults it has of its own, is said once, by `Leaf`.
-/

namespace LockScript

/-- The position that a jump names. -/
def Instruction.target? : Instruction → Option UInt8
  | jmp target | jnz target | jz target => some target
  | _ => none

namespace Machine

inductive Operation where
  | push (value : Bytes)
  | pop
  | get (index : Nat)
  | remove (index : Nat)
deriving DecidableEq, Repr

/-- Carries out an operation.  Beside the stack it hands back the value that was asked for, and the
empty one where none was. -/
def Operation.apply (limits : Limits) : Operation → Stack → Except Reason (Bytes × Stack)
  | push value, stack => do return ([], ← stack.push limits value)
  | pop, stack => stack.pop
  | get index, stack => do return (← stack.get index, stack)
  | remove index, stack => do return ([], ← stack.remove index)

/-- Operations on the stack, in order, and what they come to. -/
inductive Plan (α : Type) where
  | done (result : α)
  | fail (reason : Reason)
  | step (operation : Operation) (next : Bytes → Plan α)

namespace Plan

section

variable {α : Type}

def exec (limits : Limits) : Plan α → Stack → Except Reason (α × Stack)
  | done result, stack => .ok (result, stack)
  | fail reason, _ => .error reason
  | step operation next, stack =>
    match operation.apply limits stack with
    | .error reason => .error reason
    | .ok (value, stack) => (next value).exec limits stack

/-- The stacks of a plan on its way: the one it starts with and the one behind each operation.  An
operation that fails leaves the stack as it was, and nothing comes after it. -/
def visits (limits : Limits) : Plan α → Stack → List Stack
  | done _, stack => [stack]
  | fail _, stack => [stack]
  | step operation next, stack =>
    stack ::
      match operation.apply limits stack with
      | .error _ => []
      | .ok (value, stack) => (next value).visits limits stack

/-! ## The plans of the machine -/

def push (value : Bytes) (next : Plan α) : Plan α := step (.push value) fun _ => next

def pop (next : Bytes → Plan α) : Plan α := step .pop next

def get (index : Nat) (next : Bytes → Plan α) : Plan α := step (.get index) next

def remove (index : Nat) (next : Plan α) : Plan α := step (.remove index) fun _ => next

def popSized (size : Nat) (next : Octets size → Plan α) : Plan α :=
  pop fun value =>
    match Octets.ofBytes? size value with
    | some octets => next octets
    | none => fail .typeMismatch

end

def jump (length : Nat) (target : UInt8) : Plan (Option Nat) :=
  match jumpTarget length target with
  | .ok pc => done (some pc)
  | .error reason => fail reason

/-- The plan of an instruction at position `pc` of a script of `length` instructions.  It comes to
the position where the run goes on; burning has none. -/
def ofInstruction (message : Key.Message) (length pc : Nat) : Instruction → Plan (Option Nat)
  | .nop => done (some (pc + 1))
  | .burn => done none
  | .not => pop fun value => push (ofBool (!isTrue value)) (done (some (pc + 1)))
  | .eq => pop fun first => pop fun second => push (ofBool (first == second)) (done (some (pc + 1)))
  | .jmp target => jump length target
  | .jnz target => pop fun condition =>
      if isTrue condition then jump length target else done (some (pc + 1))
  | .jz target => pop fun condition =>
      if isTrue condition then done (some (pc + 1)) else jump length target
  | .push value => push [value] (done (some (pc + 1)))
  | .pop => pop fun _ => done (some (pc + 1))
  | .pushb blob => push blob (done (some (pc + 1)))
  | .dup => pop fun top => push top (push top (done (some (pc + 1))))
  | .swap => pop fun first => pop fun second => push first (push second (done (some (pc + 1))))
  | .copy depth => get depth.toNat fun value => push value (done (some (pc + 1)))
  | .drop depth => remove depth.toNat (done (some (pc + 1)))
  | .chksig => popSized 64 fun key => popSized 65 fun signature =>
      push (ofBool (signatureHolds key signature message)) (done (some (pc + 1)))
  | .digest algorithm => pop fun value => push (algorithm.digest value) (done (some (pc + 1)))

def load : List Bytes → Plan Unit
  | [] => done ()
  | value :: rest => push value (load rest)

def takeResult : Plan Bytes := pop done

end Plan

def Effect.ofTarget : Option Nat × Stack → Effect
  | (some pc, stack) => .next pc stack
  | (none, _) => .burned

namespace Plan

section

variable {α β : Type} (limits : Limits) (stack : Stack) (f : α × Stack → β)

theorem map_exec_push (value : Bytes) (next : Plan α) :
    ((push value next).exec limits stack).map f =
      stack.push limits value >>= fun stack => (next.exec limits stack).map f := by
  rw [push, exec, Operation.apply]
  cases stack.push limits value <;> rfl

theorem map_exec_pop (next : Bytes → Plan α) :
    ((pop next).exec limits stack).map f =
      stack.pop >>= fun popped => ((next popped.1).exec limits popped.2).map f := by
  rw [pop, exec, Operation.apply]
  cases stack.pop <;> rfl

theorem map_exec_get (index : Nat) (next : Bytes → Plan α) :
    ((get index next).exec limits stack).map f =
      stack.get index >>= fun value => ((next value).exec limits stack).map f := by
  rw [get, exec, Operation.apply]
  cases stack.get index <;> rfl

theorem map_exec_remove (index : Nat) (next : Plan α) :
    ((remove index next).exec limits stack).map f =
      stack.remove index >>= fun stack => (next.exec limits stack).map f := by
  rw [remove, exec, Operation.apply]
  cases stack.remove index <;> rfl

theorem map_exec_popSized (size : Nat) (next : Octets size → Plan α) :
    ((popSized size next).exec limits stack).map f =
      stack.popSized size >>= fun popped => ((next popped.1).exec limits popped.2).map f := by
  rw [popSized, map_exec_pop, Stack.popSized]
  cases stack.pop with
  | error reason => rfl
  | ok popped =>
    simp only [bind, Except.bind]
    cases Octets.ofBytes? size popped.1 <;> rfl

theorem map_exec_jump (length : Nat) (target : UInt8) (g : Option Nat × Stack → β) :
    ((jump length target).exec limits stack).map g =
      jumpTarget length target >>= fun pc => pure (g (some pc, stack)) := by
  rw [jump]
  cases jumpTarget length target <;> rfl

end

theorem perform_eq_exec (context : Context) (length pc : Nat) (stack : Stack)
    (instruction : Instruction) :
    perform context length pc stack instruction =
      ((ofInstruction context.message length pc instruction).exec context.limits stack).map
        Effect.ofTarget := by
  cases instruction with
  | nop | burn => rfl
  | not | push | pushb | pop | dup | swap | eq | copy | drop | chksig | digest =>
    simp only [ofInstruction, map_exec_push, map_exec_pop, map_exec_get, map_exec_remove,
      map_exec_popSized]
    rfl
  | jmp target =>
    rw [ofInstruction, map_exec_jump]
    rfl
  | jnz target | jz target =>
    rw [ofInstruction, map_exec_pop, perform]
    congr 1
    funext popped
    obtain ⟨condition, stack⟩ := popped
    by_cases h : isTrue condition = true
    · simp only [h, if_true, map_exec_jump]
      rfl
    · simp only [h, if_false, Bool.false_eq_true, map_exec_jump]
      rfl

theorem perform_of_exec {context : Context} {length pc : Nat} {stack : Stack}
    {instruction : Instruction} {result : Except Reason (Option Nat × Stack)}
    (h : (ofInstruction context.message length pc instruction).exec context.limits stack = result) :
    perform context length pc stack instruction = result.map Effect.ofTarget := by
  rw [perform_eq_exec, h]

theorem pushAll_eq_exec (limits : Limits) (values : List Bytes) (stack : Stack) :
    stack.pushAll limits values = ((load values).exec limits stack).map Prod.snd := by
  induction values generalizing stack with
  | nil => rfl
  | cons value rest ih =>
    rw [load, map_exec_push, Stack.pushAll]
    congr 1
    funext stack
    exact ih stack

end Plan

/-! ## What a plan can come to -/

namespace Plan

section

variable {α : Type} (holds : Except Reason α → Prop)

/-- Whatever comes off the stack, `holds` holds of what the plan comes to in the end, be it a result
or a reason to give up. -/
def Leaves : Plan α → Prop
  | done result => holds (.ok result)
  | fail reason => holds (.error reason)
  | step _ next => ∀ value, (next value).Leaves

variable {holds}

theorem Leaves.of_exec {limits : Limits} {plan : Plan α} {stack last : Stack} {result : α}
    (h : plan.Leaves holds) (e : plan.exec limits stack = .ok (result, last)) :
    holds (.ok result) := by
  induction plan generalizing stack with
  | done _ =>
    cases e
    exact h
  | fail reason => cases e
  | step operation next ih =>
    rw [exec] at e
    split at e
    · cases e
    · rename_i value reached _
      exact ih value (h value) e

theorem leaves_popSized {size : Nat} {next : Octets size → Plan α}
    (h : ∀ octets, (next octets).Leaves holds) (hfail : holds (.error .typeMismatch)) :
    (popSized size next).Leaves holds := by
  intro value
  cases hsize : Octets.ofBytes? size value with
  | none =>
    simp only [hsize]
    exact hfail
  | some octets =>
    simp only [hsize]
    exact h octets

end

theorem leaves_jump {holds : Except Reason (Option Nat) → Prop} {target : UInt8}
    (h : holds (.ok (some target.toNat))) (hfail : holds (.error .invalidJumpTarget))
    (length : Nat) : (jump length target).Leaves holds := by
  unfold jump jumpTarget
  by_cases htarget : target.toNat ≤ length
  · simp only [htarget, if_true]
    exact h
  · simp only [htarget, if_false]
    exact hfail

/-- What the plan of an instruction at position `pc` can come to. -/
inductive Leaf (pc : Nat) (instruction : Instruction) : Except Reason (Option Nat) → Prop where
  | burned : Leaf pc instruction (.ok none)
  | next : Leaf pc instruction (.ok (some (pc + 1)))
  | jump {target : UInt8} (h : instruction.target? = some target) :
    Leaf pc instruction (.ok (some target.toNat))
  | invalidJumpTarget : Leaf pc instruction (.error .invalidJumpTarget)
  | typeMismatch : Leaf pc instruction (.error .typeMismatch)

theorem leaves_ofInstruction (message : Key.Message) (length pc : Nat)
    (instruction : Instruction) :
    (ofInstruction message length pc instruction).Leaves (Leaf pc instruction) := by
  cases instruction with
  | nop => exact .next
  | burn => exact .burned
  | push | pushb | pop | drop | not | digest | dup | copy | eq | swap =>
    simp only [ofInstruction, Leaves, pop, push, get, remove, forall_const]
    exact .next
  | jmp target => exact leaves_jump (.jump rfl) .invalidJumpTarget length
  | jnz target =>
    intro condition
    dsimp only
    split
    · exact leaves_jump (.jump rfl) .invalidJumpTarget length
    · exact .next
  | jz target =>
    intro condition
    dsimp only
    split
    · exact .next
    · exact leaves_jump (.jump rfl) .invalidJumpTarget length
  | chksig =>
    refine leaves_popSized (fun key => ?_) .typeMismatch
    refine leaves_popSized (fun signature => ?_) .typeMismatch
    intro _
    exact .next

end Plan

theorem leaf_of_perform {context : Context} {length pc target : Nat} {stack next : Stack}
    {instruction : Instruction}
    (e : perform context length pc stack instruction = .ok (.next target next)) :
    Plan.Leaf pc instruction (.ok (some target)) := by
  rw [Plan.perform_eq_exec] at e
  obtain ⟨⟨reached, last⟩, hexec, hreached⟩ := Result.map_eq_ok_iff.1 e
  cases reached with
  | none => cases hreached
  | some position =>
    cases hreached
    exact (Plan.leaves_ofInstruction _ _ _ _).of_exec hexec

/-! ## What every operation keeps, every plan keeps -/

theorem Operation.within_of_apply {limits : Limits} {operation : Operation} {stack next : Stack}
    {value : Bytes} (h : stack.Within limits)
    (e : operation.apply limits stack = .ok (value, next)) : next.Within limits := by
  cases operation with
  | push pushed =>
    obtain ⟨result, hpush, hresult⟩ := Result.bind_eq_ok_iff.1 e
    cases hresult
    exact h.push hpush
  | pop => exact h.pop e
  | get index =>
    obtain ⟨found, -, hresult⟩ := Result.bind_eq_ok_iff.1 e
    cases hresult
    exact h
  | remove index =>
    obtain ⟨result, hremove, hresult⟩ := Result.bind_eq_ok_iff.1 e
    cases hresult
    exact h.remove hremove

namespace Plan

variable {α : Type} {limits : Limits}

theorem start_mem_visits {plan : Plan α} {stack : Stack} :
    stack ∈ plan.visits limits stack := by
  cases plan <;> rw [visits] <;> exact List.mem_cons_self

theorem mem_visits_of_exec {plan : Plan α} {stack last : Stack} {result : α}
    (e : plan.exec limits stack = .ok (result, last)) : last ∈ plan.visits limits stack := by
  induction plan generalizing stack with
  | done _ =>
    cases e
    exact List.mem_cons_self
  | fail reason => cases e
  | step operation next ih =>
    rw [exec] at e
    rw [visits]
    split at e
    · cases e
    · rename_i value reached _
      exact List.mem_cons_of_mem _ (ih value e)

theorem within_of_mem_visits {plan : Plan α} {stack visited : Stack} (h : stack.Within limits)
    (hmem : visited ∈ plan.visits limits stack) : visited.Within limits := by
  induction plan generalizing stack with
  | done _ | fail _ =>
    rw [List.mem_singleton.1 hmem]
    exact h
  | step operation next ih =>
    rw [visits] at hmem
    rcases List.mem_cons.1 hmem with rfl | hmem
    · exact h
    split at hmem
    · cases hmem
    · rename_i value reached happly
      exact ih value (operation.within_of_apply h happly) hmem

theorem within_of_exec {plan : Plan α} {stack last : Stack} {result : α} (h : stack.Within limits)
    (e : plan.exec limits stack = .ok (result, last)) : last.Within limits :=
  within_of_mem_visits h (mem_visits_of_exec e)

end Plan

theorem within_of_perform {context : Context} {length pc target : Nat} {stack next : Stack}
    {instruction : Instruction} (h : stack.Within context.limits)
    (e : perform context length pc stack instruction = .ok (.next target next)) :
    next.Within context.limits := by
  rw [Plan.perform_eq_exec] at e
  obtain ⟨⟨position, last⟩, hexec, hlast⟩ := Result.map_eq_ok_iff.1 e
  cases position with
  | none => cases hlast
  | some position =>
    cases hlast
    exact Plan.within_of_exec h hexec

end Machine
end LockScript
