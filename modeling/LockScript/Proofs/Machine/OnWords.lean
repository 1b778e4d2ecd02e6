import LockScript.Proofs.Machine.Records
import LockScript.Proofs.Script.Cursor

/-!
The machine on words.

Here the stack is a slice with its bottom first, its memory, the position and the number of steps
are words, and every access and every sum or difference is checked.  The checks that keep them from
failing are elsewhere: the size of a value is looked at before its bytes are added to the memory, a
jump is looked at one pass before its target is fetched, and nothing but the count of the memory
says that it may be lowered.  So a run on words follows the machine only because the stacks of the
machine count right and keep to the ceilings, and because its position never leaves the script.
-/

namespace LockScript
namespace Machine
namespace OnWords

open Guarded

structure Store where
  /-- The values, the bottom one first. -/
  values : List Bytes
  memory : Nat

namespace Store

def empty : Store := ⟨[], 0⟩

def push (limits : Limits) (value : Bytes) (store : Store) : Guarded Reason Store :=
  if limits.maxValueSize < value.length then throw .valueTooLarge
  else if limits.maxStackDepth ≤ store.values.length then throw .stackOverflow
  else do
    let sum ← checked (Word.add store.memory value.length)
    if limits.maxMemory < sum then throw .outOfMemory
    else do
      let memory ← checked (Word.add store.memory value.length)
      return ⟨store.values ++ [value], memory⟩

def pop (store : Store) : Guarded Reason (Bytes × Store) :=
  match store.values.getLast? with
  | none => throw .stackUnderflow
  | some value => do
    let memory ← checked (Word.sub store.memory value.length)
    return (value, ⟨store.values.dropLast, memory⟩)

/-- The place of the value at a depth. -/
def indexOf (store : Store) (depth : Nat) : Guarded Reason Nat :=
  if depth < store.values.length then do
    let top ← checked (Word.sub store.values.length 1)
    checked (Word.sub top depth)
  else throw .indexOutOfBound

def get (store : Store) (depth : Nat) : Guarded Reason Bytes := do
  let index ← store.indexOf depth
  checked (Word.fetch store.values index)

def remove (store : Store) (depth : Nat) : Guarded Reason Store := do
  let index ← store.indexOf depth
  let value ← checked (Word.fetch store.values index)
  let memory ← checked (Word.sub store.memory value.length)
  return ⟨store.values.eraseIdx index, memory⟩

def ensureSize (size : Nat) (value : Bytes) : Guarded Reason Bytes :=
  if value.length = size then return value else throw .typeMismatch

/-- Takes the top value and makes something of it once its size has been looked at. -/
def popSized {α : Type} (size : Nat) (convert : Bytes → Except Hazard α) (store : Store) :
    Guarded Reason (α × Store) := do
  let (value, store) ← store.pop
  let value ← ensureSize size value
  let result ← checked (convert value)
  return (result, store)

end Store

/-- A public key made of a slice, which is a hazard unless there are 64 bytes. -/
def publicKey (value : Bytes) : Except Hazard Key.PublicKey :=
  match Octets.ofBytes? 64 value with
  | some key => .ok key
  | none => .error .wrongSize

/-- A signature made of a slice.  That it cannot be made counts as a hazard here. -/
def signature (value : Bytes) : Except Hazard Key.Signature :=
  match Key.Signature.ofBytes value with
  | .ok signature => .ok signature
  | .error _ => .error .wrongSize

/-- One instruction: the next position and the stack, or nothing if it burns. -/
def perform (context : Context) (length pc : Nat) (store : Store) (instruction : Instruction) :
    Guarded Reason (Option (Nat × Store)) := do
  let next ← checked (Word.add pc 1)
  match instruction with
  | .nop => return some (next, store)
  | .burn => return none
  | .not => do
    let (value, store) ← store.pop
    let store ← store.push context.limits (ofBool (!isTrue value))
    return some (next, store)
  | .eq => do
    let (first, store) ← store.pop
    let (second, store) ← store.pop
    let store ← store.push context.limits (ofBool (first == second))
    return some (next, store)
  | .jmp target => do
    let next ← harmless (jumpTarget length target)
    return some (next, store)
  | .jnz target => do
    let (condition, store) ← store.pop
    if isTrue condition then do
      let next ← harmless (jumpTarget length target)
      return some (next, store)
    else return some (next, store)
  | .jz target => do
    let (condition, store) ← store.pop
    if isTrue condition then return some (next, store)
    else do
      let next ← harmless (jumpTarget length target)
      return some (next, store)
  | .push value => do
    let store ← store.push context.limits [value]
    return some (next, store)
  | .pop => do
    let (_, store) ← store.pop
    return some (next, store)
  | .pushb blob => do
    let store ← store.push context.limits blob
    return some (next, store)
  | .dup => do
    let (top, store) ← store.pop
    let store ← store.push context.limits top
    let store ← store.push context.limits top
    return some (next, store)
  | .swap => do
    let (first, store) ← store.pop
    let (second, store) ← store.pop
    let store ← store.push context.limits first
    let store ← store.push context.limits second
    return some (next, store)
  | .copy depth => do
    let value ← store.get depth.toNat
    let store ← store.push context.limits value
    return some (next, store)
  | .drop depth => do
    let store ← store.remove depth.toNat
    return some (next, store)
  | .chksig => do
    let (key, store) ← store.popSized 64 publicKey
    let (signature, store) ← store.popSized 65 signature
    let holds := match Key.verify key signature context.message with
      | .ok valid => valid
      | .error _ => false
    let store ← store.push context.limits (ofBool holds)
    return some (next, store)
  | .digest algorithm => do
    let (value, store) ← store.pop
    let store ← store.push context.limits (algorithm.digest value)
    return some (next, store)

structure Step where
  pc : Nat
  instruction : Instruction
  store : Store

structure Run where
  steps : List Step
  verdict : Verdict

def conclude (store : Store) : Except Hazard Verdict :=
  match store.pop.run with
  | .error hazard => .error hazard
  | .ok (.error reason) => .ok (.rejected reason)
  | .ok (.ok (result, rest)) =>
    if rest.values.length ≠ 0 then .ok (.rejected .uncleanStack)
    else if isTrue result then .ok .accepted
    else .ok (.rejected .falseResult)

/-- The loop, after a number of steps.  A position behind the end of the script counts as a hazard
although the loop would only end there. -/
def runFrom (context : Context) (script : Script) (steps pc : Nat) (store : Store)
    (done : List Step) : Except Hazard Run :=
  if script.length < pc then .error .strayed
  else if pc < script.length then
    if context.limits.maxSteps ≤ steps then .ok ⟨done.reverse, .rejected .stepLimitExceeded⟩
    else
      match _h : Word.add steps 1 with
      | .error hazard => .error hazard
      | .ok steps =>
        match Word.fetch script pc with
        | .error hazard => .error hazard
        | .ok instruction =>
          match (perform context script.length pc store instruction).run with
          | .error hazard => .error hazard
          | .ok (.error reason) => .ok ⟨done.reverse, .rejected reason⟩
          | .ok (.ok none) => .ok ⟨done.reverse, .burned⟩
          | .ok (.ok (some (target, next))) =>
            runFrom context script steps target next (⟨pc, instruction, next⟩ :: done)
  else
    match conclude store with
    | .error hazard => .error hazard
    | .ok verdict => .ok ⟨done.reverse, verdict⟩
termination_by context.limits.maxSteps - steps
decreasing_by
  have := Word.eq_of_add _h
  omega

def run (context : Context) (script : Script) (store : Store) : Except Hazard Run :=
  runFrom context script 0 0 store []

def load (limits : Limits) : List Bytes → Store → Guarded Reason Store
  | [], store => return store
  | value :: rest, store => do
    let store ← store.push limits value
    load limits rest store

def countChecks : Script → Nat → Except Hazard Nat
  | [], count => .ok count
  | instruction :: rest, count =>
    if instruction = .chksig then
      match Word.add count 1 with
      | .error hazard => .error hazard
      | .ok count => countChecks rest count
    else countChecks rest count

def unlock (context : Context) (unlocking : Script) (params : List Bytes) (lock : Script) :
    Except Hazard Verdict :=
  match countChecks lock 0 with
  | .error hazard => .error hazard
  | .ok count =>
    if 6 ≤ count then .ok (.rejected .tooManySignatureChecks)
    else if !unlocking.pushOnly then .ok (.rejected .invalidUnlockScript)
    else match (load context.limits (witness unlocking params) .empty).run with
      | .error hazard => .error hazard
      | .ok (.error reason) => .ok (.rejected reason)
      | .ok (.ok store) => (run context lock store).map Run.verdict

def verify (context : Context) (bytes : Bytes) : Except Hazard (Except DecodeError Verdict) :=
  match Script.Cursor.decodeFrom bytes 0 with
  | .error hazard => .error hazard
  | .ok (.error e) => .ok (.error e)
  | .ok (.ok script) => (run context script .empty).map fun run => .ok run.verdict

/-! ## The stack -/

/-- A stack as it lies in a slice. -/
def Store.ofStack (stack : Stack) : Store := ⟨stack.values, stack.memory⟩

/-- The limits leave room in a word: for the bytes of a value on top of the memory, once the value
has passed its own ceiling, and for the number of steps. -/
structure Roomy (limits : Limits) : Prop where
  memory : limits.maxMemory + limits.maxValueSize < UInt64.size
  steps : limits.maxSteps < UInt64.size

section

variable {limits : Limits} {stack : Stack}

theorem length_values (stack : Stack) : (Store.ofStack stack).values.length = stack.depth := by
  rw [Store.ofStack, Stack.values, List.length_reverse, stack.length_items]

theorem push_follows (hroomy : Roomy limits) (h : stack.Within limits) (value : Bytes) :
    Follows Store.ofStack (stack.push limits value) ((Store.ofStack stack).push limits value) := by
  unfold Stack.push Store.push
  rw [length_values]
  by_cases hsize : limits.maxValueSize < value.length
  · rw [if_pos hsize, if_pos hsize]
    exact follows_throw _ _
  rw [if_neg hsize, if_neg hsize]
  by_cases hdepth : limits.maxStackDepth ≤ stack.depth
  · rw [if_pos hdepth, if_pos hdepth]
    exact follows_throw _ _
  rw [if_neg hdepth, if_neg hdepth]
  have hadd : Word.add (Store.ofStack stack).memory value.length =
      .ok (stack.memory + value.length) := by
    have hmemory := h.memory_le
    have hroom := hroomy.memory
    apply Word.add_eq
    show stack.memory + value.length < UInt64.size
    omega
  rw [checked_bind hadd]
  by_cases hmemory : limits.maxMemory < stack.memory + value.length
  · rw [if_pos hmemory, if_pos hmemory]
    exact follows_throw _ _
  rw [if_neg hmemory, if_neg hmemory, checked_bind hadd]
  show Except.ok (Except.ok _) = Except.ok (Except.ok _)
  simp [Store.ofStack, Stack.values]

theorem pop_follows (h : stack.Within limits) :
    Follows (Prod.map id Store.ofStack) stack.pop (Store.ofStack stack).pop := by
  have hcount := h.memory_eq
  obtain ⟨items, memory, depth, hdepth⟩ := stack
  cases items with
  | nil => exact follows_throw _ _
  | cons value rest =>
    have hlast : (value :: rest).reverse.getLast? = some value := List.getLast?_reverse
    have hsub : Word.sub memory value.length = .ok (memory - value.length) := by
      apply Word.sub_eq
      rw [weight_cons] at hcount
      show value.length ≤ memory
      simp only at hcount
      omega
    simp only [Store.pop, Store.ofStack, Stack.values, hlast]
    rw [checked_bind hsub, List.dropLast_reverse]
    rfl

theorem indexOf_of_lt {depth : Nat} (h : depth < stack.items.length) :
    (Store.ofStack stack).indexOf depth = pure (stack.items.length - 1 - depth) := by
  have hdepth := stack.length_items
  have htop : Word.sub stack.depth 1 = .ok (stack.items.length - 1) := by
    rw [Word.sub_eq (by omega), hdepth]
  have hindex : Word.sub (stack.items.length - 1) depth = .ok (stack.items.length - 1 - depth) :=
    Word.sub_eq (by omega)
  rw [Store.indexOf, length_values, if_pos (by omega), checked_bind htop, hindex]
  rfl

theorem indexOf_of_ge {depth : Nat} (h : stack.items.length ≤ depth) :
    (Store.ofStack stack).indexOf depth = throw .indexOutOfBound := by
  have hdepth := stack.length_items
  rw [Store.indexOf, length_values, if_neg (by omega)]

theorem fetch_values {depth : Nat} {value : Bytes} (h : stack.items[depth]? = some value) :
    Word.fetch (Store.ofStack stack).values (stack.items.length - 1 - depth) = .ok value := by
  have hlt := (List.getElem?_eq_some_iff.1 h).1
  apply Word.fetch_eq
  rw [← h]
  exact List.getElem?_reverse' (by omega)

theorem get_follows (stack : Stack) (depth : Nat) :
    Follows id (stack.get depth) ((Store.ofStack stack).get depth) := by
  rw [Stack.get, Store.get]
  cases hvalue : stack.items[depth]? with
  | none =>
    rw [indexOf_of_ge (List.getElem?_eq_none_iff.1 hvalue)]
    exact follows_throw _ _
  | some value =>
    rw [indexOf_of_lt (List.getElem?_eq_some_iff.1 hvalue).1]
    show Follows id (.ok value) (checked (Word.fetch _ _))
    rw [fetch_values hvalue]
    rfl

theorem eraseIdx_reverse (items : List Bytes) {depth : Nat} (h : depth < items.length) :
    items.reverse.eraseIdx (items.length - 1 - depth) = (items.eraseIdx depth).reverse := by
  have htake : items.length - (items.length - 1 - depth) = depth + 1 := by omega
  have hdrop : items.length - (items.length - 1 - depth + 1) = depth := by omega
  rw [List.eraseIdx_eq_take_drop_succ, List.eraseIdx_eq_take_drop_succ, List.reverse_append,
    List.take_reverse, List.drop_reverse, htake, hdrop]

theorem remove_follows (h : stack.Within limits) (depth : Nat) :
    Follows Store.ofStack (stack.remove depth) ((Store.ofStack stack).remove depth) := by
  rw [Store.remove]
  cases hvalue : stack.items[depth]? with
  | none =>
    rw [Stack.remove_of_none hvalue, indexOf_of_ge (List.getElem?_eq_none_iff.1 hvalue)]
    exact follows_throw _ _
  | some value =>
    have hlt := (List.getElem?_eq_some_iff.1 hvalue).1
    have hweight := weight_eraseIdx hvalue
    have hcount := h.memory_eq
    have hsub : Word.sub (Store.ofStack stack).memory value.length =
        .ok (weight (stack.items.eraseIdx depth)) := by
      show Word.sub stack.memory value.length = _
      rw [Word.sub_eq (by omega), hcount, ← hweight, Nat.add_sub_cancel]
    have hremove : stack.remove depth = .ok (.ofItems (stack.items.eraseIdx depth)) := by
      rw [h.eq_ofItems]
      exact Stack.remove_ofItems_of_some hvalue
    rw [indexOf_of_lt hlt, hremove]
    show Follows _ _ (checked (Word.fetch _ _) >>= _)
    rw [checked_bind (fetch_values hvalue), checked_bind hsub]
    show Except.ok (Except.ok _) = Except.ok (Except.ok (Store.ofStack (Stack.ofItems _)))
    rw [Store.ofStack, Stack.values, eraseIdx_reverse stack.items hlt]
    rfl

theorem popSized_follows {α : Type} {size : Nat} {make : Octets size → α}
    {convert : Bytes → Except Hazard α} (h : stack.Within limits)
    (hconvert : ∀ octets, convert octets.bytes = .ok (make octets)) :
    Follows (Prod.map make Store.ofStack) (stack.popSized size)
      ((Store.ofStack stack).popSized size convert) := by
  refine (pop_follows h).bind ?_
  intro popped hpop
  obtain ⟨value, rest⟩ := popped
  dsimp only [Prod.map_apply, id]
  by_cases hsize : value.length = size
  · have hoctets : Octets.ofBytes? size value = some ⟨value, hsize⟩ :=
      Octets.ofBytes?_eq_some.2 rfl
    have hmade : convert value = .ok (make ⟨value, hsize⟩) := hconvert ⟨value, hsize⟩
    rw [Store.ensureSize, if_pos hsize, hoctets, pure_bind, checked_bind hmade]
    exact follows_pure (Prod.map make Store.ofStack) (⟨value, hsize⟩, rest)
  · have hoctets : Octets.ofBytes? size value = none := dif_neg hsize
    rw [Store.ensureSize, if_neg hsize, hoctets]
    exact follows_throw _ _

theorem within_of_popSized {size : Nat} {octets : Octets size} {rest : Stack}
    (h : stack.Within limits) (e : stack.popSized size = .ok (octets, rest)) :
    rest.Within limits := by
  obtain ⟨⟨value, popped⟩, hpop, hsized⟩ := Result.bind_eq_ok_iff.1 e
  have hpopped := h.pop hpop
  dsimp only at hsized
  split at hsized
  · cases hsized
    exact hpopped
  · cases hsized

end

/-! ## Instructions -/

def seen : Effect → Option (Nat × Store)
  | .next pc stack => some (pc, .ofStack stack)
  | .burned => none

theorem publicKey_bytes (key : Key.PublicKey) : publicKey key.bytes = .ok key := by
  rw [publicKey, Octets.ofBytes?_eq_some.2 rfl]

theorem signature_bytes (octets : Octets 65) :
    signature octets.bytes = .ok (.ofOctets octets) := by
  rw [signature, Key.Signature.ofBytes, Octets.ofBytes?_eq_some.2 rfl]

theorem perform_follows {context : Context} {length pc : Nat} {stack : Stack}
    (hroomy : Roomy context.limits) (hpc : pc + 1 < UInt64.size)
    (h : stack.Within context.limits) (instruction : Instruction) :
    Follows seen (Machine.perform context length pc stack instruction)
      (perform context length pc (.ofStack stack) instruction) := by
  rw [perform, checked_bind (Word.add_eq hpc)]
  cases instruction with
  | nop => exact follows_pure seen (.next (pc + 1) stack)
  | burn => exact follows_pure seen .burned
  | not | digest =>
    refine (pop_follows h).bind ?_
    intro popped hpop
    exact (push_follows hroomy (h.pop hpop) _).bind_pure fun _ => rfl
  | eq =>
    refine (pop_follows h).bind ?_
    intro first hfirst
    refine (pop_follows (h.pop hfirst)).bind ?_
    intro second hsecond
    exact (push_follows hroomy ((h.pop hfirst).pop hsecond) _).bind_pure fun _ => rfl
  | jmp target => exact (follows_harmless _).bind_pure fun _ => rfl
  | jnz target =>
    refine (pop_follows h).bind ?_
    intro popped hpop
    obtain ⟨condition, rest⟩ := popped
    show Follows seen (if isTrue condition = true then _ else _)
      (if isTrue condition = true then _ else _)
    by_cases hcondition : isTrue condition = true
    · rw [if_pos hcondition, if_pos hcondition]
      exact (follows_harmless _).bind_pure fun _ => rfl
    · rw [if_neg hcondition, if_neg hcondition]
      exact follows_pure seen (.next (pc + 1) rest)
  | jz target =>
    refine (pop_follows h).bind ?_
    intro popped hpop
    obtain ⟨condition, rest⟩ := popped
    show Follows seen (if isTrue condition = true then _ else _)
      (if isTrue condition = true then _ else _)
    by_cases hcondition : isTrue condition = true
    · rw [if_pos hcondition, if_pos hcondition]
      exact follows_pure seen (.next (pc + 1) rest)
    · rw [if_neg hcondition, if_neg hcondition]
      exact (follows_harmless _).bind_pure fun _ => rfl
  | push | pushb => exact (push_follows hroomy h _).bind_pure fun _ => rfl
  | pop => exact (pop_follows h).bind_pure fun _ => rfl
  | dup =>
    refine (pop_follows h).bind ?_
    intro popped hpop
    refine (push_follows hroomy (h.pop hpop) _).bind ?_
    intro once honce
    exact (push_follows hroomy ((h.pop hpop).push honce) _).bind_pure fun _ => rfl
  | swap =>
    refine (pop_follows h).bind ?_
    intro first hfirst
    refine (pop_follows (h.pop hfirst)).bind ?_
    intro second hsecond
    refine (push_follows hroomy ((h.pop hfirst).pop hsecond) _).bind ?_
    intro once honce
    exact (push_follows hroomy (((h.pop hfirst).pop hsecond).push honce) _).bind_pure fun _ => rfl
  | copy depth =>
    refine (get_follows stack _).bind ?_
    intro value hvalue
    exact (push_follows hroomy h _).bind_pure fun _ => rfl
  | drop depth => exact (remove_follows h _).bind_pure fun _ => rfl
  | chksig =>
    refine (popSized_follows h publicKey_bytes).bind ?_
    intro first hfirst
    have hrest := within_of_popSized h hfirst
    refine (popSized_follows hrest signature_bytes).bind ?_
    intro second hsecond
    exact (push_follows hroomy (within_of_popSized hrest hsecond) _).bind_pure fun _ => rfl

/-! ## The position -/

/-- The position a plan comes to is in the script or at its end. -/
def Stays (length : Nat) (result : Except Reason (Option Nat)) : Prop :=
  ∀ target, result = .ok (some target) → target ≤ length

theorem stays_next {length pc : Nat} (h : pc < length) : Stays length (.ok (some (pc + 1))) := by
  intro target htarget
  cases htarget
  exact h

theorem stays_error (length : Nat) (reason : Reason) : Stays length (.error reason) := by
  intro target htarget
  cases htarget

theorem leaves_jump_stays (length : Nat) (target : UInt8) :
    (Plan.jump length target).Leaves (Stays length) := by
  unfold Plan.jump jumpTarget
  by_cases htarget : target.toNat ≤ length
  · simp only [htarget, if_true]
    intro reached hreached
    cases hreached
    exact htarget
  · simp only [htarget, if_false]
    exact stays_error length _

theorem leaves_stays (message : Key.Message) {length pc : Nat} (h : pc < length)
    (instruction : Instruction) :
    (Plan.ofInstruction message length pc instruction).Leaves (Stays length) := by
  cases instruction with
  | nop => exact stays_next h
  | burn =>
    intro target hburned
    cases hburned
  | push | pushb | pop | drop | not | digest | dup | copy | eq | swap =>
    simp only [Plan.ofInstruction, Plan.Leaves, Plan.pop, Plan.push, Plan.get, Plan.remove,
      forall_const]
    exact stays_next h
  | jmp target => exact leaves_jump_stays length target
  | jnz target =>
    intro condition
    dsimp only
    split
    · exact leaves_jump_stays length target
    · exact stays_next h
  | jz target =>
    intro condition
    dsimp only
    split
    · exact stays_next h
    · exact leaves_jump_stays length target
  | chksig =>
    refine Plan.leaves_popSized (fun key => ?_) (stays_error length _)
    refine Plan.leaves_popSized (fun signature => ?_) (stays_error length _)
    intro _
    exact stays_next h

theorem target_le_of_perform {context : Context} {length pc target : Nat} {stack next : Stack}
    {instruction : Instruction} (h : pc < length)
    (e : Machine.perform context length pc stack instruction = .ok (.next target next)) :
    target ≤ length := by
  rw [Plan.perform_eq_exec] at e
  obtain ⟨⟨reached, last⟩, hexec, hreached⟩ := Result.map_eq_ok_iff.1 e
  cases reached with
  | none => cases hreached
  | some position =>
    cases hreached
    exact (leaves_stays context.message h instruction).of_exec hexec target rfl

/-! ## Runs -/

def Step.of (step : Machine.Step) : Step := ⟨step.pc, step.instruction, .ofStack step.stack⟩

def Run.of (run : Machine.Run) : Run := ⟨run.steps.map Step.of, run.verdict⟩

theorem conclude_eq {limits : Limits} {stack : Stack} (h : stack.Within limits) :
    conclude (.ofStack stack) = .ok (Machine.conclude stack) := by
  have hpop : (Store.ofStack stack).pop.run = .ok (stack.pop.map (Prod.map id Store.ofStack)) :=
    pop_follows h
  rw [conclude, hpop]
  obtain ⟨items, memory, depth, rfl⟩ := stack
  match items with
  | [] => rfl
  | [[]] => rfl
  | [_ :: _] => rfl
  | _ :: below :: rest =>
    have hlength : (below :: rest).reverse.length ≠ 0 := by simp
    exact if_pos hlength

section

variable {context : Context} {script : Script} {steps pc : Nat} {stack : Stack}

theorem runFrom_end {limits : Limits} (done : List Step) (h : stack.Within limits) :
    runFrom context script steps script.length (.ofStack stack) done =
      .ok ⟨done.reverse, Machine.conclude stack⟩ := by
  rw [runFrom, if_neg (Nat.lt_irrefl _), if_neg (Nat.lt_irrefl _), conclude_eq h]

theorem runFrom_exhausted (store : Store) (done : List Step) (hpc : pc < script.length)
    (hsteps : context.limits.maxSteps ≤ steps) :
    runFrom context script steps pc store done =
      .ok ⟨done.reverse, .rejected .stepLimitExceeded⟩ := by
  rw [runFrom, if_neg (by omega), if_pos hpc, if_pos hsteps]

theorem runFrom_pass {instruction : Instruction} (done : List Step)
    (hroomy : Roomy context.limits) (hscript : script.length < Word.sliceBound)
    (hsteps : steps < context.limits.maxSteps) (hpc : script[pc]? = some instruction)
    (h : stack.Within context.limits) :
    runFrom context script steps pc (.ofStack stack) done =
      match Machine.perform context script.length pc stack instruction with
      | .error reason => .ok ⟨done.reverse, .rejected reason⟩
      | .ok .burned => .ok ⟨done.reverse, .burned⟩
      | .ok (.next target next) =>
        runFrom context script (steps + 1) target (.ofStack next)
          (⟨pc, instruction, .ofStack next⟩ :: done) := by
  have hlt := (List.getElem?_eq_some_iff.1 hpc).1
  have hword : pc + 1 < UInt64.size := by
    unfold Word.sliceBound at hscript
    omega
  have hwords := hroomy.steps
  have hadd : Word.add steps 1 = .ok (steps + 1) := Word.add_eq (by omega)
  have hperform : (perform context script.length pc (.ofStack stack) instruction).run = _ :=
    perform_follows hroomy hword h instruction
  rw [runFrom, if_neg (by omega), if_pos hlt, if_neg (by omega)]
  split
  · rename_i hazard hoverflow
    rw [hadd] at hoverflow
    cases hoverflow
  · rename_i count hcount
    rw [hadd] at hcount
    cases hcount
    simp only [Word.fetch_eq hpc, hperform]
    cases Machine.perform context script.length pc stack instruction with
    | error reason => rfl
    | ok effect => cases effect <;> rfl

theorem runFrom_eq (hroomy : Roomy context.limits) (hscript : script.length < Word.sliceBound)
    {budget : Nat} (hbudget : steps + budget = context.limits.maxSteps) (hpc : pc ≤ script.length)
    (h : stack.Within context.limits) (done : List Machine.Step) :
    runFrom context script steps pc (.ofStack stack) (done.map Step.of) =
      .ok (.of (Machine.runFrom context script budget pc stack done)) := by
  -- one side counts up and the other one down, and together they make the limit
  induction budget generalizing steps pc stack done with
  | zero =>
    rcases Nat.lt_or_eq_of_le hpc with hlt | rfl
    · rw [runFrom_exhausted _ _ hlt (by omega),
        Machine.runFrom_exhausted (List.getElem?_eq_getElem hlt), ← List.map_reverse]
      rfl
    · rw [runFrom_end _ h, Machine.runFrom_end (List.getElem?_eq_none (Nat.le_refl _)),
        ← List.map_reverse]
      rfl
  | succ budget ih =>
    rcases Nat.lt_or_eq_of_le hpc with hlt | rfl
    · have hfetch := List.getElem?_eq_getElem hlt
      rw [runFrom_pass _ hroomy hscript (by omega) hfetch h]
      cases hperform : Machine.perform context script.length pc stack script[pc] with
      | error reason =>
        rw [Machine.runFrom_error hfetch hperform, ← List.map_reverse]
        rfl
      | ok effect =>
        cases effect with
        | burned =>
          rw [Machine.runFrom_burned hfetch hperform, ← List.map_reverse]
          rfl
        | next target next =>
          rw [Machine.runFrom_next hfetch hperform]
          exact ih (by omega) (target_le_of_perform hlt hperform) (within_of_perform h hperform)
            (⟨pc, script[pc], next⟩ :: done)
    · rw [runFrom_end _ h, Machine.runFrom_end (List.getElem?_eq_none (Nat.le_refl _)),
        ← List.map_reverse]
      rfl

theorem run_eq (hroomy : Roomy context.limits) (hscript : script.length < Word.sliceBound)
    (h : stack.Within context.limits) :
    run context script (.ofStack stack) = .ok (.of (Machine.run context script stack)) :=
  runFrom_eq hroomy hscript (Nat.zero_add _) (Nat.zero_le _) h []

end

/-! ## Locks -/

theorem load_follows {limits : Limits} (hroomy : Roomy limits) {stack : Stack}
    (h : stack.Within limits) (values : List Bytes) :
    Follows Store.ofStack (stack.pushAll limits values) (load limits values (.ofStack stack)) := by
  induction values generalizing stack with
  | nil => exact follows_pure _ stack
  | cons value rest ih =>
    refine (push_follows hroomy h value).bind ?_
    intro pushed hpush
    exact ih (h.push hpush)

theorem countChecks_eq {script : Script} {count : Nat}
    (h : count + script.length < UInt64.size) :
    countChecks script count = .ok (count + script.signatureChecks) := by
  induction script generalizing count with
  | nil => rfl
  | cons instruction rest ih =>
    rw [List.length_cons] at h
    by_cases hcheck : instruction = .chksig
    · have hadd : Word.add count 1 = .ok (count + 1) := Word.add_eq (by omega)
      simp only [countChecks, if_pos hcheck, hadd, Script.signatureChecks]
      rw [ih (by omega), hcheck, List.count_cons_self, Script.signatureChecks]
      congr 1
      omega
    · rw [countChecks, if_neg hcheck, ih (by omega), Script.signatureChecks, Script.signatureChecks,
        List.count_cons_of_ne hcheck]

theorem unlock_eq {context : Context} (hroomy : Roomy context.limits) (unlocking : Script)
    (params : List Bytes) {lock : Script} (hlock : lock.length < Word.sliceBound) :
    unlock context unlocking params lock =
      .ok (Machine.unlock context unlocking params lock).1 := by
  have hcount : countChecks lock 0 = .ok lock.signatureChecks := by
    unfold Word.sliceBound at hlock
    rw [countChecks_eq (by omega), Nat.zero_add]
  have hload : (load context.limits (witness unlocking params) .empty).run = _ :=
    load_follows hroomy (Stack.within_empty _) (witness unlocking params)
  have hmany : lock.tooManyChecks = true ↔ 6 ≤ lock.signatureChecks := by
    rw [Script.tooManyChecks, Script.maxSignatureChecks, decide_eq_true_iff]
    omega
  simp only [unlock, hcount, hload, Machine.unlock]
  by_cases hchecks : 6 ≤ lock.signatureChecks
  · rw [if_pos hchecks, if_pos (hmany.2 hchecks)]
  rw [if_neg hchecks, if_neg (mt hmany.1 hchecks)]
  by_cases hpush : (!unlocking.pushOnly) = true
  · rw [if_pos hpush, if_pos hpush]
    rfl
  rw [if_neg hpush, if_neg hpush]
  cases hstack : Stack.empty.pushAll context.limits (witness unlocking params) with
  | error reason => rfl
  | ok stack =>
    have hrun := run_eq hroomy hlock (within_of_load hstack)
    show (run context lock (.ofStack stack)).map Run.verdict = _
    rw [hrun]
    rfl

theorem verify_eq {context : Context} (hroomy : Roomy context.limits) {bytes : Bytes}
    (hbytes : bytes.length < Word.sliceBound) :
    verify context bytes = .ok ((Machine.verify context bytes).map Prod.fst) := by
  have hdecode := Script.Cursor.decodeFrom_eq hbytes 0
  rw [List.drop_zero] at hdecode
  rw [verify, hdecode, Machine.verify]
  cases hscript : Script.decode bytes with
  | error e => rfl
  | ok script =>
    -- a script has no more instructions than it has bytes
    have hlength : script.length < Word.sliceBound :=
      Nat.lt_of_le_of_lt (Script.length_le_of_decode hscript) hbytes
    have hrun := run_eq hroomy hlength (Stack.within_empty context.limits)
    show (run context script (.ofStack .empty)).map _ = _
    rw [hrun]
    rfl

end OnWords

/-- No way of running a script meets a hazard.  Where every sum and difference is one of words and
every access and conversion is checked, tracing, executing, unlocking and verifying come to the same
as without the checks.  What it takes is that the slices are no longer than those of a process, that
the steps are counted in a word, and that the memory has room for one more value. -/
theorem runs_meet_no_hazard (context : Context) (script unlocking lock : Script)
    (params : List Bytes) (bytes : Bytes)
    (hmemory : context.limits.maxMemory + context.limits.maxValueSize < UInt64.size)
    (hsteps : context.limits.maxSteps < UInt64.size)
    (hscript : script.length < Word.sliceBound) (hlock : lock.length < Word.sliceBound)
    (hbytes : bytes.length < Word.sliceBound) :
    OnWords.run context script .empty = .ok (.of (trace context script).1) ∧
    (OnWords.run context script .empty).map OnWords.Run.verdict = .ok (execute context script).1 ∧
    OnWords.unlock context unlocking params lock =
      .ok (unlock context unlocking params lock).1 ∧
    OnWords.verify context bytes = .ok ((verify context bytes).map Prod.fst) := by
  have hroomy : OnWords.Roomy context.limits := ⟨hmemory, hsteps⟩
  have hrun : OnWords.run context script .empty = .ok (.of (run context script .empty)) :=
    OnWords.run_eq hroomy hscript (Stack.within_empty context.limits)
  refine ⟨hrun, ?_, OnWords.unlock_eq hroomy unlocking params hlock,
    OnWords.verify_eq hroomy hbytes⟩
  rw [hrun]
  rfl

/-- Limits as high as they can be for values of 65 bytes. -/
def highLimits : Limits where
  maxMemory := UInt64.size - 66
  maxSteps := UInt64.size - 1
  maxStackDepth := UInt64.size - 1
  maxValueSize := 65

theorem high_limits_meet_no_hazard :
    OnWords.unlock { limits := highLimits } [.push 1] [[2]] [.copy 1, .drop 2, .eq, .not] =
      .ok .accepted ∧
    OnWords.verify { limits := highLimits } [0x30, 0x01, 0x20, 0x02] = .ok (.ok .accepted) := by
  have hlock : (unlock { limits := highLimits } [.push 1] [[2]] [.copy 1, .drop 2, .eq, .not]).1 =
      .accepted := by decide
  have hdecode : Script.decode [0x30, 0x01, 0x20, 0x02] = .ok [.push 1, .jmp 2] :=
    Script.decode_of_encode rfl
  have hexecute : (execute { limits := highLimits } [.push 1, .jmp 2]).1 = .accepted := by decide
  have hverify : (verify { limits := highLimits } [0x30, 0x01, 0x20, 0x02]).map Prod.fst =
      .ok .accepted := by
    rw [verify, hdecode]
    exact congrArg Except.ok hexecute
  obtain ⟨-, -, hunlocked, hverified⟩ := runs_meet_no_hazard { limits := highLimits } []
    [.push 1] [.copy 1, .drop 2, .eq, .not] [[2]] [0x30, 0x01, 0x20, 0x02] (by decide) (by decide)
    (by decide) (by decide) (by decide)
  rw [hlock] at hunlocked
  rw [hverify] at hverified
  exact ⟨hunlocked, hverified⟩

end Machine
end LockScript
