import LockScript.Machine.Execute
import LockScript.Proofs.Machine.Loop
import LockScript.Proofs.Machine.Plan

/-!
The machine by its table.

The table gives for every instruction what becomes of the whole stack, as a function
on the list of its values, the top one first.  The state of the table machine is a
position and such a list; there is nothing to keep up to date, and a ceiling is held
against the list that results.  The machine with its pops, pushes and counts runs every
script as the table machine does.
-/

namespace LockScript
namespace Machine
namespace Table

inductive Outcome where
  | next (pc : Nat) (items : List Bytes)
  | burned
deriving DecidableEq, Repr

def truth (p : Prop) [Decidable p] : Bytes := if p then [1] else []

def onTop (items : List Bytes) (act : Bytes → List Bytes → Except Reason Outcome) :
    Except Reason Outcome :=
  match items with
  | value :: rest => act value rest
  | [] => .error .stackUnderflow

def onTopTwo (items : List Bytes) (act : Bytes → Bytes → List Bytes → Except Reason Outcome) :
    Except Reason Outcome :=
  match items with
  | first :: second :: rest => act first second rest
  | [_] => .error .stackUnderflow
  | [] => .error .stackUnderflow

def jump (length : Nat) (target : UInt8) (items : List Bytes) : Except Reason Outcome :=
  if target.toNat ≤ length then .ok (.next target.toNat items) else .error .invalidJumpTarget

/-- What an instruction makes of the whole stack, the ceilings left aside. -/
def effect (message : Key.Message) (length pc : Nat) (instruction : Instruction)
    (items : List Bytes) : Except Reason Outcome :=
  match instruction with
  | .nop => .ok (.next (pc + 1) items)
  | .burn => .ok .burned
  | .not => onTop items fun value rest => .ok (.next (pc + 1) (truth (value = []) :: rest))
  | .eq => onTopTwo items fun first second rest =>
      .ok (.next (pc + 1) (truth (first = second) :: rest))
  | .jmp target => jump length target items
  | .jnz target => onTop items fun condition rest =>
      if condition = [] then .ok (.next (pc + 1) rest) else jump length target rest
  | .jz target => onTop items fun condition rest =>
      if condition = [] then jump length target rest else .ok (.next (pc + 1) rest)
  | .push value => .ok (.next (pc + 1) ([value] :: items))
  | .pop => onTop items fun _ rest => .ok (.next (pc + 1) rest)
  | .pushb blob => .ok (.next (pc + 1) (blob :: items))
  | .dup => onTop items fun top rest => .ok (.next (pc + 1) (top :: top :: rest))
  | .swap => onTopTwo items fun first second rest =>
      .ok (.next (pc + 1) (second :: first :: rest))
  | .copy depth =>
    match items[depth.toNat]? with
    | some value => .ok (.next (pc + 1) (value :: items))
    | none => .error .indexOutOfBound
  | .drop depth =>
    if depth.toNat < items.length then
      .ok (.next (pc + 1) (items.take depth.toNat ++ items.drop (depth.toNat + 1)))
    else .error .indexOutOfBound
  | .chksig => onTop items fun key rest =>
      -- the size of the key is looked at before there has to be a signature below it
      if hkey : key.length = 64 then
        onTop rest fun signature rest =>
          if hsignature : signature.length = 65 then
            let checked := Key.verify ⟨key, hkey⟩ (.ofOctets ⟨signature, hsignature⟩) message
            .ok (.next (pc + 1) (truth (checked.toOption = some true) :: rest))
          else .error .typeMismatch
      else .error .typeMismatch
  | .digest algorithm => onTop items fun value rest =>
      .ok (.next (pc + 1) (algorithm.digest value :: rest))

/-- The instructions that put a value on the stack.  Only these are held to the ceilings. -/
def puts : Instruction → Bool
  | .push _ | .pushb _ | .dup | .copy _ | .not | .eq | .chksig | .digest _ => true
  | .nop | .burn | .jmp _ | .jnz _ | .jz _ | .pop | .swap | .drop _ => false

/-- The ceilings on a stack that a value was put on: the size of that value, the number of values,
the sum of their sizes. -/
def judge (limits : Limits) : List Bytes → Except Reason (List Bytes)
  | [] => .ok []
  | value :: rest =>
    if limits.maxValueSize < value.length then .error .valueTooLarge
    else if limits.maxStackDepth < (value :: rest).length then .error .stackOverflow
    else if limits.maxMemory < weight (value :: rest) then .error .outOfMemory
    else .ok (value :: rest)

/-- One line of the table with the ceilings it is held to. -/
def step (context : Context) (length pc : Nat) (instruction : Instruction) (items : List Bytes) :
    Except Reason Outcome :=
  match effect context.message length pc instruction items with
  | .ok (.next target items) =>
    if puts instruction then (judge context.limits items).map (.next target)
    else .ok (.next target items)
  | outcome => outcome

def verdict : List Bytes → Verdict
  | [] => .rejected .stackUnderflow
  | [value] => if value = [] then .rejected .falseResult else .accepted
  | _ :: _ :: _ => .rejected .uncleanStack

structure Step where
  pc : Nat
  instruction : Instruction
  items : List Bytes
deriving DecidableEq, Repr

structure Run where
  steps : List Step
  verdict : Verdict
deriving DecidableEq, Repr

def runFrom (context : Context) (script : Script) : (budget pc : Nat) → List Bytes → Run
  | budget, pc, items =>
    match script[pc]? with
    | none => ⟨[], verdict items⟩
    | some instruction =>
      match budget with
      | 0 => ⟨[], .rejected .stepLimitExceeded⟩
      | budget + 1 =>
        match step context script.length pc instruction items with
        | .error reason => ⟨[], .rejected reason⟩
        | .ok .burned => ⟨[], .burned⟩
        | .ok (.next target items) =>
          let rest := runFrom context script budget target items
          ⟨⟨pc, instruction, items⟩ :: rest.steps, rest.verdict⟩

def run (context : Context) (script : Script) : Run :=
  runFrom context script context.limits.maxSteps 0 []

example : run {} [.push 2, .pushb [], .swap, .drop 1] =
    ⟨[⟨0, .push 2, [[2]]⟩, ⟨1, .pushb [], [[], [2]]⟩, ⟨2, .swap, [[2], []]⟩, ⟨3, .drop 1, [[2]]⟩],
      .accepted⟩ := by decide

/-! ## An instruction is a line of the table -/

def Outcome.effect : Outcome → Effect
  | .next pc items => .next pc (.ofItems items)
  | .burned => .burned

theorem ofBool_not_isTrue (value : Bytes) : ofBool (!isTrue value) = truth (value = []) := by
  cases value <;> rfl

theorem ofBool_beq (first second : Bytes) : ofBool (first == second) = truth (first = second) := by
  by_cases h : first = second
  · simp [ofBool, truth, h]
  · simp [ofBool, truth, h]

theorem ofBool_signatureHolds (key : Key.PublicKey) (signature : Octets 65)
    (message : Key.Message) :
    ofBool (signatureHolds key signature message) =
      truth ((Key.verify key (.ofOctets signature) message).toOption = some true) := by
  unfold signatureHolds
  cases Key.verify key (.ofOctets signature) message with
  | error e => rfl
  | ok valid => cases valid <;> rfl

theorem push_eq_judge (limits : Limits) (value : Bytes) (items : List Bytes) :
    (Stack.ofItems items).push limits value = (judge limits (value :: items)).map .ofItems := by
  rw [Stack.push_ofItems, judge]
  repeat' split
  all_goals rfl

theorem push_eq_ok {limits : Limits} {value : Bytes} {items : List Bytes}
    (h : (Stack.ofItems (value :: items)).Within limits) :
    (Stack.ofItems items).push limits value = .ok (.ofItems (value :: items)) := by
  have hbelow := h.sublist (List.sublist_cons_self value items)
  exact (Stack.push_ofItems_eq_ok_iff hbelow).2 ⟨rfl, h⟩

theorem jumpTarget_eq (length : Nat) (target : UInt8) (items : List Bytes) :
    (jumpTarget length target >>= fun pc => pure (Effect.next pc (.ofItems items))) =
      (jump length target items).map Outcome.effect := by
  unfold jumpTarget jump
  split <;> rfl

/-- An instruction that ends with a push: what is below is settled by then, and the push is held to
the ceilings as the table asks. -/
theorem perform_eq_of_push {context : Context} {length pc : Nat} {instruction : Instruction}
    {stack : Stack} {items rest : List Bytes} {value : Bytes}
    (hperform : perform context length pc stack instruction =
      (Stack.ofItems rest).push context.limits value >>= fun stack => pure (.next (pc + 1) stack))
    (heffect : effect context.message length pc instruction items =
      .ok (.next (pc + 1) (value :: rest)))
    (hputs : puts instruction = true) :
    perform context length pc stack instruction =
      (step context length pc instruction items).map Outcome.effect := by
  rw [hperform, step, heffect, push_eq_judge]
  simp only [hputs, if_true]
  cases judge context.limits (value :: rest) <;> rfl

theorem step_eq_effect {context : Context} {length pc : Nat} {instruction : Instruction}
    {items : List Bytes} (h : puts instruction = false) :
    step context length pc instruction items =
      effect context.message length pc instruction items := by
  unfold step
  split
  · rename_i target items heffect
    simp [h, heffect]
  · rfl

theorem popSized_ofItems_of_eq {size : Nat} {value : Bytes} (h : value.length = size)
    (rest : List Bytes) :
    (Stack.ofItems (value :: rest)).popSized size = .ok (⟨value, h⟩, .ofItems rest) := by
  rw [Stack.popSized, Stack.pop_ofItems_cons]
  simp only [bind, Except.bind, Octets.ofBytes?, h, dite_true]
  rfl

theorem popSized_ofItems_of_ne {size : Nat} {value : Bytes} (h : value.length ≠ size)
    (rest : List Bytes) :
    (Stack.ofItems (value :: rest)).popSized size = .error .typeMismatch := by
  rw [Stack.popSized, Stack.pop_ofItems_cons]
  simp only [bind, Except.bind, Octets.ofBytes?, h, dite_false]
  rfl

theorem perform_chksig (context : Context) (length pc : Nat) (items : List Bytes) :
    perform context length pc (.ofItems items) .chksig =
      (step context length pc .chksig items).map Outcome.effect := by
  match items with
  | [] => rfl
  | [key] =>
    by_cases hkey : key.length = 64
    · simp only [perform, popSized_ofItems_of_eq hkey, step, effect, onTop, hkey, dite_true]
      rfl
    · simp only [perform, popSized_ofItems_of_ne hkey, step, effect, onTop, hkey, dite_false]
      rfl
  | key :: signature :: rest =>
    by_cases hkey : key.length = 64
    · by_cases hsignature : signature.length = 65
      · have heffect : effect context.message length pc .chksig (key :: signature :: rest) =
            .ok (.next (pc + 1) (ofBool (signatureHolds ⟨key, hkey⟩ ⟨signature, hsignature⟩
              context.message) :: rest)) := by
          rw [ofBool_signatureHolds]
          simp only [effect, onTop, hkey, hsignature, dite_true]
        refine perform_eq_of_push ?_ heffect rfl
        simp only [perform, popSized_ofItems_of_eq hkey, popSized_ofItems_of_eq hsignature, bind,
          Except.bind]
      · simp only [perform, popSized_ofItems_of_eq hkey, popSized_ofItems_of_ne hsignature, bind,
          Except.bind, step, effect, onTop, hkey, hsignature, dite_true, dite_false]
        rfl
    · simp only [perform, popSized_ofItems_of_ne hkey, step, effect, onTop, hkey, dite_false]
      rfl

theorem perform_ofItems (context : Context) (length pc : Nat) {items : List Bytes}
    (h : (Stack.ofItems items).Within context.limits) (instruction : Instruction) :
    perform context length pc (.ofItems items) instruction =
      (step context length pc instruction items).map Outcome.effect := by
  cases instruction with
  | nop => rfl
  | burn => rfl
  | not =>
    cases items with
    | nil => rfl
    | cons value rest =>
      refine perform_eq_of_push ?_ rfl rfl
      rw [perform, Stack.pop_ofItems_cons, ← ofBool_not_isTrue]
      rfl
  | eq =>
    cases items with
    | nil => rfl
    | cons first below =>
      cases below with
      | nil =>
        rw [perform, Stack.pop_ofItems_cons]
        rfl
      | cons second rest =>
        refine perform_eq_of_push ?_ rfl rfl
        simp only [perform, Stack.pop_ofItems_cons, bind, Except.bind, ← ofBool_beq]
  | jmp target =>
    rw [step_eq_effect rfl]
    exact jumpTarget_eq length target items
  | jnz target =>
    rw [step_eq_effect rfl]
    cases items with
    | nil => rfl
    | cons condition rest =>
      rw [perform, Stack.pop_ofItems_cons]
      cases condition with
      | nil => rfl
      | cons _ _ => exact jumpTarget_eq length target rest
  | jz target =>
    rw [step_eq_effect rfl]
    cases items with
    | nil => rfl
    | cons condition rest =>
      rw [perform, Stack.pop_ofItems_cons]
      cases condition with
      | nil => exact jumpTarget_eq length target rest
      | cons _ _ => rfl
  | push value => exact perform_eq_of_push rfl rfl rfl
  | pop =>
    cases items with
    | nil => rfl
    | cons value rest =>
      rw [perform, Stack.pop_ofItems_cons]
      rfl
  | pushb blob => exact perform_eq_of_push rfl rfl rfl
  | dup =>
    cases items with
    | nil => rfl
    | cons top rest =>
      -- what has just been popped goes back on without a complaint
      refine perform_eq_of_push ?_ rfl rfl
      simp only [perform, Stack.pop_ofItems_cons, bind, Except.bind, push_eq_ok h]
  | swap =>
    cases items with
    | nil => rfl
    | cons first below =>
      cases below with
      | nil =>
        rw [perform, Stack.pop_ofItems_cons]
        rfl
      | cons second rest =>
        -- neither push can fail: each leaves no more than there was before
        have hfirst : (Stack.ofItems (first :: rest)).Within context.limits :=
          h.sublist ((List.sublist_cons_self second rest).cons_cons first)
        simp only [perform, Stack.pop_ofItems_cons, bind, Except.bind, push_eq_ok hfirst,
          push_eq_ok h.swap]
        rfl
  | copy depth =>
    cases hitem : items[depth.toNat]? with
    | none =>
      simp only [perform, Stack.get, Stack.items_ofItems, step, effect, hitem]
      rfl
    | some value =>
      have heffect : effect context.message length pc (.copy depth) items =
          .ok (.next (pc + 1) (value :: items)) := by
        simp only [effect, hitem]
      refine perform_eq_of_push ?_ heffect rfl
      simp only [perform, Stack.get, Stack.items_ofItems, hitem]
      rfl
  | drop depth =>
    rw [step_eq_effect rfl]
    by_cases hdepth : depth.toNat < items.length
    · have hremove := Stack.remove_ofItems_of_some (List.getElem?_eq_getElem hdepth)
      simp only [perform, effect, hremove, hdepth, if_true, List.eraseIdx_eq_take_drop_succ]
      rfl
    · have hnone : items[depth.toNat]? = none := List.getElem?_eq_none (Nat.le_of_not_lt hdepth)
      have hremove : (Stack.ofItems items).remove depth.toNat = .error .indexOutOfBound :=
        Stack.remove_of_none hnone
      simp only [perform, effect, hremove, hdepth, if_false]
      rfl
  | chksig => exact perform_chksig context length pc items
  | digest algorithm =>
    cases items with
    | nil => rfl
    | cons value rest =>
      refine perform_eq_of_push ?_ rfl rfl
      rw [perform, Stack.pop_ofItems_cons]
      rfl

theorem perform_of_step {context : Context} {length pc : Nat} {items : List Bytes}
    {instruction : Instruction} {result : Except Reason Outcome}
    (h : (Stack.ofItems items).Within context.limits)
    (hstep : step context length pc instruction items = result) :
    perform context length pc (.ofItems items) instruction = result.map Outcome.effect := by
  rw [perform_ofItems context length pc h, hstep]

/-! ## A run is a run of the table machine -/

def Step.of (step : Machine.Step) : Step := ⟨step.pc, step.instruction, step.stack.items⟩

def Run.of (run : Machine.Run) : Run := ⟨run.steps.map Step.of, run.verdict⟩

theorem conclude_eq_verdict (stack : Stack) : conclude stack = verdict stack.items := by
  obtain ⟨items, memory, depth, rfl⟩ := stack
  match items with
  | [] => rfl
  | [[]] => rfl
  | [_ :: _] => rfl
  | _ :: _ :: _ => rfl

theorem runFrom_ofItems (context : Context) (script : Script) (budget pc : Nat)
    {items : List Bytes} (h : (Stack.ofItems items).Within context.limits) :
    Run.of (Machine.runFrom context script budget pc (.ofItems items) []) =
      runFrom context script budget pc items := by
  fun_induction runFrom context script budget pc items with
  | case1 budget pc items hpc =>
    rw [runFrom_end hpc, conclude_eq_verdict]
    rfl
  | case2 pc items instruction hpc =>
    rw [runFrom_exhausted hpc]
    rfl
  | case3 pc items instruction hpc budget reason hstep =>
    rw [runFrom_error hpc (perform_of_step h hstep)]
    rfl
  | case4 pc items instruction hpc budget hstep =>
    rw [runFrom_burned hpc (perform_of_step h hstep)]
    rfl
  | case5 pc items instruction hpc budget target next hstep rest ih =>
    have hperform := perform_of_step h hstep
    have hrest := ih (within_of_perform h hperform)
    rw [runFrom_next hpc hperform, runFrom_done]
    simp only [rest, ← hrest]
    rfl

/-! ## The ceilings -/

section

variable {items : List Bytes} {reason : Reason}

theorem onTop_error {act : Bytes → List Bytes → Except Reason Outcome}
    (hact : ∀ value rest, act value rest = .error reason → reason.isCeiling = false)
    (h : onTop items act = .error reason) : reason.isCeiling = false := by
  cases items with
  | nil =>
    cases h
    rfl
  | cons value rest => exact hact value rest h

theorem onTopTwo_error {act : Bytes → Bytes → List Bytes → Except Reason Outcome}
    (hact : ∀ first second rest, act first second rest = .error reason →
      reason.isCeiling = false)
    (h : onTopTwo items act = .error reason) : reason.isCeiling = false := by
  match items with
  | [] =>
    cases h
    rfl
  | [_] =>
    cases h
    rfl
  | first :: second :: rest => exact hact first second rest h

theorem jump_error {length : Nat} {target : UInt8} (h : jump length target items = .error reason) :
    reason.isCeiling = false := by
  unfold jump at h
  split at h
  · cases h
  · cases h
    rfl

theorem effect_error {message : Key.Message} {length pc : Nat} {instruction : Instruction}
    (h : effect message length pc instruction items = .error reason) :
    reason.isCeiling = false := by
  cases instruction with
  | nop | burn | push | pushb => cases h
  | not | pop | dup | digest =>
    refine onTop_error ?_ h
    intro value rest h
    cases h
  | eq | swap =>
    refine onTopTwo_error ?_ h
    intro first second rest h
    cases h
  | jmp target => exact jump_error h
  | jnz target =>
    refine onTop_error ?_ h
    intro condition rest h
    split at h
    · cases h
    · exact jump_error h
  | jz target =>
    refine onTop_error ?_ h
    intro condition rest h
    split at h
    · exact jump_error h
    · cases h
  | copy depth =>
    simp only [effect] at h
    split at h
    · cases h
    · cases h
      rfl
  | drop depth =>
    simp only [effect] at h
    split at h
    · cases h
    · cases h
      rfl
  | chksig =>
    refine onTop_error ?_ h
    intro key rest h
    split at h
    · refine onTop_error ?_ h
      intro signature rest h
      split at h
      · cases h
      · cases h
        rfl
    · cases h
      rfl

end

theorem puts_of_step_error {context : Context} {length pc : Nat} {instruction : Instruction}
    {items : List Bytes} {reason : Reason}
    (h : step context length pc instruction items = .error reason)
    (hreason : reason.isCeiling = true) : puts instruction = true := by
  by_cases hputs : puts instruction = true
  · exact hputs
  · rw [step_eq_effect (Bool.eq_false_iff.2 hputs)] at h
    rw [effect_error h] at hreason
    cases hreason

end Table

/-- Tracing and executing a script do what the table machine does, step by step and with the same
verdict, and in the table only the instructions that put a value on the stack can be turned down
by a ceiling. -/
theorem trace_eq_table (context : Context) (script : Script) :
    Table.Run.of (trace context script).1 = Table.run context script ∧
    (execute context script).1 = (Table.run context script).verdict ∧
    ∀ (pc : Nat) (instruction : Instruction) (items : List Bytes) (reason : Reason),
      Table.step context script.length pc instruction items = .error reason →
        reason.isCeiling = true → Table.puts instruction = true := by
  have hrun : Table.Run.of (run context script .empty) = Table.run context script :=
    Table.runFrom_ofItems context script context.limits.maxSteps 0
      (Stack.within_empty context.limits)
  refine ⟨hrun, ?_, ?_⟩
  · exact congrArg Table.Run.verdict hrun
  · intro pc instruction items reason hstep hreason
    exact Table.puts_of_step_error hstep hreason

theorem trace_eq_table_push :
    Table.step { limits := { maxValueSize := 0 } } 1 0 (.push 5) [] = .error .valueTooLarge ∧
      Table.puts (.push 5) = true := by
  have hstep : Table.step { limits := { maxValueSize := 0 } } 1 0 (.push 5) [] =
      .error .valueTooLarge := rfl
  exact ⟨hstep, (trace_eq_table { limits := { maxValueSize := 0 } } [.push 5]).2.2
    0 (.push 5) [] .valueTooLarge hstep rfl⟩

end Machine
end LockScript
