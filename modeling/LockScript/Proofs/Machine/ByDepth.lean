import LockScript.Proofs.Machine.Attempts
import LockScript.Proofs.Machine.Table

/-!
The top value by its depth.

`dup` and `pop` work on the top of the stack, and `copy` and `drop` on the value at a depth, of which
the top has depth zero.  Duplicating takes the value off and pushes it twice, so that it is held to
the ceilings two times, and copying pushes it once.  On a stack that keeps to the ceilings the first
of the two pushes only restores what was there, and nothing is left of the difference but the reason
that is given for an empty stack.
-/

namespace LockScript

/-- The same on the value at depth zero, for an instruction on the top. -/
def Instruction.byDepth : Instruction → Instruction
  | dup => copy 0
  | pop => drop 0
  | instruction => instruction

namespace Script

/-- The script with `byDepth` at the chosen positions. -/
def byDepth (chosen : Nat → Bool) (script : Script) : Script :=
  script.mapIdx fun pc instruction => if chosen pc then instruction.byDepth else instruction

theorem length_byDepth (chosen : Nat → Bool) (script : Script) :
    (script.byDepth chosen).length = script.length :=
  List.length_mapIdx

theorem getElem?_byDepth (chosen : Nat → Bool) (script : Script) (pc : Nat) :
    (script.byDepth chosen)[pc]? = script[pc]?.map fun instruction =>
      if chosen pc then instruction.byDepth else instruction :=
  List.getElem?_mapIdx

example : byDepth (· % 2 == 0) [.push 3, .dup, .pop, .pop] = [.push 3, .dup, .drop 0, .pop] := by
  decide

end Script

namespace Machine

/-! ## One instruction -/

theorem perform_byDepth {context : Context} {stack : Stack} (length pc : Nat)
    (h : stack.Within context.limits) (hne : stack.items ≠ []) (instruction : Instruction) :
    perform context length pc stack instruction.byDepth =
      perform context length pc stack instruction := by
  obtain ⟨top, rest, hitems⟩ := List.exists_cons_of_ne_nil hne
  have hstack : stack = .ofItems (top :: rest) := by
    rw [h.eq_ofItems, hitems]
  subst hstack
  cases instruction with
  | dup | pop =>
    -- in the table both spellings leave the same stack, and the ceilings are held against that
    rw [Instruction.byDepth, Table.perform_ofItems context length pc h,
      Table.perform_ofItems context length pc h]
    rfl
  | _ => rfl

theorem perform_byDepth_of_nil (context : Context) (length pc : Nat) {stack : Stack}
    (hitems : stack.items = []) {instruction : Instruction}
    (h : instruction = .dup ∨ instruction = .pop) :
    perform context length pc stack instruction = .error .stackUnderflow ∧
      perform context length pc stack instruction.byDepth = .error .indexOutOfBound := by
  obtain ⟨items, memory, depth, hdepth⟩ := stack
  subst hitems
  rcases h with rfl | rfl
  · exact ⟨rfl, rfl⟩
  · exact ⟨rfl, rfl⟩

theorem byDepth_of_ne {instruction : Instruction}
    (h : ¬ (instruction = .dup ∨ instruction = .pop)) : instruction.byDepth = instruction := by
  cases instruction with
  | dup => exact absurd (.inl rfl) h
  | pop => exact absurd (.inr rfl) h
  | _ => rfl

/-! ## Runs -/

/-- An instruction that was replaced and finds no value on the stack. -/
def Attempt.Lacks (chosen : Nat → Bool) (attempt : Attempt) : Prop :=
  chosen attempt.pc = true ∧ (attempt.instruction = .dup ∨ attempt.instruction = .pop) ∧
    attempt.stack.items = []

instance (chosen : Nat → Bool) (attempt : Attempt) : Decidable (attempt.Lacks chosen) :=
  inferInstanceAs (Decidable (_ ∧ _ ∧ _))

/-- Where a step was made and what it left, whichever instruction it was. -/
def Step.moment (step : Step) : Nat × Stack := (step.pc, step.stack)

/-- A run and the run of the script with replaced instructions, along the attempts of the first. -/
structure Respelled (chosen : Nat → Bool) (attempts : List Attempt) (run respelled : Run) :
    Prop where
  moments : respelled.steps.map Step.moment = run.steps.map Step.moment
  lacking : (∃ attempt ∈ attempts, attempt.Lacks chosen) →
    run.verdict = .rejected .stackUnderflow ∧ respelled.verdict = .rejected .indexOutOfBound
  other : (¬ ∃ attempt ∈ attempts, attempt.Lacks chosen) → respelled.verdict = run.verdict

section

variable {chosen : Nat → Bool}

theorem respelled_of_not_lacks {attempts : List Attempt}
    (h : ¬ ∃ attempt ∈ attempts, attempt.Lacks chosen) (verdict : Verdict) :
    Respelled chosen attempts (.ended verdict) (.ended verdict) where
  moments := rfl
  lacking hlacks := absurd hlacks h
  other _ := rfl

theorem Respelled.after {attempt : Attempt} {rest : List Attempt} {run respelled : Run}
    (h : Respelled chosen rest run respelled) (hattempt : ¬ attempt.Lacks chosen)
    {step step' : Step} (hmoment : step'.moment = step.moment) :
    Respelled chosen (attempt :: rest) (run.after step) (respelled.after step') := by
  have hcons : (∃ other ∈ attempt :: rest, other.Lacks chosen) ↔
      ∃ other ∈ rest, other.Lacks chosen := by
    simp [hattempt]
  refine ⟨?_, ?_, ?_⟩
  · simp only [Run.after, List.map_cons, hmoment, h.moments]
  · rw [hcons]
    exact h.lacking
  · rw [hcons]
    exact h.other

theorem abreast_byDepth {context : Context} {script : Script} {attempt : Attempt}
    (hfetch : script[attempt.pc]? = some attempt.instruction)
    (hwithin : attempt.stack.Within context.limits) :
    Abreast (Respelled chosen) attempt (pass context script attempt.pc attempt.stack)
      (pass context (script.byDepth chosen) attempt.pc attempt.stack) := by
  have hfetch' : (script.byDepth chosen)[attempt.pc]? =
      some (if chosen attempt.pc then attempt.instruction.byDepth else attempt.instruction) := by
    rw [Script.getElem?_byDepth, hfetch]
    rfl
  rw [pass_of_some hfetch, pass_of_some hfetch', Script.length_byDepth]
  by_cases hlacks : attempt.Lacks chosen
  · obtain ⟨hchosen, hinstruction, hitems⟩ := hlacks
    obtain ⟨hperform, hperform'⟩ :=
      perform_byDepth_of_nil context script.length attempt.pc hitems hinstruction
    rw [if_pos hchosen, hperform, hperform']
    refine .halt ⟨rfl, fun _ => ⟨rfl, rfl⟩, fun hnone => ?_⟩
    exact absurd ⟨attempt, List.mem_cons_self, hchosen, hinstruction, hitems⟩ hnone
  · have hsame : perform context script.length attempt.pc attempt.stack
          (if chosen attempt.pc then attempt.instruction.byDepth else attempt.instruction) =
        perform context script.length attempt.pc attempt.stack attempt.instruction := by
      by_cases hchosen : chosen attempt.pc = true
      · rw [if_pos hchosen]
        by_cases hitems : attempt.stack.items = []
        · rw [byDepth_of_ne fun hinstruction => hlacks ⟨hchosen, hinstruction, hitems⟩]
        · exact perform_byDepth _ _ hwithin hitems _
      · rw [if_neg hchosen]
    have hnone : ¬ ∃ other ∈ [attempt], other.Lacks chosen := by simpa using hlacks
    rw [hsame]
    match perform context script.length attempt.pc attempt.stack attempt.instruction with
    | .error reason => exact .halt (respelled_of_not_lacks hnone _)
    | .ok .burned => exact .halt (respelled_of_not_lacks hnone _)
    | .ok (.next target next) => exact .go rfl fun _ _ _ hrest => hrest.after hlacks rfl

end

theorem run_byDepth (context : Context) (script : Script) (chosen : Nat → Bool) {stack : Stack}
    (h : stack.Within context.limits) :
    Respelled chosen (attempts context script stack) (run context script stack)
      (run context (script.byDepth chosen) stack) := by
  refine runFrom_abreast (Respelled chosen) (script.length_byDepth chosen) ?_
    context.limits.maxSteps 0 stack ?_
  · intro verdict
    exact respelled_of_not_lacks (by simp) verdict
  · intro attempt hattempt
    exact abreast_byDepth (fetch_of_mem_attemptsFrom hattempt)
      (within_of_mem_attemptsFrom h hattempt)

/-- To duplicate is to copy depth zero, and to pop is to drop depth zero.  Wherever a script is
written so, it goes through the same positions and stacks and ends with the same verdict, unless a
replaced instruction finds the stack empty: then one run gives an underflow as the reason and the
other an index out of bound. -/
theorem trace_byDepth (context : Context) (script : Script) (chosen : Nat → Bool) :
    (trace context (script.byDepth chosen)).1.steps.map Step.moment =
      (trace context script).1.steps.map Step.moment ∧
    ((∃ attempt ∈ attempts context script .empty, attempt.Lacks chosen) →
      (trace context script).1.verdict = .rejected .stackUnderflow ∧
        (trace context (script.byDepth chosen)).1.verdict = .rejected .indexOutOfBound) ∧
    ((¬ ∃ attempt ∈ attempts context script .empty, attempt.Lacks chosen) →
      (trace context (script.byDepth chosen)).1.verdict = (trace context script).1.verdict) := by
  have hrun := run_byDepth context script chosen (Stack.within_empty context.limits)
  exact ⟨hrun.moments, hrun.lacking, hrun.other⟩

/-- The second of two `pop`s finds nothing.  If it is the one replaced, the reason is another. -/
theorem trace_byDepth_pop :
    ⟨2, .pop, .empty⟩ ∈ attempts {} [.push 1, .pop, .pop] .empty ∧
      Script.byDepth (· == 2) [.push 1, .pop, .pop] = [.push 1, .pop, .drop 0] ∧
      (trace {} [.push 1, .pop, .drop 0]).1.verdict = .rejected .indexOutOfBound ∧
      Script.byDepth (· == 1) [.push 1, .pop, .pop] = [.push 1, .drop 0, .pop] ∧
      (trace {} [.push 1, .drop 0, .pop]).1.verdict =
        (trace {} [.push 1, .pop, .pop]).1.verdict := by
  have hmem : ⟨2, .pop, .empty⟩ ∈ attempts {} [.push 1, .pop, .pop] .empty := by decide
  have hsecond := (trace_byDepth {} [.push 1, .pop, .pop] (· == 2)).2.1
    ⟨_, hmem, rfl, .inr rfl, rfl⟩
  have hfirst := (trace_byDepth {} [.push 1, .pop, .pop] (· == 1)).2.2 (by decide)
  exact ⟨hmem, rfl, hsecond.2, rfl, hfirst⟩

end Machine
end LockScript
