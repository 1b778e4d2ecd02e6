import LockScript.Proofs.Machine.Attempts

/-!
Code that is not reached.

A script is looked at only where a run is, and from elsewhere nothing but its length comes in, as
the bound on jumps.  So two scripts of one length that hold the same instructions wherever the run of
the first has been make the same run: branches not taken, code behind an instruction that burns and
operands that would be turned down are of no account.  The message to be signed is looked at by
signature checks alone.
-/

namespace LockScript
namespace Machine

theorem perform_of_ne_chksig (message message' : Key.Message) (limits : Limits)
    (length pc : Nat) (stack : Stack) {instruction : Instruction} (h : instruction ≠ .chksig) :
    perform ⟨message', limits⟩ length pc stack instruction =
      perform ⟨message, limits⟩ length pc stack instruction := by
  cases instruction with
  | chksig => exact absurd rfl h
  | _ => rfl

theorem abreast_of_eq {context context' : Context} {script script' : Script} {attempt : Attempt}
    (hfetch : script[attempt.pc]? = some attempt.instruction)
    (h : pass context' script' attempt.pc attempt.stack =
      pass context script attempt.pc attempt.stack) :
    Abreast (fun _ run run' => run' = run) attempt (pass context script attempt.pc attempt.stack)
      (pass context' script' attempt.pc attempt.stack) := by
  rw [h, pass_of_some hfetch]
  match perform context script.length attempt.pc attempt.stack attempt.instruction with
  | .error reason => exact .halt rfl
  | .ok .burned => exact .halt rfl
  | .ok (.next target next) =>
    refine .go rfl ?_
    intro _ run run' hsame
    rw [hsame]

/-- Runs that agree on the instruction and on what it does, wherever the first one has been. -/
theorem run_of_agree (context context' : Context) {script script' : Script} (stack : Stack)
    (hsteps : context'.limits.maxSteps = context.limits.maxSteps)
    (hlength : script'.length = script.length)
    (hagree : ∀ attempt ∈ attempts context script stack,
      script'[attempt.pc]? = script[attempt.pc]?)
    (hperform : ∀ attempt ∈ attempts context script stack,
      perform context' script.length attempt.pc attempt.stack attempt.instruction =
        perform context script.length attempt.pc attempt.stack attempt.instruction) :
    run context' script' stack = run context script stack := by
  rw [run, run, hsteps]
  refine runFrom_abreast (fun _ run run' => run' = run) hlength (fun _ => rfl)
    context.limits.maxSteps 0 stack ?_
  intro attempt hattempt
  have hfetch := fetch_of_mem_attemptsFrom hattempt
  have hfetch' : script'[attempt.pc]? = some attempt.instruction := by
    rw [hagree attempt hattempt, hfetch]
  -- the length is the same, so jumps have the same bound
  apply abreast_of_eq hfetch
  rw [pass_of_some hfetch, pass_of_some hfetch', hlength, hperform attempt hattempt]

section

variable {message message' : Key.Message} {limits : Limits} {script : Script}

/-- Messages that no instruction of a script tells apart make the same run. -/
theorem run_of_message (h : ∀ instruction ∈ script, ∀ length pc stack,
      perform ⟨message', limits⟩ length pc stack instruction =
        perform ⟨message, limits⟩ length pc stack instruction) (stack : Stack) :
    run ⟨message', limits⟩ script stack = run ⟨message, limits⟩ script stack := by
  refine run_of_agree ⟨message, limits⟩ ⟨message', limits⟩ stack rfl rfl (fun _ _ => rfl) ?_
  intro attempt hattempt
  have hfetch := fetch_of_mem_attemptsFrom hattempt
  exact h attempt.instruction (List.mem_of_getElem? hfetch) script.length attempt.pc attempt.stack

theorem unlock_of_message (h : ∀ instruction ∈ script, ∀ length pc stack,
      perform ⟨message', limits⟩ length pc stack instruction =
        perform ⟨message, limits⟩ length pc stack instruction) (unlocking : Script)
    (params : List Bytes) :
    unlock ⟨message', limits⟩ unlocking params script =
      unlock ⟨message, limits⟩ unlocking params script := by
  simp only [unlock, run_of_message h]

end

/-- Code that is not reached has no influence.  If a script of the same length holds the same
instruction wherever the run of the first has been, its trace is the same.  If no signature check
was among these instructions, the message may be another one too. -/
theorem trace_of_agree (message message' : Key.Message) (limits : Limits)
    (script script' : Script) (hlength : script'.length = script.length)
    (hagree : ∀ attempt ∈ attempts ⟨message, limits⟩ script .empty,
      script'[attempt.pc]? = script[attempt.pc]?) :
    trace ⟨message, limits⟩ script' = trace ⟨message, limits⟩ script ∧
    ((∀ attempt ∈ attempts ⟨message, limits⟩ script .empty,
        attempt.instruction ≠ .chksig) →
      trace ⟨message', limits⟩ script' = trace ⟨message, limits⟩ script) := by
  refine ⟨?_, ?_⟩
  · have hrun := run_of_agree ⟨message, limits⟩ ⟨message, limits⟩ .empty rfl hlength hagree
      fun _ _ => rfl
    rw [trace, trace, hrun]
  · intro hchecks
    have hperform : ∀ attempt ∈ attempts ⟨message, limits⟩ script .empty,
        perform ⟨message', limits⟩ script.length attempt.pc attempt.stack attempt.instruction =
          perform ⟨message, limits⟩ script.length attempt.pc attempt.stack
            attempt.instruction := by
      intro attempt hattempt
      exact perform_of_ne_chksig message message' limits _ _ _ (hchecks attempt hattempt)
    have hrun := run_of_agree ⟨message, limits⟩ ⟨message', limits⟩ .empty rfl hlength hagree
      hperform
    rw [trace, trace, hrun]

/-- A jump over a signature check is a jump over anything, whatever the message. -/
theorem trace_of_agree_jump :
    ⟨1, .jmp 3, .ofItems [[1]]⟩ ∈ attempts {} [.push 1, .jmp 3, .chksig] .empty ∧
      (∀ attempt ∈ attempts {} [.push 1, .jmp 3, .chksig] .empty,
        ([.push 1, .jmp 3, .drop 9] : Script)[attempt.pc]? =
            ([.push 1, .jmp 3, .chksig] : Script)[attempt.pc]? ∧
          attempt.instruction ≠ .chksig) ∧
      trace { message := .ofNat 32 7 } [.push 1, .jmp 3, .drop 9] =
        trace {} [.push 1, .jmp 3, .chksig] := by
  have hvisited : ∀ attempt ∈ attempts {} [.push 1, .jmp 3, .chksig] .empty,
      ([.push 1, .jmp 3, .drop 9] : Script)[attempt.pc]? =
          ([.push 1, .jmp 3, .chksig] : Script)[attempt.pc]? ∧
        attempt.instruction ≠ .chksig := by decide
  have htrace := trace_of_agree (.zero 32) (.ofNat 32 7) .standard [.push 1, .jmp 3, .chksig]
    [.push 1, .jmp 3, .drop 9] rfl fun attempt hattempt => (hvisited attempt hattempt).1
  exact ⟨by decide, hvisited, htrace.2 fun attempt hattempt => (hvisited attempt hattempt).2⟩

end Machine
end LockScript
