import LockScript.Instruction

/-!
Scripts, the two checks made on them before they run, and their printed form.  It has one
instruction a line, each behind its position.
-/

namespace LockScript

/-- A script is its instructions in order; a jump names a position in this list. -/
abbrev Script := List Instruction

namespace Script

/-- Only constants are pushed.  An unlock script has to be of this form. -/
def pushOnly (script : Script) : Bool :=
  script.all (fun instruction => instruction.pushed?.isSome)

/-- The values a push-only script leaves on the stack, the last one on top. -/
def pushedValues (script : Script) : List Bytes :=
  script.filterMap Instruction.pushed?

theorem pushOnly_append (first second : Script) :
    pushOnly (first ++ second) = (first.pushOnly && second.pushOnly) :=
  List.all_append

theorem pushedValues_append (first second : Script) :
    pushedValues (first ++ second) = first.pushedValues ++ second.pushedValues :=
  List.filterMap_append

theorem pushedValues_cons {instruction : Instruction} {script : Script}
    (h : pushOnly (instruction :: script) = true) :
    ∃ value, instruction.pushed? = some value ∧ script.pushOnly = true ∧
      pushedValues (instruction :: script) = value :: script.pushedValues := by
  rw [pushOnly, List.all_cons, Bool.and_eq_true] at h
  obtain ⟨value, hvalue⟩ := Option.isSome_iff_exists.1 h.1
  exact ⟨value, hvalue, h.2, List.filterMap_cons_some hvalue⟩

/-- The number of signature checks written in a script. -/
def signatureChecks (script : Script) : Nat :=
  script.count .chksig

def maxSignatureChecks : Nat := 5

def tooManyChecks (script : Script) : Bool :=
  maxSignatureChecks < script.signatureChecks

def padLeft (width n : Nat) : String :=
  let digits := toString n
  String.ofList (List.replicate (width - digits.length) ' ') ++ digits

/-- The lines of a listing.  The positions are as wide as the last one. -/
def listing (script : Script) : List String :=
  let width := (toString (script.length - 1)).length
  script.mapIdx (fun index instruction => padLeft width index ++ ": " ++ instruction.text)

end Script
end LockScript
