/-!
The ceilings a run is held to.
-/

namespace LockScript
namespace Machine

structure Limits where
  /-- The sum of the sizes of all values on the stack. -/
  maxMemory : Nat := 1024
  /-- The number of instructions, every pass through a loop counted. -/
  maxSteps : Nat := 1000
  maxStackDepth : Nat := 256
  maxValueSize : Nat := 512
deriving DecidableEq, Repr

inductive Ceiling where
  | memory
  | steps
  | stackDepth
  | valueSize
deriving DecidableEq, Repr

namespace Ceiling

def all : List Ceiling := [memory, steps, stackDepth, valueSize]

theorem mem_all (ceiling : Ceiling) : ceiling ∈ all := by
  cases ceiling <;> decide

def name : Ceiling → String
  | memory => "max_memory"
  | steps => "max_steps"
  | stackDepth => "max_stack_depth"
  | valueSize => "max_value_size"

def option : Ceiling → String
  | memory => "max-memory"
  | steps => "max-steps"
  | stackDepth => "max-stack-depth"
  | valueSize => "max-value-size"

def ofName? (text : String) : Option Ceiling :=
  all.find? (fun ceiling => ceiling.name == text)

theorem ofName?_name (ceiling : Ceiling) : ofName? ceiling.name = some ceiling := by
  cases ceiling <;> rfl

end Ceiling

namespace Limits

def standard : Limits := {}

def value (limits : Limits) : Ceiling → Nat
  | .memory => limits.maxMemory
  | .steps => limits.maxSteps
  | .stackDepth => limits.maxStackDepth
  | .valueSize => limits.maxValueSize

def update (limits : Limits) (changes : Ceiling → Option Nat) : Limits where
  maxMemory := (changes .memory).getD limits.maxMemory
  maxSteps := (changes .steps).getD limits.maxSteps
  maxStackDepth := (changes .stackDepth).getD limits.maxStackDepth
  maxValueSize := (changes .valueSize).getD limits.maxValueSize

theorem value_update (limits : Limits) (changes : Ceiling → Option Nat) (ceiling : Ceiling) :
    (limits.update changes).value ceiling = (changes ceiling).getD (limits.value ceiling) := by
  cases ceiling <;> rfl

theorem ext_value {limits other : Limits}
    (h : ∀ ceiling, limits.value ceiling = other.value ceiling) : limits = other := by
  cases limits
  cases other
  exact (mk.injEq ..).mpr ⟨h .memory, h .steps, h .stackDepth, h .valueSize⟩

def zeros (limits : Limits) : List Ceiling :=
  Ceiling.all.filter (fun ceiling => limits.value ceiling == 0)

def inspect (limits : Limits) : String :=
  let entry (ceiling : Ceiling) := ceiling.name ++ ": " ++ toString (limits.value ceiling)
  "Vm \x7b " ++ ", ".intercalate (Ceiling.all.map entry) ++ " \x7d"

end Limits
end Machine
end LockScript
