import LockScript.Bytes
import LockScript.Machine.Limits
import LockScript.Machine.Verdict

/-!
The stack of the machine.

The stack counts its values and the bytes in them as values come and go, so that a
push can be held against the ceilings without a look at what lies below.
-/

namespace LockScript
namespace Machine

/-- Every value but the empty one is true, zeros included. -/
def isTrue (value : Bytes) : Bool := !value.isEmpty

def ofBool (b : Bool) : Bytes := if b then [1] else []

structure Stack where
  /-- The values, the top one first. -/
  items : List Bytes
  /-- The sum of their sizes. -/
  memory : Nat
  depth : Nat
  length_items : items.length = depth
deriving DecidableEq, Repr

namespace Stack

def empty : Stack := ⟨[], 0, 0, rfl⟩

/-- The values, the bottom one first. -/
def values (stack : Stack) : List Bytes := stack.items.reverse

/-- Puts a value on top unless a ceiling forbids it: its size, the depth, the memory, in this
order. -/
def push (limits : Limits) (value : Bytes) (stack : Stack) : Except Reason Stack :=
  if limits.maxValueSize < value.length then .error .valueTooLarge
  else if limits.maxStackDepth ≤ stack.depth then .error .stackOverflow
  else if limits.maxMemory < stack.memory + value.length then .error .outOfMemory
  else .ok ⟨value :: stack.items, stack.memory + value.length, stack.depth + 1,
    by rw [List.length_cons, stack.length_items]⟩

def pop : Stack → Except Reason (Bytes × Stack)
  | ⟨[], _, _, _⟩ => .error .stackUnderflow
  | ⟨value :: rest, memory, depth, h⟩ =>
    .ok (value, ⟨rest, memory - value.length, depth - 1, by rw [← h]; rfl⟩)

def popSized (size : Nat) (stack : Stack) : Except Reason (Octets size × Stack) := do
  let (value, stack) ← stack.pop
  match Octets.ofBytes? size value with
  | some octets => return (octets, stack)
  | none => throw .typeMismatch

/-- The value at a depth; the top one is at zero. -/
def get (stack : Stack) (index : Nat) : Except Reason Bytes :=
  match stack.items[index]? with
  | some value => .ok value
  | none => .error .indexOutOfBound

def remove (stack : Stack) (index : Nat) : Except Reason Stack :=
  match h : stack.items[index]? with
  | some value =>
    .ok ⟨stack.items.eraseIdx index, stack.memory - value.length, stack.depth - 1, by
      rw [List.length_eraseIdx_of_lt (List.getElem?_eq_some_iff.1 h).1, stack.length_items]⟩
  | none => .error .indexOutOfBound

/-- Pushes values one after the other, the last one on top. -/
def pushAll (limits : Limits) : List Bytes → Stack → Except Reason Stack
  | [], stack => .ok stack
  | value :: rest, stack => do pushAll limits rest (← stack.push limits value)

end Stack
end Machine
end LockScript
