import LockScript.Bytes

/-!
Arithmetic on machine words, and what it refuses.

The numbers of the machine are unbounded, its lists answer to any index, and a difference below zero
is zero.  A processor has words and slices, and stops where a sum does not fit, a difference would
be negative or an index is behind the end.  A `Guarded` computation does every such operation with
its check.  It ends in a hazard, or in a result or a reason of its own; `Follows` says that it meets
no hazard and comes to what an unguarded computation comes to.
-/

namespace LockScript

inductive Hazard where
  /-- A sum that does not fit in a word. -/
  | overflow
  /-- A difference below zero. -/
  | underflow
  /-- An access behind the end of a slice. -/
  | outOfRange
  /-- A fixed size asked of a slice that has another. -/
  | wrongSize
  /-- A position that is neither in a script nor at its end. -/
  | strayed
deriving DecidableEq, Repr

namespace Word

def add (a b : Nat) : Except Hazard Nat :=
  if a + b < UInt64.size then .ok (a + b) else .error .overflow

def sub (a b : Nat) : Except Hazard Nat :=
  if b ≤ a then .ok (a - b) else .error .underflow

def fetch {α : Type} (slice : List α) (index : Nat) : Except Hazard α :=
  match slice[index]? with
  | some item => .ok item
  | none => .error .outOfRange

/-- The slices of a process are shorter than this. -/
def sliceBound : Nat := UInt64.size / 2

theorem add_eq {a b : Nat} (h : a + b < UInt64.size) : add a b = .ok (a + b) :=
  if_pos h

theorem eq_of_add {a b sum : Nat} (h : add a b = .ok sum) : sum = a + b := by
  unfold add at h
  split at h
  · cases h
    rfl
  · cases h

theorem sub_eq {a b : Nat} (h : b ≤ a) : sub a b = .ok (a - b) :=
  if_pos h

theorem fetch_eq {α : Type} {slice : List α} {index : Nat} {item : α}
    (h : slice[index]? = some item) : fetch slice index = .ok item := by
  rw [fetch, h]

end Word

/-- A computation that gives up for a reason of its own or is stopped by a hazard. -/
abbrev Guarded (ε α : Type) := ExceptT ε (Except Hazard) α

namespace Guarded

variable {ε α β γ δ : Type}

/-- An operation whose check stops the computation if it fails. -/
def checked (operation : Except Hazard α) : Guarded ε α := ExceptT.lift operation

/-- A computation without such operations. -/
def harmless (result : Except ε α) : Guarded ε α := ExceptT.mk (.ok result)

/-- There is no hazard, and what `model` comes to is seen through `view`. -/
def Follows (view : α → β) (model : Except ε α) (guarded : Guarded ε β) : Prop :=
  guarded.run = .ok (model.map view)

theorem follows_pure (view : α → β) (a : α) : Follows view (pure a) (pure (view a) : Guarded ε β) :=
  rfl

theorem follows_throw (view : α → β) (reason : ε) :
    Follows view (.error reason) (throw reason : Guarded ε β) :=
  rfl

theorem follows_harmless (model : Except ε α) : Follows id model (harmless model) := by
  cases model <;> rfl

theorem Follows.bind {view : α → β} {seen : γ → δ} {model : Except ε α} {guarded : Guarded ε β}
    {next : α → Except ε γ} {step : β → Guarded ε δ} (h : Follows view model guarded)
    (hnext : ∀ a, model = .ok a → Follows seen (next a) (step (view a))) :
    Follows seen (model >>= next) (guarded >>= step) := by
  have hrun : (guarded >>= step).run = guarded.run >>= ExceptT.bindCont step := rfl
  unfold Follows at h ⊢
  rw [hrun, h]
  cases model with
  | error reason => rfl
  | ok a => exact hnext a rfl

theorem Follows.bind_pure {view : α → β} {seen : γ → δ} {model : Except ε α} {guarded : Guarded ε β}
    {next : α → γ} {step : β → δ} (h : Follows view model guarded)
    (hnext : ∀ a, seen (next a) = step (view a)) :
    Follows seen (model >>= fun a => pure (next a)) (guarded >>= fun b => pure (step b)) := by
  refine h.bind ?_
  intro a _
  rw [← hnext a]
  exact follows_pure seen (next a)

theorem checked_bind {operation : Except Hazard α} {a : α} {next : α → Guarded ε β}
    (h : operation = .ok a) : (checked operation >>= next) = next a := by
  subst h
  rfl

theorem run_bind_eq_ok {guarded : Guarded ε α} {next : α → Guarded ε β} {b : β}
    (h : (guarded >>= next).run = .ok (.ok b)) :
    ∃ a, guarded.run = .ok (.ok a) ∧ (next a).run = .ok (.ok b) := by
  have hrun : (guarded >>= next).run = guarded.run >>= ExceptT.bindCont next := rfl
  rw [hrun] at h
  cases hguarded : guarded.run with
  | error hazard =>
    rw [hguarded] at h
    cases h
  | ok result =>
    rw [hguarded] at h
    cases result with
    | error reason => cases h
    | ok a => exact ⟨a, rfl, h⟩

theorem eq_of_run_checked {operation : Except Hazard α} {a : α}
    (h : (checked operation : Guarded ε α).run = .ok (.ok a)) : operation = .ok a := by
  cases operation with
  | error hazard => cases h
  | ok value =>
    cases h
    rfl

end Guarded
end LockScript
