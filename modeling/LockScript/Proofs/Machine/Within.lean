import LockScript.Machine.Stack
import LockScript.Proofs.Basic

/-!
Stacks that count right and keep to the ceilings.

The memory count of a stack is a number beside its values, and nothing in the type
ties the two together.  `Within` says that the count is the sum it stands for and
that no ceiling is passed.  Every operation on the stack keeps it, so a stack that
started empty is `ofItems` of its values, and what the operations do to it can be
said about the values alone.
-/

namespace LockScript
namespace Machine

/-- The reasons a push is turned down for. -/
def Reason.isCeiling : Reason → Bool
  | valueTooLarge | stackOverflow | outOfMemory => true
  | _ => false

/-- The number of bytes in some values. -/
def weight (items : List Bytes) : Nat := items.flatten.length

@[simp] theorem weight_nil : weight [] = 0 := rfl

@[simp] theorem weight_cons (value : Bytes) (items : List Bytes) :
    weight (value :: items) = value.length + weight items := by
  rw [weight, List.flatten_cons, List.length_append]
  rfl

theorem weight_le_of_sublist {items others : List Bytes} (h : items.Sublist others) :
    weight items ≤ weight others := by
  induction h with
  | slnil => exact Nat.le_refl _
  | cons value _ ih =>
    rw [weight_cons]
    omega
  | cons_cons value _ ih =>
    rw [weight_cons, weight_cons]
    omega

theorem weight_eraseIdx {items : List Bytes} {index : Nat} {value : Bytes}
    (h : items[index]? = some value) :
    weight (items.eraseIdx index) + value.length = weight items := by
  induction items generalizing index with
  | nil => simp at h
  | cons item items ih =>
    cases index with
    | zero =>
      have hvalue : item = value := by simpa using h
      subst hvalue
      rw [List.eraseIdx_cons_zero, weight_cons]
      omega
    | succ index =>
      have hindex : items[index]? = some value := by simpa using h
      have htail := ih hindex
      rw [List.eraseIdx_cons_succ, weight_cons, weight_cons]
      omega

namespace Stack

/-- The stack whose two counts are taken from its values. -/
def ofItems (items : List Bytes) : Stack := ⟨items, weight items, items.length, rfl⟩

@[simp] theorem items_ofItems (items : List Bytes) : (ofItems items).items = items := rfl

@[simp] theorem memory_ofItems (items : List Bytes) : (ofItems items).memory = weight items := rfl

@[simp] theorem depth_ofItems (items : List Bytes) : (ofItems items).depth = items.length := rfl

theorem empty_eq_ofItems : empty = ofItems [] := rfl

theorem eq_ofItems {stack : Stack} (h : stack.memory = weight stack.items) :
    stack = ofItems stack.items := by
  -- the depth is right by its type, so the memory count is all there is to check
  obtain ⟨items, memory, depth, hdepth⟩ := stack
  simp only at h
  subst h hdepth
  rfl

/-- The memory count is right, and no ceiling is passed. -/
structure Within (limits : Limits) (stack : Stack) : Prop where
  memory_eq : stack.memory = weight stack.items
  memory_le : stack.memory ≤ limits.maxMemory
  depth_le : stack.items.length ≤ limits.maxStackDepth
  value_le : ∀ value ∈ stack.items, value.length ≤ limits.maxValueSize

theorem within_empty (limits : Limits) : empty.Within limits where
  memory_eq := rfl
  memory_le := Nat.zero_le _
  depth_le := Nat.zero_le _
  value_le := by simp [empty]

theorem within_ofItems_iff {limits : Limits} {items : List Bytes} :
    (ofItems items).Within limits ↔
      weight items ≤ limits.maxMemory ∧ items.length ≤ limits.maxStackDepth ∧
        ∀ value ∈ items, value.length ≤ limits.maxValueSize := by
  constructor
  · intro h
    exact ⟨h.memory_le, h.depth_le, h.value_le⟩
  · intro hparts
    obtain ⟨hmemory, hdepth, hvalue⟩ := hparts
    exact ⟨rfl, hmemory, hdepth, hvalue⟩

/-! ## The operations on the values -/

@[simp] theorem pop_ofItems_nil : (ofItems []).pop = .error .stackUnderflow := rfl

@[simp] theorem pop_ofItems_cons (value : Bytes) (items : List Bytes) :
    (ofItems (value :: items)).pop = .ok (value, ofItems items) := by
  simp [pop, ofItems]

theorem push_ofItems (limits : Limits) (value : Bytes) (items : List Bytes) :
    (ofItems items).push limits value =
      if limits.maxValueSize < value.length then .error .valueTooLarge
      else if limits.maxStackDepth < (value :: items).length then .error .stackOverflow
      else if limits.maxMemory < weight (value :: items) then .error .outOfMemory
      else .ok (ofItems (value :: items)) := by
  -- the machine looks at the stack before the push, the right-hand side at the one behind it
  have hdepth : limits.maxStackDepth ≤ items.length ↔
      limits.maxStackDepth < (value :: items).length := by
    rw [List.length_cons]
    omega
  have hmemory : weight items + value.length = weight (value :: items) := by
    rw [weight_cons]
    omega
  simp only [push, depth_ofItems, memory_ofItems, hdepth, hmemory]
  rfl

theorem remove_ofItems_of_some {items : List Bytes} {index : Nat} {value : Bytes}
    (h : items[index]? = some value) :
    (ofItems items).remove index = .ok (ofItems (items.eraseIdx index)) := by
  have hweight := weight_eraseIdx h
  have hlength := List.length_eraseIdx_of_lt (List.getElem?_eq_some_iff.1 h).1
  have hmemory : weight items - value.length = weight (items.eraseIdx index) := by omega
  unfold remove
  split
  · rename_i found hfound
    have : found = value := Option.some.inj (hfound.symm.trans h)
    subst this
    simp only [ofItems, hmemory, hlength]
  · rename_i hnone
    rw [items_ofItems, h] at hnone
    exact absurd hnone (by simp)

theorem remove_of_none {stack : Stack} {index : Nat} (h : stack.items[index]? = none) :
    stack.remove index = .error .indexOutOfBound := by
  unfold remove
  split
  · rename_i value hvalue
    rw [h] at hvalue
    exact absurd hvalue (by simp)
  · rfl

theorem isCeiling_of_push_error {limits : Limits} {value : Bytes} {stack : Stack}
    {reason : Reason} (h : stack.push limits value = .error reason) : reason.isCeiling = true := by
  unfold push at h
  repeat' split at h
  all_goals cases h
  all_goals rfl

theorem isCeiling_of_pushAll_error {limits : Limits} {values : List Bytes} {stack : Stack}
    {reason : Reason} (h : stack.pushAll limits values = .error reason) :
    reason.isCeiling = true := by
  induction values generalizing stack with
  | nil => cases h
  | cons value rest ih =>
    rcases Result.bind_eq_error_iff.1 h with hpush | ⟨pushed, -, hrest⟩
    · exact isCeiling_of_push_error hpush
    · exact ih hrest

/-! ## The operations keep to the ceilings -/

/-- A push succeeds exactly if what it makes keeps to the ceilings. -/
theorem push_ofItems_eq_ok_iff {limits : Limits} {value : Bytes} {items : List Bytes}
    {stack : Stack} (h : (ofItems items).Within limits) :
    (ofItems items).push limits value = .ok stack ↔
      stack = ofItems (value :: items) ∧ (ofItems (value :: items)).Within limits := by
  obtain ⟨-, -, hvalue⟩ := within_ofItems_iff.1 h
  rw [push_ofItems, within_ofItems_iff]
  constructor
  · intro e
    split at e
    · cases e
    split at e
    · cases e
    split at e
    · cases e
    cases e
    refine ⟨rfl, by omega, by omega, ?_⟩
    intro item hitem
    rcases List.mem_cons.1 hitem with rfl | hbelow
    · omega
    · exact hvalue item hbelow
  · intro hparts
    obtain ⟨rfl, hmemory, hdepth, hsizes⟩ := hparts
    have hsize := hsizes value List.mem_cons_self
    rw [if_neg (by omega), if_neg (by omega), if_neg (by omega)]

namespace Within

variable {limits : Limits}

theorem eq_ofItems {stack : Stack} (h : stack.Within limits) : stack = ofItems stack.items :=
  Stack.eq_ofItems h.memory_eq

theorem sublist {items others : List Bytes} (h : (ofItems others).Within limits)
    (hsub : items.Sublist others) : (ofItems items).Within limits := by
  obtain ⟨hmemory, hdepth, hvalue⟩ := within_ofItems_iff.1 h
  refine within_ofItems_iff.2 ⟨?_, ?_, ?_⟩
  · exact Nat.le_trans (weight_le_of_sublist hsub) hmemory
  · exact Nat.le_trans hsub.length_le hdepth
  · intro value hmem
    exact hvalue value (hsub.subset hmem)

theorem swap {first second : Bytes} {items : List Bytes}
    (h : (ofItems (first :: second :: items)).Within limits) :
    (ofItems (second :: first :: items)).Within limits := by
  obtain ⟨hmemory, hdepth, hvalue⟩ := within_ofItems_iff.1 h
  refine within_ofItems_iff.2 ⟨?_, ?_, ?_⟩
  · simp only [weight_cons] at hmemory ⊢
    omega
  · simpa using hdepth
  · intro value hmem
    apply hvalue value
    simp only [List.mem_cons] at hmem ⊢
    rcases hmem with rfl | rfl | hbelow
    · exact .inr (.inl rfl)
    · exact .inl rfl
    · exact .inr (.inr hbelow)

theorem push {stack stack' : Stack} {value : Bytes} (h : stack.Within limits)
    (e : stack.push limits value = .ok stack') : stack'.Within limits := by
  have hitems := h.eq_ofItems
  rw [hitems] at h e
  obtain ⟨rfl, hwithin⟩ := (push_ofItems_eq_ok_iff h).1 e
  exact hwithin

theorem pop {stack stack' : Stack} {value : Bytes} (h : stack.Within limits)
    (e : stack.pop = .ok (value, stack')) : stack'.Within limits := by
  have hitems := h.eq_ofItems
  rw [hitems] at h e
  cases hcase : stack.items with
  | nil =>
    rw [hcase, pop_ofItems_nil] at e
    cases e
  | cons top items =>
    rw [hcase] at h e
    rw [pop_ofItems_cons] at e
    cases e
    exact h.sublist (List.sublist_cons_self _ _)

theorem remove {stack stack' : Stack} {index : Nat} (h : stack.Within limits)
    (e : stack.remove index = .ok stack') : stack'.Within limits := by
  have hitems := h.eq_ofItems
  rw [hitems] at h e
  cases hcase : stack.items[index]? with
  | none =>
    rw [remove_of_none (by simpa using hcase)] at e
    cases e
  | some value =>
    rw [remove_ofItems_of_some hcase] at e
    cases e
    exact h.sublist (List.eraseIdx_sublist _ _)

end Within

/-- Values can be loaded exactly if the stack of all of them keeps to the ceilings.  The stacks on
the way hold fewer values and are no obstacle. -/
theorem pushAll_ofItems_eq_ok_iff {limits : Limits} {values items : List Bytes} {stack : Stack}
    (h : (ofItems items).Within limits) :
    (ofItems items).pushAll limits values = .ok stack ↔
      stack = ofItems (values.reverse ++ items) ∧
        (ofItems (values.reverse ++ items)).Within limits := by
  induction values generalizing items with
  | nil =>
    constructor
    · intro e
      cases e
      exact ⟨rfl, h⟩
    · intro hparts
      obtain ⟨rfl, -⟩ := hparts
      rfl
  | cons value rest ih =>
    rw [pushAll, List.reverse_cons, List.append_assoc, List.singleton_append]
    constructor
    · intro e
      obtain ⟨pushed, hpush, hrest⟩ := Result.bind_eq_ok_iff.1 e
      obtain ⟨rfl, hpushed⟩ := (push_ofItems_eq_ok_iff h).1 hpush
      exact (ih hpushed).1 hrest
    · intro hparts
      obtain ⟨rfl, hall⟩ := hparts
      have hpushed := hall.sublist (List.sublist_append_right rest.reverse (value :: items))
      rw [(push_ofItems_eq_ok_iff h).2 ⟨rfl, hpushed⟩]
      exact (ih hpushed).2 ⟨rfl, hall⟩

end Stack
end Machine
end LockScript
