import Mathlib.Data.List.Basic
import Mathlib.Logic.Function.Basic

/-!
# A map to shared objects

A map from keys to objects that others can point to as well. The objects lie in a heap, where an
entry of the map is an address; whoever holds the address can change the object, also once the map
has dropped it.

`value` forgets the addresses. As long as every entry is allocated anew, no two keys share an
object, and the map is as good as one that keeps its objects by value: a change through an address
is a change at its key (`value_modify_of_ptr`), or is not seen at all (`value_modify_of_cut`). An
object that has been dropped never comes back (`Cut`).
-/

/-- The pointers of a map, and all objects allocated for it so far. -/
structure SharedMap (κ α : Type) where
  ptr : κ → Option ℕ
  heap : List α
  ptr_lt : ∀ k a, ptr k = some a → a < heap.length
  ptr_inj : ∀ k k' a, ptr k = some a → ptr k' = some a → k = k'

namespace SharedMap

variable {κ α : Type}

def empty : SharedMap κ α where
  ptr _ := none
  heap := []
  ptr_lt _ _ h := nomatch h
  ptr_inj _ _ _ h := nomatch h

/-- What the map says, without the addresses. -/
def value (m : SharedMap κ α) (k : κ) : Option α := (m.ptr k).bind fun a => m.heap[a]?

/-- The pointer at a key and the object behind it. -/
def find (m : SharedMap κ α) (k : κ) : Option (ℕ × α) :=
  (m.ptr k).bind fun a => (m.heap[a]?).map fun v => (a, v)

/-- Changes the object at an address. -/
def modify (m : SharedMap κ α) (a : ℕ) (f : α → α) : SharedMap κ α where
  ptr := m.ptr
  heap := m.heap.modify a f
  ptr_lt k a h := by
    rw [List.length_modify]
    exact m.ptr_lt k a h
  ptr_inj := m.ptr_inj

/-- Drops every entry; the objects stay where they are. -/
def clear (m : SharedMap κ α) : SharedMap κ α where
  ptr _ := none
  heap := m.heap
  ptr_lt _ _ h := nomatch h
  ptr_inj _ _ _ h := nomatch h

/-- The address was allocated and has no entry. -/
structure Cut (m : SharedMap κ α) (a : ℕ) : Prop where
  lt : a < m.heap.length
  ptr_ne : ∀ k, m.ptr k ≠ some a

/-- The address was allocated for this key: no other has it. -/
structure Held (m : SharedMap κ α) (k : κ) (a : ℕ) : Prop where
  lt : a < m.heap.length
  eq_of_ptr : ∀ k', m.ptr k' = some a → k' = k

variable [DecidableEq κ] {m m' : SharedMap κ α} {k : κ} {a b : ℕ} {v : α} {f : α → α}

/-- Enters a new object. -/
def alloc (m : SharedMap κ α) (k : κ) (v : α) : SharedMap κ α where
  ptr := Function.update m.ptr k (some m.heap.length)
  heap := m.heap ++ [v]
  ptr_lt k' a h := by
    rw [Function.update_apply] at h
    rw [List.length_append, List.length_singleton]
    split_ifs at h
    · cases h
      exact Nat.lt_succ_self _
    · exact Nat.lt_succ_of_lt (m.ptr_lt k' a h)
  ptr_inj k₁ k₂ a h₁ h₂ := by
    rw [Function.update_apply] at h₁ h₂
    split_ifs at h₁ h₂ with e₁ e₂ e₂
    · rw [e₁, e₂]
    · cases h₁
      exact absurd (m.ptr_lt k₂ _ h₂) (Nat.lt_irrefl _)
    · cases h₂
      exact absurd (m.ptr_lt k₁ _ h₁) (Nat.lt_irrefl _)
    · exact m.ptr_inj k₁ k₂ a h₁ h₂

/-- Drops an entry; the object stays where it is. -/
def erase (m : SharedMap κ α) (k : κ) : SharedMap κ α where
  ptr := Function.update m.ptr k none
  heap := m.heap
  ptr_lt k' a h := by
    rw [Function.update_apply] at h
    split_ifs at h
    exact m.ptr_lt k' a h
  ptr_inj k₁ k₂ a h₁ h₂ := by
    rw [Function.update_apply] at h₁ h₂
    split_ifs at h₁ h₂
    exact m.ptr_inj k₁ k₂ a h₁ h₂

/-! ## Without the addresses -/

omit [DecidableEq κ] in
theorem find_of_ptr (h : m.ptr k = some a) : ∃ v, m.find k = some (a, v) ∧ m.value k = some v := by
  obtain ⟨v, hv⟩ : ∃ v, m.heap[a]? = some v := ⟨_, List.getElem?_eq_getElem (m.ptr_lt k a h)⟩
  refine ⟨v, ?_, ?_⟩
  · unfold find
    rw [h, Option.bind_some, hv]
    rfl
  · unfold value
    rw [h, Option.bind_some, hv]

omit [DecidableEq κ] in
theorem ptr_of_find (h : m.find k = some (a, v)) : m.ptr k = some a := by
  obtain ⟨b, hb, h⟩ := Option.bind_eq_some_iff.mp h
  obtain ⟨_, -, h⟩ := Option.map_eq_some_iff.mp h
  cases h
  exact hb

theorem value_alloc : (m.alloc k v).value = Function.update m.value k (some v) := by
  funext k'
  rw [Function.update_apply]
  unfold value alloc
  dsimp only
  rw [Function.update_apply]
  split_ifs
  · rw [Option.bind_some, List.getElem?_concat_length]
  · cases h : m.ptr k' with
    | none => rfl
    | some a =>
      rw [Option.bind_some, Option.bind_some, List.getElem?_append_left (m.ptr_lt k' a h)]

theorem value_erase : (m.erase k).value = Function.update m.value k none := by
  funext k'
  rw [Function.update_apply]
  unfold value erase
  dsimp only
  rw [Function.update_apply]
  split_ifs <;> rfl

/-- A change through the address that a key has is a change at this key and no other. -/
theorem value_modify_of_ptr (h : m.ptr k = some a) :
    (m.modify a f).value = Function.update m.value k ((m.value k).map f) := by
  funext k'
  rw [Function.update_apply]
  unfold value modify
  dsimp only
  split_ifs with hk
  · rw [hk, h, Option.bind_some, Option.bind_some, List.getElem?_modify_eq]
    rfl
  · cases h' : m.ptr k' with
    | none => rfl
    | some b =>
      have hne : a ≠ b := fun hab => hk (m.ptr_inj k' k b h' (hab ▸ h))
      rw [Option.bind_some, Option.bind_some, List.getElem?_modify_ne _ _ hne]

omit [DecidableEq κ] in
/-- A change through an address that has no entry is not seen. -/
theorem value_modify_of_cut (h : m.Cut a) : (m.modify a f).value = m.value := by
  funext k
  unfold value modify
  dsimp only
  cases hk : m.ptr k with
  | none => rfl
  | some b =>
    have hne : a ≠ b := fun hab => h.ptr_ne k (hab ▸ hk)
    rw [Option.bind_some, Option.bind_some, List.getElem?_modify_ne _ _ hne]

/-! ## Who holds an address -/

omit [DecidableEq κ] in
theorem held_of_ptr (h : m.ptr k = some a) : m.Held k a :=
  ⟨m.ptr_lt k a h, fun k' h' => m.ptr_inj k' k a h' h⟩

omit [DecidableEq κ] in
theorem Held.cut (h : m.Held k a) (hne : m.ptr k ≠ some a) : m.Cut a :=
  ⟨h.lt, fun k' hk' => hne (h.eq_of_ptr k' hk' ▸ hk')⟩

/-- The heap has not shrunk, and a pointer is an old one or leads behind the old heap. -/
structure Extends (m m' : SharedMap κ α) : Prop where
  length_le : m.heap.length ≤ m'.heap.length
  ptr_cases : ∀ k a, m'.ptr k = some a → m.ptr k = some a ∨ m.heap.length ≤ a

omit [DecidableEq κ] in
theorem Held.mono (h : m.Held k a) (hm : m.Extends m') : m'.Held k a := by
  refine ⟨Nat.lt_of_lt_of_le h.lt hm.length_le, fun k' hk' => ?_⟩
  rcases hm.ptr_cases k' a hk' with hold | hnew
  · exact h.eq_of_ptr k' hold
  · exact absurd h.lt (Nat.not_lt_of_le hnew)

omit [DecidableEq κ] in
theorem Cut.mono (h : m.Cut a) (hm : m.Extends m') : m'.Cut a := by
  refine ⟨Nat.lt_of_lt_of_le h.lt hm.length_le, fun k' hk' => ?_⟩
  rcases hm.ptr_cases k' a hk' with hold | hnew
  · exact h.ptr_ne k' hold
  · exact absurd h.lt (Nat.not_lt_of_le hnew)

omit [DecidableEq κ] in
theorem Extends.refl (m : SharedMap κ α) : m.Extends m := ⟨Nat.le_refl _, fun _ _ => .inl⟩

theorem extends_alloc : m.Extends (m.alloc k v) := by
  refine ⟨?_, fun k' a h => ?_⟩
  · show m.heap.length ≤ (m.heap ++ [v]).length
    rw [List.length_append]
    exact Nat.le_add_right _ _
  · have h : Function.update m.ptr k (some m.heap.length) k' = some a := h
    rw [Function.update_apply] at h
    split_ifs at h
    · cases h
      exact .inr (Nat.le_refl _)
    · exact .inl h

theorem extends_erase : m.Extends (m.erase k) := by
  refine ⟨Nat.le_refl _, fun k' a h => .inl ?_⟩
  have h : Function.update m.ptr k none k' = some a := h
  rw [Function.update_apply] at h
  split_ifs at h
  exact h

omit [DecidableEq κ] in
theorem extends_clear : m.Extends m.clear := ⟨Nat.le_refl _, fun _ _ h => nomatch h⟩

omit [DecidableEq κ] in
theorem extends_modify : m.Extends (m.modify a f) :=
  ⟨Nat.le_of_eq (List.length_modify ..).symm, fun _ _ => .inl⟩

end SharedMap
