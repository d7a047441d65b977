import Mathlib.Data.List.Nodup
import Mathlib.Data.List.Perm.Basic
import Mathlib.Data.Nat.Notation

/-!
# Bounded queues and their accounts

`DropOldest.push` is the bounded queue that makes room by giving up its oldest element.

A `Ledger` follows the elements of a queue over a run: what entered it, what left it at the front,
what was dropped for lack of room, what was cleared. `Balanced` says that the accounts agree with
what the queue still holds: elements leave in the order they entered, and every element that
entered is in exactly one place. There is one rule for each thing a queue can do; none of them
mentions how the queue decides what to drop.
-/

namespace DropOldest

variable {α : Type} {cap : ℕ} {xs : List α} {x : α}

/-- What is left of a queue once it has room for one more. -/
def kept (cap : ℕ) (xs : List α) : List α := if xs.length < cap then xs else xs.tail

/-- What a full queue gives up, its oldest element. -/
def evicted (cap : ℕ) (xs : List α) : List α := if xs.length < cap then [] else xs.take 1

/-- Append to a queue of at most `cap` elements. -/
def push (cap : ℕ) (xs : List α) (x : α) : List α := kept cap xs ++ [x]

theorem evicted_append_kept (cap : ℕ) (xs : List α) : evicted cap xs ++ kept cap xs = xs := by
  unfold evicted kept
  split_ifs
  · rfl
  · cases xs <;> rfl

theorem kept_sublist (cap : ℕ) (xs : List α) : (kept cap xs).Sublist xs := by
  conv_rhs => rw [← evicted_append_kept cap xs]
  exact List.sublist_append_right _ _

theorem kept_append_evicted_perm (cap : ℕ) (xs : List α) :
    (kept cap xs ++ evicted cap xs).Perm xs := by
  conv_rhs => rw [← evicted_append_kept cap xs]
  exact List.perm_append_comm

theorem length_kept_lt (hcap : 0 < cap) (h : xs.length ≤ cap) : (kept cap xs).length < cap := by
  unfold kept
  split_ifs with hlt
  · exact hlt
  · rw [List.length_tail]
    omega

theorem length_push_le (hcap : 0 < cap) (h : xs.length ≤ cap) : (push cap xs x).length ≤ cap := by
  have := length_kept_lt hcap h
  unfold push
  rw [List.length_append, List.length_singleton]
  omega

/-- At most one element is given up, only by a full queue, and it is the first. -/
theorem evicted_spec (hcap : 0 < cap) (h : xs.length ≤ cap) :
    (evicted cap xs = [] ∧ xs.length < cap) ∨
      ∃ y, evicted cap xs = [y] ∧ xs.head? = some y ∧ xs.length = cap := by
  unfold evicted
  split_ifs with hlt
  · exact .inl ⟨rfl, hlt⟩
  · cases xs with
    | nil => exact absurd hcap hlt
    | cons y ys => exact .inr ⟨y, rfl, rfl, by omega⟩

theorem map_kept {β : Type} (f : α → β) (cap : ℕ) (xs : List α) :
    (kept cap xs).map f = kept cap (xs.map f) := by
  unfold kept
  rw [List.length_map]
  split_ifs
  · rfl
  · exact List.map_tail

theorem map_evicted {β : Type} (f : α → β) (cap : ℕ) (xs : List α) :
    (evicted cap xs).map f = evicted cap (xs.map f) := by
  unfold evicted
  rw [List.length_map]
  split_ifs
  · rfl
  · exact List.map_take

end DropOldest

/-- What has happened to the elements of a queue, each list in order. -/
structure Ledger (α : Type) where
  entered : List α
  left : List α
  dropped : List α
  cleared : List α

namespace Ledger

variable {α : Type}

/-- The ledger of a queue that nothing has entered. -/
def empty : Ledger α := ⟨[], [], [], []⟩

def enter (l : Ledger α) (xs : List α) : Ledger α := { l with entered := l.entered ++ xs }
def leave (l : Ledger α) (x : α) : Ledger α := { l with left := l.left ++ [x] }
def drop (l : Ledger α) (xs : List α) : Ledger α := { l with dropped := l.dropped ++ xs }
def clear (l : Ledger α) (xs : List α) : Ledger α := { l with cleared := l.cleared ++ xs }

/-- The ledger of the elements' images. -/
def map {β : Type} (f : α → β) (l : Ledger α) : Ledger β :=
  ⟨l.entered.map f, l.left.map f, l.dropped.map f, l.cleared.map f⟩

/-- The ledger agrees with a queue that holds `held`. -/
structure Balanced (l : Ledger α) (held : List α) : Prop where
  order : (l.left ++ held).Sublist l.entered
  partition : (l.left ++ l.dropped ++ l.cleared ++ held).Perm l.entered

variable {l : Ledger α} {held kept gone xs : List α} {x : α}

theorem balanced_empty : (empty : Ledger α).Balanced [] := ⟨.slnil, .nil⟩

theorem Balanced.enter (h : l.Balanced held) (xs : List α) :
    (l.enter xs).Balanced (held ++ xs) where
  order := by
    rw [← List.append_assoc]
    exact h.order.append (List.Sublist.refl xs)
  partition := by
    rw [← List.append_assoc]
    exact h.partition.append_right xs

theorem Balanced.leave (h : l.Balanced (x :: held)) : (l.leave x).Balanced held where
  order := by
    unfold Ledger.leave
    rw [List.append_assoc]
    exact h.order
  partition := by
    refine List.Perm.trans ?_ h.partition
    unfold Ledger.leave
    simp only [List.append_assoc, List.singleton_append]
    refine List.Perm.append_left l.left ?_
    calc x :: (l.dropped ++ (l.cleared ++ held))
        = x :: ((l.dropped ++ l.cleared) ++ held) := by rw [List.append_assoc]
      List.Perm _ (l.dropped ++ l.cleared ++ x :: held) := List.perm_middle.symm
      _ = l.dropped ++ (l.cleared ++ x :: held) := by rw [List.append_assoc]

theorem Balanced.drop (h : l.Balanced held) (hkept : kept.Sublist held)
    (hgone : (kept ++ gone).Perm held) : (l.drop gone).Balanced kept where
  order := ((List.Sublist.refl l.left).append hkept).trans h.order
  partition := by
    refine List.Perm.trans ?_ h.partition
    unfold Ledger.drop
    simp only [List.append_assoc]
    refine List.Perm.append_left l.left (List.Perm.append_left l.dropped ?_)
    refine List.Perm.trans ?_ (List.Perm.append_left l.cleared hgone)
    rw [← List.append_assoc, ← List.append_assoc]
    exact (List.perm_append_comm.append_right kept).trans
      (by rw [List.append_assoc, List.append_assoc]
          exact List.Perm.append_left l.cleared List.perm_append_comm)

theorem Balanced.clear (h : l.Balanced held) : (l.clear held).Balanced [] where
  order := by
    rw [List.append_nil]
    exact (List.sublist_append_left l.left held).trans h.order
  partition := by
    unfold Ledger.clear
    simp only [List.append_nil]
    rw [← List.append_assoc]
    exact h.partition

theorem Balanced.left_sublist (h : l.Balanced held) : l.left.Sublist l.entered :=
  (List.sublist_append_left _ _).trans h.order

/-- Elements entered are those that left, were dropped, were cleared or are still held. -/
theorem Balanced.length_eq (h : l.Balanced held) :
    l.entered.length =
      l.dropped.length + l.left.length + held.length + l.cleared.length := by
  have := h.partition.length_eq
  simp only [List.length_append] at this
  omega

theorem Balanced.mem_iff (h : l.Balanced held) :
    x ∈ l.entered ↔ x ∈ l.left ∨ x ∈ l.dropped ∨ x ∈ l.cleared ∨ x ∈ held := by
  rw [← h.partition.mem_iff]
  simp only [List.mem_append, or_assoc]

/-- If no element entered twice, none is in two places. -/
theorem Balanced.nodup (h : l.Balanced held) (hn : l.entered.Nodup) :
    (l.left ++ l.dropped ++ l.cleared ++ held).Nodup :=
  h.partition.nodup_iff.mpr hn

/-! ## Serial numbers -/

/-- Number the next elements to enter, so that equal values stay distinct. -/
def stamp (l : Ledger (α × ℕ)) (xs : List α) : List (α × ℕ) := xs.zipIdx l.entered.length

/-- The elements entered so far carry the numbers `0, 1, …`. -/
def Stamped (l : Ledger (α × ℕ)) : Prop := l.entered = (l.entered.map Prod.fst).zipIdx

theorem stamped_empty : (empty : Ledger (α × ℕ)).Stamped := rfl

@[simp] theorem map_fst_stamp (l : Ledger (α × ℕ)) (xs : List α) :
    (l.stamp xs).map Prod.fst = xs := List.zipIdx_map_fst _ _

@[simp] theorem stamp_eq_nil {l : Ledger (α × ℕ)} {xs : List α} : l.stamp xs = [] ↔ xs = [] :=
  List.zipIdx_eq_nil_iff

theorem Stamped.enter {l : Ledger (α × ℕ)} (h : l.Stamped) (xs : List α) :
    (l.enter (l.stamp xs)).Stamped := by
  unfold Stamped Ledger.enter
  rw [List.map_append, map_fst_stamp, List.zipIdx_append, ← h, List.length_map, Nat.zero_add]
  rfl

theorem Stamped.nodup {l : Ledger (α × ℕ)} (h : l.Stamped) : l.entered.Nodup := by
  apply List.Nodup.of_map Prod.snd
  rw [h, List.zipIdx_map_snd]
  exact List.nodup_range'

end Ledger
