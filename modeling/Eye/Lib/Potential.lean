import Mathlib
import Eye.Lib.Machine

/-!
# Potentials

A potential is a natural number that every step of some kind lowers, where what such steps keep
holds. It bounds how many such steps a run can take (`length_add_potential_le`), so steps of that
kind come to an end.

Potentials are sums over what a state is made of; the `sum_map` lemmas say what happens to such a
sum when one entry of a function or of a list changes.
-/

namespace Machine

variable {σ α : Type} {M : Machine σ α} {I : σ → Prop} {C : α → Prop} {potential : σ → ℕ}
  {s t : σ} {as : List α}

/-- Steps that each lower the potential are no more than it is. -/
theorem length_add_potential_le (hI : I s)
    (hstep : ∀ s a s', I s → C a → M.step s a = some s' → I s')
    (hlower : ∀ s a s', I s → C a → M.step s a = some s' → potential s' < potential s)
    (hC : ∀ a ∈ as, C a) (hrun : M.run s as = some t) :
    as.length + potential t ≤ potential s := by
  induction as generalizing s with
  | nil =>
    rw [run_nil, Option.some.injEq] at hrun
    subst hrun
    exact Nat.le_of_eq (Nat.zero_add _)
  | cons a as ih =>
    rw [run_cons, Option.bind_eq_some_iff] at hrun
    obtain ⟨u, hu, hrun⟩ := hrun
    obtain ⟨ha, hC⟩ := List.forall_mem_cons.mp hC
    have hfirst := hlower s a u hI ha hu
    have hrest := ih (hstep s a u hI ha hu) hC hrun
    rw [List.length_cons]
    omega

/-- So they can be taken until none of them is left. -/
theorem exists_run_stuck (hI : I s)
    (hstep : ∀ s a s', I s → C a → M.step s a = some s' → I s')
    (hlower : ∀ s a s', I s → C a → M.step s a = some s' → potential s' < potential s) :
    ∃ as t, (∀ a ∈ as, C a) ∧ M.run s as = some t ∧ ∀ a, C a → M.step t a = none := by
  induction hp : potential s using Nat.strongRecOn generalizing s with
  | ind p ih =>
    by_cases hstuck : ∀ a, C a → M.step s a = none
    · exact ⟨[], s, fun a ha => absurd ha List.not_mem_nil, rfl, hstuck⟩
    · push Not at hstuck
      obtain ⟨a, ha, hne⟩ := hstuck
      obtain ⟨u, hu⟩ := Option.ne_none_iff_exists'.mp hne
      obtain ⟨as, t, has, hrun, ht⟩ :=
        ih (potential u) (hp ▸ hlower s a u hI ha hu) (hstep s a u hI ha hu) rfl
      refine ⟨a :: as, t, ?_, ?_, ht⟩
      · exact List.forall_mem_cons.mpr ⟨ha, has⟩
      · rw [run_cons, hu]
        exact hrun

end Machine

section Sums

variable {α : Type} {l : List α} {f : α → ℕ} {x y : α} {i : ℕ}

theorem sum_map_update [DecidableEq α] (hl : l.Nodup) (hx : x ∈ l) (f : α → ℕ) (v : ℕ) :
    (l.map (Function.update f x v)).sum + f x = (l.map f).sum + v := by
  induction l with
  | nil => exact absurd hx List.not_mem_nil
  | cons y l ih =>
    obtain ⟨hy, hl⟩ := List.nodup_cons.mp hl
    rw [List.map_cons, List.sum_cons, List.map_cons, List.sum_cons]
    by_cases hxy : y = x
    · subst hxy
      have hne : ∀ z ∈ l, z ≠ y := by
        rintro z hz rfl
        exact hy hz
      have hrest : l.map (Function.update f y v) = l.map f :=
        List.map_congr_left fun z hz => Function.update_of_ne (hne z hz) ..
      rw [Function.update_self, hrest]
      omega
    · have hrest := ih hl ((List.mem_cons.mp hx).resolve_left (Ne.symm hxy))
      rw [Function.update_of_ne hxy]
      omega

theorem sum_map_set (hi : l[i]? = some x) (f : α → ℕ) (y : α) :
    ((l.set i y).map f).sum + f x = (l.map f).sum + f y := by
  induction l generalizing i with
  | nil => cases hi
  | cons z l ih =>
    cases i with
    | zero =>
      cases hi
      simp only [List.set_cons_zero, List.map_cons, List.sum_cons]
      omega
    | succ i =>
      have hrest := ih (i := i) hi
      simp only [List.set_cons_succ, List.map_cons, List.sum_cons]
      omega

theorem sum_map_eraseIdx (hi : l[i]? = some x) (f : α → ℕ) :
    ((l.eraseIdx i).map f).sum + f x = (l.map f).sum := by
  induction l generalizing i with
  | nil => cases hi
  | cons z l ih =>
    cases i with
    | zero =>
      cases hi
      simp only [List.eraseIdx_cons_zero, List.map_cons, List.sum_cons]
      omega
    | succ i =>
      have hrest := ih (i := i) hi
      simp only [List.eraseIdx_cons_succ, List.map_cons, List.sum_cons]
      omega

end Sums
