import Mathlib.Data.List.Basic

/-!
# Machines and their runs

A machine is a partial step function over labelled actions: `none` says that the action is not
enabled in that state. Every interleaving of several threads is a list of actions, one for each
atomic step.

* `Reachable` and its induction rule `Reachable.invariant`;
* `Always P` and `Along C`: a property of every state a run passes through, and a condition on
  every step it takes. `Along.always` is their induction rule, `always_iff_along` the rule for exact
  conditions: an invariant kept by the steps that meet `C`, and a property lost by the first that
  does not; `along_of_always` is the rule for a property that may be lost later;
* `Attempted C`: a condition on every step a run takes or tries, for steps that may be undefined;
* `mem_calls_set`, `mem_calls_eraseIdx`: frame rules for a list of calls in progress.
-/

/-- Initial states and a partial step for each action. -/
structure Machine (σ α : Type) where
  init : σ → Prop
  step : σ → α → Option σ

namespace Machine

variable {σ α : Type} (M : Machine σ α)

/-- The state after a list of actions, if each of them is enabled when its turn comes. -/
def run : σ → List α → Option σ
  | s, [] => some s
  | s, a :: as => (M.step s a).bind fun s' => run s' as

/-- The states some run from an initial state ends in. -/
inductive Reachable : σ → Prop
  | init {s : σ} : M.init s → Reachable s
  | step {s s' : σ} (a : α) : Reachable s → M.step s a = some s' → Reachable s'

/-- `P` holds in `s` and in every state that the actions lead through. -/
def Always (P : σ → Prop) : σ → List α → Prop
  | s, [] => P s
  | s, a :: as => P s ∧ ∀ s', M.step s a = some s' → Always P s' as

/-- `C` holds of every step that the actions take from `s`. -/
def Along (C : σ → α → Prop) : σ → List α → Prop
  | _, [] => True
  | s, a :: as => ∀ s', M.step s a = some s' → C s a ∧ Along C s' as

/-- `C` holds of every action when its turn comes, also of one that is not enabled then. -/
def Attempted (C : σ → α → Prop) : σ → List α → Prop
  | _, [] => True
  | s, a :: as => C s a ∧ ∀ s', M.step s a = some s' → Attempted C s' as

/-- What `f` gathers from the steps that the actions take from `s`. -/
def collect {β : Type} (f : σ → α → List β) : σ → List α → List β
  | _, [] => []
  | s, a :: as =>
    match M.step s a with
    | none => []
    | some s' => f s a ++ collect f s' as

variable {M} {P I : σ → Prop} {C : σ → α → Prop} {s t : σ} {a : α} {as : List α}

@[simp] theorem run_nil : M.run s [] = some s := rfl

theorem run_cons : M.run s (a :: as) = (M.step s a).bind fun s' => M.run s' as := rfl

theorem run_append (s : σ) (as bs : List α) :
    M.run s (as ++ bs) = (M.run s as).bind fun t => M.run t bs := by
  induction as generalizing s with
  | nil => rw [List.nil_append, run_nil, Option.bind_some]
  | cons a as ih =>
    rw [List.cons_append, run_cons, run_cons, Option.bind_assoc]
    congr 1
    funext u
    exact ih u

@[simp] theorem run_singleton : M.run s [a] = M.step s a := by
  rw [run_cons]
  exact Option.bind_fun_some _

theorem collect_cons {β : Type} (f : σ → α → List β) (h : M.step s a = some t) :
    M.collect f s (a :: as) = f s a ++ M.collect f t as := by
  rw [collect, h]

/-! ## Reachable states -/

theorem Reachable.run (hs : M.Reachable s) (h : M.run s as = some t) : M.Reachable t := by
  induction as generalizing s with
  | nil =>
    rw [run_nil, Option.some.injEq] at h
    exact h ▸ hs
  | cons a as ih =>
    rw [run_cons, Option.bind_eq_some_iff] at h
    obtain ⟨u, hu, ht⟩ := h
    exact ih (hs.step a hu) ht

/-- What holds initially and is kept by every step holds in every reachable state. -/
theorem Reachable.invariant (hs : M.Reachable s) (h0 : ∀ s, M.init s → I s)
    (hstep : ∀ s a s', I s → M.step s a = some s' → I s') : I s := by
  induction hs with
  | init h => exact h0 _ h
  | step a _ h ih => exact hstep _ a _ ih h

/-- What steps of one kind keep holds where a run of such steps ends. -/
theorem keep_run_of {J : σ → Prop} {C : α → Prop} (hs : J s)
    (hstep : ∀ s a s', J s → C a → M.step s a = some s' → J s') (has : ∀ a ∈ as, C a)
    (h : M.run s as = some t) : J t := by
  induction as generalizing s with
  | nil =>
    rw [run_nil, Option.some.injEq] at h
    exact h ▸ hs
  | cons a as ih =>
    rw [run_cons, Option.bind_eq_some_iff] at h
    obtain ⟨u, hu, ht⟩ := h
    obtain ⟨ha, has⟩ := List.forall_mem_cons.mp has
    exact ih (hstep s a u hs ha hu) has ht

/-- What every step keeps holds where a run ends if it holds where the run begins. -/
theorem keep_run {J : σ → Prop} (hs : J s) (hstep : ∀ s a s', J s → M.step s a = some s' → J s')
    (h : M.run s as = some t) : J t :=
  keep_run_of (C := fun _ => True) hs (fun s a s' hJ _ => hstep s a s' hJ) (fun _ _ => trivial) h

theorem keep_collect {β : Type} {J : List β → σ → Prop} {f : σ → α → List β} {xs : List β}
    {C : α → Prop} (hs : J xs s)
    (hstep : ∀ xs s a s', J xs s → C a → M.step s a = some s' → J (xs ++ f s a) s')
    (has : ∀ a ∈ as, C a) (h : M.run s as = some t) : J (xs ++ M.collect f s as) t := by
  induction as generalizing s xs with
  | nil =>
    rw [run_nil, Option.some.injEq] at h
    rw [collect, List.append_nil]
    exact h ▸ hs
  | cons a as ih =>
    rw [run_cons, Option.bind_eq_some_iff] at h
    obtain ⟨u, hu, ht⟩ := h
    obtain ⟨ha, has⟩ := List.forall_mem_cons.mp has
    rw [collect_cons f hu, ← List.append_assoc]
    exact ih (hstep xs s a u hs ha hu) has ht

/-! ## Conditions on the steps of a run -/

theorem Always.here (h : M.Always P s as) : P s := by
  cases as with
  | nil => exact h
  | cons a as => exact h.1

theorem Always.last (h : M.Always P s as) (hrun : M.run s as = some t) : P t := by
  induction as generalizing s with
  | nil =>
    rw [run_nil, Option.some.injEq] at hrun
    exact hrun ▸ h
  | cons a as ih =>
    rw [run_cons, Option.bind_eq_some_iff] at hrun
    obtain ⟨u, hu, ht⟩ := hrun
    exact ih (h.2 u hu) ht

/-- `Along`, computed. -/
def checks (M : Machine σ α) (C : σ → α → Prop) [∀ s a, Decidable (C s a)] : σ → List α → Bool
  | _, [] => true
  | s, a :: as =>
    match M.step s a with
    | none => true
    | some s' => decide (C s a) && checks M C s' as

theorem Along.of_checks [∀ s a, Decidable (C s a)] (h : M.checks C s as = true) :
    M.Along C s as := by
  induction as generalizing s with
  | nil => trivial
  | cons a as ih =>
    intro s' hs'
    unfold checks at h
    rw [hs', Bool.and_eq_true, decide_eq_true_iff] at h
    exact ⟨h.1, ih h.2⟩

theorem always_of_invariant (hI : I s) (hstep : ∀ s a s', I s → M.step s a = some s' → I s')
    (hP : ∀ s, I s → P s) : M.Always P s as := by
  induction as generalizing s with
  | nil => exact hP s hI
  | cons a as ih => exact ⟨hP s hI, fun s' hs' => ih (hstep _ _ _ hI hs')⟩

theorem always_of_forall (h : ∀ s, P s) (s : σ) (as : List α) : M.Always P s as :=
  always_of_invariant (I := fun _ => True) trivial (fun _ _ _ _ _ => trivial) fun s _ => h s

/-- Conditions on what is attempted that agree while an invariant lasts. -/
theorem attempted_congr {D : σ → α → Prop} (hI : I s)
    (hstep : ∀ s a s', I s → M.step s a = some s' → I s') (h : ∀ s a, I s → (C s a ↔ D s a)) :
    M.Attempted C s as ↔ M.Attempted D s as := by
  induction as generalizing s with
  | nil => rfl
  | cons a as ih =>
    unfold Attempted
    rw [h s a hI]
    apply and_congr_right'
    exact forall₂_congr fun s' hs' => ih (hstep _ _ _ hI hs')

theorem attempted_of_invariant (hI : I s) (hstep : ∀ s a s', I s → M.step s a = some s' → I s')
    (hC : ∀ s a, I s → C s a) : M.Attempted C s as := by
  induction as generalizing s with
  | nil => trivial
  | cons a as ih => exact ⟨hC s a hI, fun s' hs' => ih (hstep _ _ _ hI hs')⟩

theorem Along.imp {D : σ → α → Prop} (h : M.Along C s as) (hI : I s)
    (hstep : ∀ s a s', I s → C s a → M.step s a = some s' → I s')
    (himp : ∀ s a s', I s → C s a → M.step s a = some s' → D s a) : M.Along D s as := by
  induction as generalizing s with
  | nil => trivial
  | cons a as ih =>
    intro s' hs'
    obtain ⟨hc, hrest⟩ := h s' hs'
    exact ⟨himp s a s' hI hc hs', ih hrest (hstep _ _ _ hI hc hs')⟩

theorem Along.always (h : M.Along C s as) (hI : I s)
    (hstep : ∀ s a s', I s → C s a → M.step s a = some s' → I s')
    (hP : ∀ s, I s → P s) : M.Always P s as := by
  induction as generalizing s with
  | nil => exact hP s hI
  | cons a as ih =>
    refine ⟨hP s hI, ?_⟩
    intro s' hs'
    obtain ⟨hc, hrest⟩ := h s' hs'
    exact ih hrest (hstep _ _ _ hI hc hs')

/-- **Exact conditions.** If the steps that meet `C` keep an invariant that implies `P`, and a
step that does not meet `C` leads out of `P`, then a run stays in `P` exactly when all of its
steps meet `C`. -/
theorem always_iff_along (hI : I s)
    (hstep : ∀ s a s', I s → C s a → M.step s a = some s' → I s')
    (hP : ∀ s, I s → P s)
    (hbad : ∀ s a s', I s → ¬ C s a → M.step s a = some s' → ¬ P s') :
    M.Always P s as ↔ M.Along C s as := by
  refine ⟨?_, fun h => h.always hI hstep hP⟩
  intro h
  induction as generalizing s with
  | nil => trivial
  | cons a as ih =>
    intro s' hs'
    have hc : C s a := by
      by_contra hc
      exact hbad _ _ _ hI hc hs' (h.2 s' hs').here
    exact ⟨hc, ih (hstep _ _ _ hI hc hs') (h.2 s' hs')⟩

theorem Always.keep {J : σ → Prop} (h : M.Always P s as) (hs : J s)
    (hJ : ∀ s a s', J s → M.step s a = some s' → P s' → J s') (hrun : M.run s as = some t) :
    J t := by
  induction as generalizing s with
  | nil =>
    rw [run_nil, Option.some.injEq] at hrun
    exact hrun ▸ hs
  | cons a as ih =>
    rw [run_cons, Option.bind_eq_some_iff] at hrun
    obtain ⟨u, hu, hrun⟩ := hrun
    exact ih (h.2 u hu) (hJ _ _ _ hs hu (h.2 u hu).here) hrun

/-- **Conditions that are necessary in the end.** If a step that does not meet `C` leads out of `P`
or to `J`, and every step from `J` does, then a run that stays in `P` and ends outside `J` meets `C`
in all of its steps. -/
theorem along_of_always {J : σ → Prop} (h : M.Always P s as) (hI : I s)
    (hstep : ∀ s a s', I s → C s a → M.step s a = some s' → I s')
    (hbad : ∀ s a s', I s → ¬ C s a → M.step s a = some s' → P s' → J s')
    (hJ : ∀ s a s', J s → M.step s a = some s' → P s' → J s')
    (hrun : M.run s as = some t) (ht : ¬ J t) : M.Along C s as := by
  induction as generalizing s with
  | nil => trivial
  | cons a as ih =>
    intro s' hs'
    rw [run_cons, hs', Option.bind_some] at hrun
    have hnext := h.2 s' hs'
    have hc : C s a := by
      by_contra hc
      exact ht (hnext.keep (hbad _ _ _ hI hc hs' hnext.here) hJ hrun)
    exact ⟨hc, ih hnext (hstep _ _ _ hI hc hs') hrun⟩

end Machine

/-! ## Calls in progress

Several threads in one function: the list of where each of them is. One of them goes on, by `set`,
or returns, by `eraseIdx`; the others stay where they are.
-/

section Calls

variable {κ : Type} {calls : List κ} {i : ℕ} {c x : κ}

theorem exists_call_of_ne (hc : calls[i]? = some c) (hne : c ≠ x) (hx : x ∈ calls) :
    ∃ j, j ≠ i ∧ calls[j]? = some x := by
  obtain ⟨j, hj⟩ := List.mem_iff_getElem?.mp hx
  refine ⟨j, ?_, hj⟩
  rintro rfl
  rw [hc, Option.some.injEq] at hj
  exact hne hj

theorem mem_calls_set (hc : calls[i]? = some c) (hne : c ≠ x) (hx : x ∈ calls) (y : κ) :
    x ∈ calls.set i y := by
  obtain ⟨j, hij, hj⟩ := exists_call_of_ne hc hne hx
  refine List.mem_iff_getElem?.mpr ⟨j, ?_⟩
  rw [List.getElem?_set_ne hij.symm, hj]

theorem mem_calls_eraseIdx (hc : calls[i]? = some c) (hne : c ≠ x) (hx : x ∈ calls) :
    x ∈ calls.eraseIdx i := by
  obtain ⟨j, hij, hj⟩ := exists_call_of_ne hc hne hx
  exact List.mem_eraseIdx_iff_getElem?.mpr ⟨j, hij, hj⟩

end Calls
