import Mathlib.Data.List.Basic

/-!
# Programs that call their environment

`Calls κ ρ α` is a program that makes calls `c : κ`, goes on with whatever answer `r : ρ c` it gets,
and ends in an `α`. Nothing is assumed of the environment: `Run` has a run for every choice of
answers.

A `Monitor` keeps account of the calls and says which of them are allowed. `wp` is the weakest
precondition against a monitor, one rule for each way to build a program, and `wp.sound` brings it
back to runs.

`Books` are a monitor of what a program has acquired and not given back, and of whether a call it
must heed was refused. `BringsUp` is the specification of a program that acquires a list of
resources, in that order, and stops at the first refusal; it composes along `bind_check`.
-/

/-- A program that makes calls and goes on with their answers. -/
inductive Calls (κ : Type) (ρ : κ → Type) (α : Type) where
  | done (a : α)
  | call (c : κ) (next : ρ c → Calls κ ρ α)

namespace Calls

variable {κ : Type} {ρ : κ → Type} {α β σ : Type}

protected def bind : Calls κ ρ α → (α → Calls κ ρ β) → Calls κ ρ β
  | done a, f => f a
  | call c next, f => call c fun r => (next r).bind f

instance : Monad (Calls κ ρ) where
  pure := done
  bind := Calls.bind

/-- The program that makes one call and returns the answer. -/
def ask (c : κ) : Calls κ ρ (ρ c) := call c done

/-- The run in which the calls are answered by `answer`, if it gets to its end. -/
def exec (answer : (c : κ) → Option (ρ c)) : Calls κ ρ α → Option (List ((c : κ) × ρ c) × α)
  | done a => some ([], a)
  | call c next => (answer c).bind fun r =>
    (exec answer (next r)).map fun e => (⟨c, r⟩ :: e.1, e.2)

/-- The program makes these calls, is given these answers, and returns `a`. -/
inductive Run : Calls κ ρ α → List ((c : κ) × ρ c) → α → Prop
  | done {a : α} : Run (.done a) [] a
  | call {c : κ} {next : ρ c → Calls κ ρ α} {r : ρ c} {l : List ((c : κ) × ρ c)} {a : α}
      (h : Run (next r) l a) : Run (.call c next) (⟨c, r⟩ :: l) a

theorem run_of_exec {answer : (c : κ) → Option (ρ c)} {p : Calls κ ρ α}
    {e : List ((c : κ) × ρ c) × α} (h : p.exec answer = some e) : Run p e.1 e.2 := by
  induction p generalizing e with
  | done a =>
    cases h
    exact .done
  | call c next ih =>
    obtain ⟨r, -, h⟩ := Option.bind_eq_some_iff.mp h
    obtain ⟨e', he', rfl⟩ := Option.map_eq_some_iff.mp h
    exact .call (ih r he')

end Calls

/-! ## Monitors -/

/-- An account of the calls: which are allowed, and what the answer changes. -/
structure Monitor (σ κ : Type) (ρ : κ → Type) where
  Allowed : σ → κ → Prop
  after : σ → (c : κ) → ρ c → σ

namespace Monitor

variable {κ : Type} {ρ : κ → Type} {σ : Type}

/-- The account after these calls. -/
def final (M : Monitor σ κ ρ) : σ → List ((c : κ) × ρ c) → σ
  | s, [] => s
  | s, e :: l => M.final (M.after s e.1 e.2) l

/-- Every one of these calls is allowed where it is made. -/
def Allows (M : Monitor σ κ ρ) : σ → List ((c : κ) × ρ c) → Prop
  | _, [] => True
  | s, e :: l => M.Allowed s e.1 ∧ M.Allows (M.after s e.1 e.2) l

end Monitor

namespace Calls

variable {κ : Type} {ρ : κ → Type} {α β σ : Type} {M : Monitor σ κ ρ} {s : σ}
  {Q R : α → σ → Prop}

/-- Whatever the answers, the program makes allowed calls only and ends in `Q`. -/
def wp (M : Monitor σ κ ρ) : Calls κ ρ α → (α → σ → Prop) → σ → Prop
  | done a, Q, s => Q a s
  | call c next, Q, s => M.Allowed s c ∧ ∀ r, (next r).wp M Q (M.after s c r)

@[simp] theorem wp_pure (a : α) : wp M (pure a : Calls κ ρ α) Q s ↔ Q a s := Iff.rfl

@[simp] theorem wp_bind (p : Calls κ ρ β) (f : β → Calls κ ρ α) :
    wp M (p >>= f) Q s ↔ wp M p (fun b s => wp M (f b) Q s) s := by
  show wp M (p.bind f) Q s ↔ _
  induction p generalizing s with
  | done b => exact Iff.rfl
  | call c next ih => exact and_congr_right fun _ => forall_congr' fun r => ih r

@[simp] theorem wp_ask (c : κ) (Q : ρ c → σ → Prop) :
    wp M (ask c) Q s ↔ M.Allowed s c ∧ ∀ r, Q r (M.after s c r) := Iff.rfl

theorem wp.mono {p : Calls κ ρ α} (h : wp M p Q s) (hQ : ∀ a s, Q a s → R a s) : wp M p R s := by
  induction p generalizing s with
  | done a => exact hQ a s h
  | call c next ih => exact ⟨h.1, fun r => ih r (h.2 r)⟩

/-- What holds of the program holds of each of its runs. -/
theorem wp.sound {p : Calls κ ρ α} {l : List ((c : κ) × ρ c)} {a : α} (h : wp M p Q s)
    (hrun : Run p l a) : M.Allows s l ∧ Q a (M.final s l) := by
  induction hrun generalizing s with
  | done => exact ⟨trivial, h⟩
  | call _ ih =>
    obtain ⟨hallowed, hnext⟩ := h
    obtain ⟨hallows, hQ⟩ := ih (hnext _)
    exact ⟨⟨hallowed, hallows⟩, hQ⟩

end Calls

/-! ## Books -/

/-- What the calls of a program need, acquire and give back, which answers are refusals that the
program must heed, and which calls may still follow a refused one. -/
structure Books (κ : Type) (ρ : κ → Type) (θ : Type) where
  needs : κ → List θ
  takes : (c : κ) → ρ c → List θ
  gives : (c : κ) → ρ c → List θ
  refuses : (c : κ) → ρ c → Bool
  follows : κ → κ → Bool

/-- What is held, in the order in which it was acquired, and the first call that was refused. -/
@[ext] structure Account (κ θ : Type) where
  held : List θ
  refused : Option κ

namespace Books

variable {κ : Type} {ρ : κ → Type} {θ : Type} [DecidableEq θ]

/-- A call is allowed where what it needs is held and what it may acquire is not, and after a
refusal only if it follows the refused call. -/
def monitor (B : Books κ ρ θ) : Monitor (Account κ θ) κ ρ where
  Allowed s c := (∀ x ∈ B.needs c, x ∈ s.held) ∧ (∀ r, ∀ x ∈ B.takes c r, x ∉ s.held) ∧
    ∀ f, s.refused = some f → B.follows f c = true
  after s c r :=
    { held := s.held.filter (· ∉ B.gives c r) ++ B.takes c r
      refused := s.refused.or (if B.refuses c r then some c else none) }

theorem after_of_gives_nil {B : Books κ ρ θ} {s : Account κ θ} {c : κ} {r : ρ c}
    (h : B.gives c r = []) :
    B.monitor.after s c r =
      ⟨s.held ++ B.takes c r, s.refused.or (if B.refuses c r then some c else none)⟩ := by
  have hkeep : s.held.filter (· ∉ B.gives c r) = s.held := by
    rw [h]
    simp only [List.not_mem_nil, not_false_eq_true, decide_true, List.filter_true]
  exact Account.ext (congrArg (· ++ B.takes c r) hkeep) rfl

end Books

namespace Calls

variable {κ : Type} {ρ : κ → Type} {θ α β : Type}

/-- A program was to acquire `order` on top of what was held. Either it did, and nothing was
refused; or its result is bad, a call was refused, and it holds the first few of them. -/
inductive Outcome (Bad : α → Prop) (held order : List θ) (a : α) : Account κ θ → Prop
  | good (h : ¬ Bad a) : Outcome Bad held order a ⟨held ++ order, none⟩
  | bad {c : κ} {xs : List θ} (h : Bad a) (hxs : xs <+: order) :
    Outcome Bad held order a ⟨held ++ xs, some c⟩

variable [DecidableEq θ] {B : Books κ ρ θ} {Bad : α → Prop} {Bad' : β → Prop}
  {held xs ys : List θ} {a : α}

omit [DecidableEq θ] in
theorem Outcome.stopped {order : List θ} {k : κ} (h : Bad a) :
    Outcome Bad held order a ⟨held, some k⟩ := by
  have hbad : Outcome Bad held order a ⟨held ++ [], some k⟩ := .bad h List.nil_prefix
  rw [List.append_nil] at hbad
  exact hbad

omit [DecidableEq θ] in
theorem Outcome.nothing (h : ¬ Bad a) : Outcome (κ := κ) Bad held [] a ⟨held, none⟩ := by
  have hgood : Outcome (κ := κ) Bad held [] a ⟨held ++ [], none⟩ := .good h
  rw [List.append_nil] at hgood
  exact hgood

/-- From `held`, the program acquires `order` or stops at a refusal, as `Outcome` says. -/
def BringsUp (B : Books κ ρ θ) (Bad : α → Prop) (p : Calls κ ρ α) (held order : List θ) : Prop :=
  wp B.monitor p (Outcome Bad held order) ⟨held, none⟩

/-- The proof of `BringsUp` keeps what was held before apart from what is acquired. -/
theorem BringsUp.start {p : Calls κ ρ α}
    (h : wp B.monitor p (Outcome Bad held ys) ⟨held ++ [], none⟩) : BringsUp B Bad p held ys := by
  rw [List.append_nil] at h
  exact h

/-- A program that goes on with `q` unless `p` has a bad result. -/
theorem BringsUp.wp_bind {p : Calls κ ρ α} {q : α → Calls κ ρ β} {e : α → β} [DecidablePred Bad]
    {Q : β → Account κ θ → Prop} (hp : BringsUp B Bad p (held ++ xs) ys)
    (hbad : ∀ r k zs, Bad r → zs <+: ys → Q (e r) ⟨held ++ (xs ++ zs), some k⟩)
    (hgood : ∀ r, ¬ Bad r → wp B.monitor (q r) Q ⟨held ++ (xs ++ ys), none⟩) :
    wp B.monitor (p >>= fun r => if Bad r then pure (e r) else q r) Q ⟨held ++ xs, none⟩ := by
  refine (Calls.wp_bind p _).mpr (wp.mono hp fun r s h => ?_)
  cases h with
  | good h =>
    rw [if_neg h, List.append_assoc]
    exact hgood r h
  | bad h hzs =>
    rw [if_pos h, List.append_assoc]
    exact hbad r _ _ h hzs

/-- What such a program is to acquire starts with what is acquired already and what `p` acquires. -/
theorem BringsUp.wp_check {p : Calls κ ρ α} {q : α → Calls κ ρ β} {e : α → β} [DecidablePred Bad]
    {order : List θ} (hp : BringsUp B Bad p (held ++ xs) ys) (he : ∀ r, Bad r → Bad' (e r))
    (horder : xs ++ ys <+: order)
    (hq : ∀ r, ¬ Bad r →
      wp B.monitor (q r) (Outcome Bad' held order) ⟨held ++ (xs ++ ys), none⟩) :
    wp B.monitor (p >>= fun r => if Bad r then pure (e r) else q r) (Outcome Bad' held order)
      ⟨held ++ xs, none⟩ :=
  hp.wp_bind (fun r _ _ hr hzs =>
    .bad (he r hr) (((List.prefix_append_right_inj xs).mpr hzs).trans horder)) hq

theorem BringsUp.pure (h : ¬ Bad a) : BringsUp B Bad (Pure.pure a : Calls κ ρ α) held [] :=
  Outcome.nothing h

end Calls
