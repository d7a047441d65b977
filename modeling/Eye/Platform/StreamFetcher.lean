import Eye.Core.CommonTypes
import Eye.Lib.Machine

/-!
# The fetcher's thread

`start`, `stop` and the destructor of `StreamFetcher`, called by the thread that owns it, and the
fetch thread that `start` makes. An action is one atomic step: a test or a store of `running_`, a
join, an assignment or a destruction of `thread_`. A `std::thread` that is assigned to or destroyed
while it is joinable ends the process.

`lifecycle_iff`: it does so exactly if the thread it finds there has ended by itself, because
`ss_mpi_venc_get_fd` failed: that thread has cleared `running_`, so `stop` no longer joins it.
-/

namespace Eye

/-- Where the fetch thread is in `run`. -/
inductive FetchThread
  /-- Before `ss_mpi_venc_get_fd`. -/
  | entry
  /-- `fd_ < 0` has been found; `running_` is not cleared yet. -/
  | noFd
  /-- At the test of `running_`. -/
  | loop
  /-- In the body of the loop. -/
  | body
  /-- At the end; `byItself` if it has cleared `running_`. -/
  | ended (byItself : Bool)
  deriving DecidableEq

/-- Where the owner is: in `start`, in `stop` (that of the destructor or one of its own), in the
destruction of the members, or between two calls. -/
inductive FetcherOwner
  | idle
  /-- `start` has found `running_` false. -/
  | starting
  /-- `start` has set `running_`. -/
  | assigning
  /-- `stop` has found `running_` true. -/
  | stopping (destructor : Bool)
  /-- `stop` has cleared `running_`. -/
  | joining (destructor : Bool)
  /-- The destructor's `stop` has returned. -/
  | destroying
  | destroyed
  deriving DecidableEq

/-- A fetcher; `thread` is joinable if it is some thread. -/
structure StreamFetcher where
  running : Bool
  thread : Option FetchThread
  fd : ℤ
  owner : FetcherOwner
  terminated : Bool
  deriving DecidableEq

namespace StreamFetcher

/-- The constructor. -/
def new : StreamFetcher := ⟨false, none, -1, .idle, false⟩

/-- `start`, `stop` and `destruct` are the first steps of the owner's calls, `owner` is the next
step of its call; `getFd` is the first step of the fetch thread, `fetch` its next step. -/
inductive Action
  | start
  | stop
  | destruct
  | owner
  | getFd (fd : ℤ)
  | fetch
  deriving DecidableEq

/-- Where `stop` returns to. -/
def stopped (destructor : Bool) : FetcherOwner := if destructor then .destroying else .idle

/-- The next step of the call that the owner is in. -/
def continueCall (f : StreamFetcher) : Option StreamFetcher :=
  match f.owner with
  | .idle | .destroyed => none
  | .starting => some { f with running := true, owner := .assigning }
  | .assigning =>
    if f.thread.isSome then some { f with terminated := true }
    else some { f with thread := some .entry, owner := .idle }
  | .stopping b => some { f with running := false, owner := .joining b }
  | .joining b =>
    match f.thread with
    | none => some { f with owner := stopped b }
    | some (.ended _) => some { f with thread := none, owner := stopped b }
    -- `join` waits
    | some _ => none
  | .destroying =>
    if f.thread.isSome then some { f with terminated := true }
    else some { f with owner := .destroyed }

/-- The next step of the fetch thread, after its first one. -/
def continueRun (f : StreamFetcher) : Option StreamFetcher :=
  match f.thread with
  | none | some .entry | some (.ended _) => none
  | some .noFd => some { f with running := false, thread := some (.ended true) }
  | some .loop => some { f with thread := some (if f.running then .body else .ended false) }
  | some .body => some { f with thread := some .loop }

def step (f : StreamFetcher) (a : Action) : Option StreamFetcher :=
  if f.terminated then none
  else match a with
    | .start =>
      if f.owner = .idle then some { f with owner := if f.running then .idle else .starting }
      else none
    | .stop =>
      if f.owner = .idle then some { f with owner := if f.running then .stopping false else .idle }
      else none
    | .destruct =>
      if f.owner = .idle then
        some { f with owner := if f.running then .stopping true else .destroying }
      else none
    | .owner => f.continueCall
    | .getFd fd =>
      if f.thread = some .entry then
        some { f with fd := fd, thread := some (if fd < 0 then .noFd else .loop) }
      else none
    | .fetch => f.continueRun

/-- All orders of the owner's calls, and all interleavings with the fetch thread. -/
def machine : Machine StreamFetcher Action where
  init f := f = new
  step := step

/-- `start` does not assign to `thread_`, and the destructor does not destroy it, while it holds a
thread that has ended by itself. -/
def NotGone (f : StreamFetcher) : Action → Prop
  | .owner => (f.owner = .assigning ∨ f.owner = .destroying) → f.thread ≠ some (.ended true)
  | .start | .stop | .destruct | .getFd _ | .fetch => True

variable {f f' : StreamFetcher} {a : Action}

/-! ## What every step keeps -/

/-- What the owner knows of a thread that it has not joined. -/
def Unjoined (f : StreamFetcher) (t : FetchThread) : Prop :=
  match f.owner with
  | .idle => f.running = true ∨ t = .ended true
  | .starting | .assigning | .destroying => t = .ended true
  | .stopping _ | .joining _ => True
  | .destroyed => False

/-- The process runs, and `running_` stands for a thread to be joined, but for one that has ended by
itself. -/
structure Inv (f : StreamFetcher) : Prop where
  alive : f.terminated = false
  unjoined : ∀ t, f.thread = some t → f.Unjoined t
  running : f.owner = .assigning → f.running = true

theorem inv_new : new.Inv := ⟨rfl, nofun, nofun⟩

/-- The invariant and the condition leave no thread to assign to or to destroy. -/
theorem Inv.thread_none (hi : f.Inv) (hc : f.NotGone .owner)
    (ho : f.owner = .assigning ∨ f.owner = .destroying) : f.thread = none := by
  by_contra hne
  obtain ⟨t, ht⟩ := Option.ne_none_iff_exists'.mp hne
  have hu := hi.unjoined t ht
  unfold Unjoined at hu
  have hgone : t = .ended true := by
    rcases ho with ho | ho <;> simpa [ho] using hu
  rw [hgone] at ht
  exact hc ho ht

theorem Inv.continueCall (hi : f.Inv) (hc : f.NotGone .owner) (h : f.continueCall = some f') :
    f'.Inv := by
  unfold StreamFetcher.continueCall at h
  have hu := hi.unjoined
  unfold Unjoined at hu
  cases ho : f.owner with
  | idle | destroyed =>
    rw [ho] at h
    cases h
  | starting =>
    rw [ho] at h hu
    cases h
    exact ⟨hi.alive, hu, fun _ => rfl⟩
  | assigning =>
    have hnone := hi.thread_none hc (.inl ho)
    rw [ho, hnone] at h
    cases h
    refine ⟨hi.alive, ?_, nofun⟩
    intro t ht
    exact .inl (hi.running ho)
  | destroying =>
    have hnone := hi.thread_none hc (.inr ho)
    rw [ho, hnone] at h
    cases h
    exact ⟨hi.alive, nofun, nofun⟩
  | stopping b =>
    rw [ho] at h
    cases h
    exact ⟨hi.alive, fun _ _ => trivial, nofun⟩
  | joining b =>
    rw [ho] at h
    have hback : stopped b ≠ .assigning := by cases b <;> nofun
    cases ht : f.thread with
    | none =>
      simp only [ht] at h
      cases h
      exact ⟨hi.alive, nofun, fun h => absurd h hback⟩
    | some t =>
      cases t with
      | ended byItself =>
        simp only [ht] at h
        cases h
        exact ⟨hi.alive, nofun, fun h => absurd h hback⟩
      | entry | noFd | loop | body =>
        simp only [ht] at h
        cases h

/-- A thread that has not ended moves on; it may leave `running_` as it is, or clear it and end. -/
theorem Inv.move {t t' : FetchThread} (hi : f.Inv) (ht : f.thread = some t) (hne : t ≠ .ended true)
    {running : Bool} (hr : running = f.running ∨ t' = .ended true) (fd : ℤ) :
    Inv { f with running := running, thread := some t', fd := fd } := by
  have hu := hi.unjoined t ht
  unfold Unjoined at hu
  refine ⟨hi.alive, ?_, ?_⟩
  · rintro _ ⟨⟩
    unfold Unjoined
    cases ho : f.owner <;> rw [ho] at hu <;> try exact absurd hu hne
    · rcases hr with rfl | rfl
      · exact .inl (hu.resolve_right hne)
      · exact .inr rfl
    · trivial
    · trivial
    · exact hu
  · intro ho
    -- `start` does not assign while a thread can still move
    rw [show f.owner = .assigning from ho] at hu
    exact absurd hu hne

theorem Inv.continueRun (hi : f.Inv) (h : f.continueRun = some f') : f'.Inv := by
  unfold StreamFetcher.continueRun at h
  cases ht : f.thread with
  | none =>
    rw [ht] at h
    cases h
  | some t =>
    rw [ht] at h
    cases t with
    | entry | ended =>
      cases h
    | noFd =>
      cases h
      exact hi.move ht nofun (.inr rfl) f.fd
    | loop | body =>
      cases h
      exact hi.move ht nofun (.inl rfl) f.fd

theorem Inv.test (hi : f.Inv) (ho : f.owner = .idle) {found notFound : FetcherOwner}
    (hfound : found = .idle ∨ ∃ b, found = .stopping b)
    (hnot : notFound = .starting ∨ notFound = .idle ∨ notFound = .destroying) :
    Inv { f with owner := if f.running = true then found else notFound } := by
  have hu := hi.unjoined
  unfold Unjoined at hu
  rw [ho] at hu
  split_ifs with hr
  · rcases hfound with rfl | ⟨b, rfl⟩
    · exact ⟨hi.alive, hu, nofun⟩
    · exact ⟨hi.alive, fun _ _ => trivial, nofun⟩
  · -- a thread whose `running_` is false has ended by itself
    have hgone : ∀ t, f.thread = some t → t = .ended true := by
      intro t ht
      exact (hu t ht).resolve_left hr
    rcases hnot with rfl | rfl | rfl
    · exact ⟨hi.alive, hgone, nofun⟩
    · exact ⟨hi.alive, hu, nofun⟩
    · exact ⟨hi.alive, hgone, nofun⟩

theorem Inv.step (hi : f.Inv) (hc : f.NotGone a) (h : f.step a = some f') : f'.Inv := by
  unfold StreamFetcher.step at h
  rw [if_neg (by rw [hi.alive]; exact Bool.false_ne_true)] at h
  cases a with
  | start =>
    obtain ⟨ho, h⟩ := Option.ite_none_right_eq_some.mp h
    cases h
    exact hi.test ho (.inl rfl) (.inl rfl)
  | stop =>
    obtain ⟨ho, h⟩ := Option.ite_none_right_eq_some.mp h
    cases h
    exact hi.test ho (.inr ⟨false, rfl⟩) (.inr (.inl rfl))
  | destruct =>
    obtain ⟨ho, h⟩ := Option.ite_none_right_eq_some.mp h
    cases h
    exact hi.test ho (.inr ⟨true, rfl⟩) (.inr (.inr rfl))
  | owner => exact hi.continueCall hc h
  | getFd fd =>
    obtain ⟨ht, h⟩ := Option.ite_none_right_eq_some.mp h
    cases h
    exact hi.move ht nofun (.inl rfl) fd
  | fetch => exact hi.continueRun h

/-- Assigning to or destroying a thread that has ended by itself ends the process. -/
theorem terminated_of_gone (hi : f.Inv) (hc : ¬ f.NotGone a) (h : f.step a = some f') :
    f'.terminated = true := by
  unfold StreamFetcher.step at h
  rw [if_neg (by rw [hi.alive]; exact Bool.false_ne_true)] at h
  cases a with
  | start | stop | destruct | getFd | fetch => exact absurd trivial hc
  | owner =>
    unfold NotGone at hc
    rw [Classical.not_imp, Classical.not_not] at hc
    obtain ⟨ho, ht⟩ := hc
    have h : f.continueCall = some f' := h
    unfold continueCall at h
    rcases ho with ho | ho <;> rw [ho, ht] at h <;> cases h <;> rfl

/-! ## Whole runs -/

/-- **The fetcher's thread.** In no state of a run has an assignment to `thread_` or its destruction
ended the process, exactly if each of them finds no thread that has cleared `running_` and ended by
itself. -/
theorem lifecycle_iff {as : List Action} :
    machine.Always (fun f => f.terminated = false) new as ↔ machine.Along NotGone new as := by
  refine Machine.always_iff_along inv_new (fun _ _ _ hi hc h => hi.step hc h)
    (fun _ hi => hi.alive) ?_
  intro f a f' hi hc h hf
  have hterm := terminated_of_gone hi hc h
  simp [hterm] at hf

/-- `start`; the fetch thread gets no descriptor and ends; the next `start` assigns over it, and so
the destructor destroys it, after a `stop` that does nothing. -/
theorem lifecycle_broken :
    ¬ machine.Always (fun f => f.terminated = false) new
        [.start, .owner, .owner, .getFd (-1), .fetch, .start, .owner, .owner] ∧
      ¬ machine.Always (fun f => f.terminated = false) new
        [.start, .owner, .owner, .getFd (-1), .fetch, .stop, .destruct, .owner] := by
  have hlast : ∀ (as : List Action) (f : StreamFetcher), machine.run new as = some f →
      f.terminated = true → ¬ machine.Always (fun f => f.terminated = false) new as := by
    intro as f hrun hf h
    have halive := h.last hrun
    simp [hf] at halive
  exact ⟨hlast _ _ rfl rfl, hlast _ _ rfl rfl⟩

end StreamFetcher

end Eye
