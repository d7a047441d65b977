import Mathlib.Data.List.Basic
import Eye.Lib.Machine
import Eye.Lib.Queue

/-!
# Worker threads behind a mutex and a condition variable

A worker thread takes elements from a bounded queue. Other threads put elements in and wake it with
`notify_one`; one thread stops it: it stores `false` into the running flag, calls `notify_all`,
joins the thread and may clear what is left in the queue. The worker's loop tests the flag, locks
the mutex, waits on the condition variable for the queue not to be empty or the flag to be false,
and pops. Evaluating the predicate of the wait and blocking are two steps, with the mutex held
between them. A notification that comes while the worker does not wait is lost; a wait may also end
without one.

How the queue makes room is a `Policy`. `Inv` keeps the accounts of the elements; `Awake` is the
invariant against a stop that waits for ever, and `deadlock_of_not_heard` says that the condition it
needs of the last notification cannot be weakened.
-/

/-- What a queue keeps and what it gives up before an element is appended; `none` where the code
that makes room is undefined. -/
structure Policy (α : Type) where
  room : List α → Option (List α × List α)
  kept_sublist : ∀ xs kept gone, room xs = some (kept, gone) → kept.Sublist xs
  perm : ∀ xs kept gone, room xs = some (kept, gone) → (kept ++ gone).Perm xs

/-- The queue that gives up its oldest element when it holds `cap`. -/
def Policy.dropOldest {α : Type} (cap : ℕ) : Policy α where
  room xs := some (DropOldest.kept cap xs, DropOldest.evicted cap xs)
  kept_sublist := by
    rintro xs _ _ ⟨⟩
    exact DropOldest.kept_sublist cap xs
  perm := by
    rintro xs _ _ ⟨⟩
    exact DropOldest.kept_append_evicted_perm cap xs

/-- Where the worker thread is in its loop. `check` to `ready` are under the mutex; in `process` it
works on an element. -/
inductive Place (α : Type)
  | test
  | lock
  | check
  | block
  | waiting
  | ready
  | process (x : α)
  | done
  deriving DecidableEq

/-- How far the thread that stops the worker has come. -/
inductive Stage
  | idle
  | begun
  | stored
  | joining
  | joined
  | cleared
  deriving DecidableEq

/-- The running flag has been stored. -/
def Stage.isStored : Stage → Bool
  | .idle | .begun => false
  | .stored | .joining | .joined | .cleared => true

/-- The worker holds the mutex. -/
def Place.holdsMutex {α : Type} : Place α → Bool
  | .check | .block | .ready => true
  | .test | .lock | .waiting | .process _ | .done => false

/-- The element the worker works on. -/
def Place.inHand {α : Type} : Place α → List α
  | .process x => [x]
  | .test | .lock | .check | .block | .waiting | .ready | .done => []

/-- A worker with its queue. `owed` counts the pushes that have appended and not yet notified,
`ledger` follows the elements and `returned` lists those on which the work ended normally. -/
structure Worker (α : Type) where
  running : Bool
  queue : List α
  place : Place α
  stage : Stage
  owed : ℕ
  dropped : ℕ
  consumed : ℕ
  ledger : Ledger α
  returned : List α

namespace Worker

variable {α : Type}

def new : Worker α where
  running := true
  queue := []
  place := .test
  stage := .idle
  owed := 0
  dropped := 0
  consumed := 0
  ledger := .empty
  returned := []

/-- The steps of the worker itself, of the threads that push, and of the one that stops it. -/
inductive Act (α : Type)
  | work
  | finish (ok : Bool)
  | spurious
  | enqueue (x : α)
  | notifyOne
  | beginStop
  | store
  | notifyAll
  | join
  | clear

/-- The next step of the worker, where it needs nobody else. -/
def work (w : Worker α) : Option (Worker α) :=
  match w.place with
  | .test => some { w with place := if w.running then .lock else .done }
  | .lock => some { w with place := .check }
  | .check => some { w with place := if w.queue.isEmpty && w.running then .block else .ready }
  | .block => some { w with place := .waiting }
  | .ready =>
    if w.running then
      match w.queue with
      | [] => none
      | x :: rest => some { w with queue := rest, place := .process x, ledger := w.ledger.leave x }
    else some { w with place := .done }
  | .waiting | .process _ | .done => none

/-- The work on an element ends, normally or not. -/
def finish (w : Worker α) (ok : Bool) : Option (Worker α) :=
  match w.place with
  | .process x =>
    some { w with
      place := .test
      consumed := if ok then w.consumed + 1 else w.consumed
      returned := if ok then w.returned ++ [x] else w.returned }
  | .test | .lock | .check | .block | .waiting | .ready | .done => none

/-- What a notification does: a worker that waits goes back to locking the mutex. -/
def wake (w : Worker α) : Worker α :=
  match w.place with
  | .waiting => { w with place := .lock }
  | .test | .lock | .check | .block | .ready | .process _ | .done => w

def step (p : Policy α) (w : Worker α) : Act α → Option (Worker α)
  | .work => w.work
  | .finish ok => w.finish ok
  | .spurious =>
    match w.place with
    | .waiting => some w.wake
    | .test | .lock | .check | .block | .ready | .process _ | .done => none
  | .enqueue x =>
    if w.place.holdsMutex then none
    else
      (p.room w.queue).map fun r =>
        { w with
          queue := r.1 ++ [x]
          owed := w.owed + 1
          dropped := w.dropped + r.2.length
          ledger := (w.ledger.drop r.2).enter [x] }
  | .notifyOne => if w.owed = 0 then none else some { w.wake with owed := w.owed - 1 }
  | .beginStop => if w.stage = .idle then some { w with stage := .begun } else none
  | .store =>
    if w.stage = .begun then some { w with stage := .stored, running := false } else none
  | .notifyAll => if w.stage = .stored then some { w.wake with stage := .joining } else none
  | .join =>
    match w.stage, w.place with
    | .joining, .done => some { w with stage := .joined }
    | _, _ => none
  | .clear =>
    if w.stage = .joined ∧ w.place.holdsMutex = false then
      some { w with stage := .cleared, queue := [], ledger := w.ledger.clear w.queue }
    else none

/-! ## What a step can do -/

/-- The outcomes of `step`. -/
inductive Step (p : Policy α) (w : Worker α) : Act α → Worker α → Prop
  | test : w.place = .test →
      Step p w .work { w with place := if w.running then .lock else .done }
  | lock : w.place = .lock → Step p w .work { w with place := .check }
  | check : w.place = .check →
      Step p w .work { w with place := if w.queue.isEmpty && w.running then .block else .ready }
  | block : w.place = .block → Step p w .work { w with place := .waiting }
  | leave : w.place = .ready → w.running = false → Step p w .work { w with place := .done }
  | pop {x rest} : w.place = .ready → w.running = true → w.queue = x :: rest →
      Step p w .work
        { w with queue := rest, place := .process x, ledger := w.ledger.leave x }
  | finish {x} (ok : Bool) : w.place = .process x →
      Step p w (.finish ok)
        { w with
          place := .test
          consumed := if ok then w.consumed + 1 else w.consumed
          returned := if ok then w.returned ++ [x] else w.returned }
  | spurious : w.place = .waiting → Step p w .spurious { w with place := .lock }
  | enqueue {kept gone} (x : α) : w.place.holdsMutex = false →
      p.room w.queue = some (kept, gone) →
      Step p w (.enqueue x)
        { w with
          queue := kept ++ [x]
          owed := w.owed + 1
          dropped := w.dropped + gone.length
          ledger := (w.ledger.drop gone).enter [x] }
  | notifyOne : w.owed ≠ 0 → Step p w .notifyOne { w.wake with owed := w.owed - 1 }
  | beginStop : w.stage = .idle → Step p w .beginStop { w with stage := .begun }
  | store : w.stage = .begun → Step p w .store { w with stage := .stored, running := false }
  | notifyAll : w.stage = .stored → Step p w .notifyAll { w.wake with stage := .joining }
  | join : w.stage = .joining → w.place = .done → Step p w .join { w with stage := .joined }
  | clear : w.stage = .joined →
      Step p w .clear { w with stage := .cleared, queue := [], ledger := w.ledger.clear w.queue }

variable {p : Policy α} {w w' : Worker α} {a : Act α}

theorem Step.of_work (h : w.work = some w') : Step p w .work w' := by
  unfold Worker.work at h
  cases hp : w.place with
  | test =>
    rw [hp] at h
    cases h
    exact .test hp
  | lock =>
    rw [hp] at h
    cases h
    exact .lock hp
  | check =>
    rw [hp] at h
    cases h
    exact .check hp
  | block =>
    rw [hp] at h
    cases h
    exact .block hp
  | ready =>
    simp only [hp] at h
    split_ifs at h with hr
    · cases hq : w.queue with
      | nil =>
        rw [hq] at h
        cases h
      | cons x rest =>
        rw [hq] at h
        cases h
        exact .pop hp hr hq
    · cases h
      exact .leave hp (by simpa using hr)
  | waiting | process | done =>
    rw [hp] at h
    cases h

theorem Step.of_step (h : w.step p a = some w') : Step p w a w' := by
  cases a with
  | work => exact .of_work h
  | finish ok =>
    rw [Worker.step, Worker.finish] at h
    cases hp : w.place with
    | process x =>
      rw [hp] at h
      cases h
      exact .finish ok hp
    | test | lock | check | block | waiting | ready | done =>
      rw [hp] at h
      cases h
  | spurious =>
    rw [Worker.step] at h
    cases hp : w.place with
    | waiting =>
      rw [hp] at h
      cases h
      unfold wake
      rw [hp]
      exact .spurious hp
    | test | lock | check | block | ready | process | done =>
      rw [hp] at h
      cases h
  | enqueue x =>
    rw [Worker.step] at h
    split_ifs at h with hm
    obtain ⟨⟨kept, gone⟩, hroom, rfl⟩ := Option.map_eq_some_iff.mp h
    exact .enqueue x (by simpa using hm) hroom
  | notifyOne =>
    rw [Worker.step] at h
    split_ifs at h with ho
    cases h
    exact .notifyOne ho
  | beginStop =>
    rw [Worker.step] at h
    split_ifs at h with hs
    cases h
    exact .beginStop hs
  | store =>
    rw [Worker.step] at h
    split_ifs at h with hs
    cases h
    exact .store hs
  | notifyAll =>
    rw [Worker.step] at h
    split_ifs at h with hs
    cases h
    exact .notifyAll hs
  | join =>
    rw [Worker.step] at h
    split at h
    · rename_i hs hp
      cases h
      exact .join hs hp
    · cases h
  | clear =>
    rw [Worker.step] at h
    split_ifs at h with hs
    cases h
    exact .clear hs.1

/-! ## The accounts -/

/-- The accounts of a worker: its ledger agrees with its queue, its counters with its ledger, and
the running flag with the stage of the stop. -/
structure Inv (w : Worker α) : Prop where
  balanced : w.ledger.Balanced w.queue
  dropped_eq : w.dropped = w.ledger.dropped.length
  consumed_eq : w.consumed = w.returned.length
  returned_sublist : (w.returned ++ w.place.inHand).Sublist w.ledger.left
  running_eq : w.running = !w.stage.isStored

theorem inv_new : (new : Worker α).Inv :=
  ⟨Ledger.balanced_empty, rfl, rfl, List.Sublist.refl _, rfl⟩

@[simp] theorem wake_stage (w : Worker α) : w.wake.stage = w.stage := by
  unfold wake
  split <;> rfl

theorem Inv.moveTo (hi : w.Inv) {place : Place α} (hp : place.inHand = w.place.inHand) :
    Inv { w with place := place } := by
  refine ⟨hi.balanced, hi.dropped_eq, hi.consumed_eq, ?_, hi.running_eq⟩
  show (w.returned ++ place.inHand).Sublist w.ledger.left
  rw [hp]
  exact hi.returned_sublist

theorem Inv.setStage (hi : w.Inv) {stage : Stage} (hs : stage.isStored = w.stage.isStored) :
    Inv { w with stage := stage } := by
  refine ⟨hi.balanced, hi.dropped_eq, hi.consumed_eq, hi.returned_sublist, ?_⟩
  show w.running = !stage.isStored
  rw [hs]
  exact hi.running_eq

theorem Inv.wake (hi : w.Inv) : w.wake.Inv := by
  unfold Worker.wake
  split
  · rename_i hp
    apply hi.moveTo
    rw [hp]
    rfl
  all_goals exact hi

theorem Inv.step (hi : w.Inv) (h : Step p w a w') : w'.Inv := by
  have hs := hi.returned_sublist
  cases h with
  | test hp | check hp =>
    apply hi.moveTo
    rw [hp]
    split_ifs <;> rfl
  | lock hp | block hp | leave hp | spurious hp =>
    apply hi.moveTo
    rw [hp]
    rfl
  | @pop x rest hp hr hq =>
    rw [hp] at hs
    refine ⟨(hq ▸ hi.balanced).leave, hi.dropped_eq, hi.consumed_eq, ?_, hi.running_eq⟩
    rw [show w.returned ++ Place.ready.inHand = w.returned from List.append_nil _] at hs
    exact hs.append (List.Sublist.refl [x])
  | @finish x ok hp =>
    rw [hp] at hs
    refine ⟨hi.balanced, hi.dropped_eq, ?_, ?_, hi.running_eq⟩
    · dsimp only
      cases ok
      · exact hi.consumed_eq
      · rw [if_pos rfl, if_pos rfl, List.length_append, hi.consumed_eq]
        rfl
    · dsimp only
      rw [show (Place.test : Place α).inHand = [] from rfl, List.append_nil]
      cases ok
      · exact (List.sublist_append_left _ _).trans hs
      · exact hs
  | @enqueue kept gone x hm hroom =>
    have hb := (hi.balanced.drop (p.kept_sublist _ _ _ hroom) (p.perm _ _ _ hroom)).enter [x]
    refine ⟨hb, ?_, hi.consumed_eq, hs, hi.running_eq⟩
    show w.dropped + gone.length = (w.ledger.dropped ++ gone).length
    rw [List.length_append, hi.dropped_eq]
  | notifyOne ho =>
    have hw := hi.wake
    exact ⟨hw.balanced, hw.dropped_eq, hw.consumed_eq, hw.returned_sublist, hw.running_eq⟩
  | beginStop hst | join hst =>
    apply hi.setStage
    rw [hst]
    rfl
  | store hst => exact ⟨hi.balanced, hi.dropped_eq, hi.consumed_eq, hs, rfl⟩
  | notifyAll hst =>
    apply hi.wake.setStage
    rw [wake_stage, hst]
    rfl
  | clear hst =>
    refine ⟨hi.balanced.clear, hi.dropped_eq, hi.consumed_eq, hs, ?_⟩
    rw [hi.running_eq, hst]
    rfl

/-! ## One step of the queue -/

/-- The elements that a step puts in. -/
def Act.adds : Act α → List α
  | .enqueue x => [x]
  | .work | .finish _ | .spurious | .notifyOne | .beginStop | .store | .notifyAll | .join
  | .clear => []

/-- The steps of the worker thread itself. -/
def Act.isOwn : Act α → Bool
  | .work | .finish _ | .spurious => true
  | .enqueue _ | .notifyOne | .beginStop | .store | .notifyAll | .join | .clear => false

@[simp] theorem wake_ledger (w : Worker α) : w.wake.ledger = w.ledger := by
  unfold wake
  split <;> rfl

@[simp] theorem wake_queue (w : Worker α) : w.wake.queue = w.queue := by
  unfold wake
  split <;> rfl

@[simp] theorem wake_owed (w : Worker α) : w.wake.owed = w.owed := by
  unfold wake
  split <;> rfl

theorem Step.entered_eq (h : Step p w a w') :
    w'.ledger.entered = w.ledger.entered ++ a.adds := by
  cases h with
  | enqueue x hm hroom => rfl
  | notifyOne | notifyAll =>
    dsimp only
    rw [wake_ledger]
    exact (List.append_nil _).symm
  | test | lock | check | block | leave | pop | finish | spurious | beginStop | store | join
  | clear => exact (List.append_nil _).symm

@[simp] theorem wake_returned (w : Worker α) : w.wake.returned = w.returned := by
  unfold wake
  split <;> rfl

@[simp] theorem wake_inHand (w : Worker α) : w.wake.place.inHand = w.place.inHand := by
  unfold wake
  cases hp : w.place <;> simp [hp, Place.inHand]

/-- The element that the work ends on normally. -/
def ends (w : Worker α) : Act α → List α
  | .finish ok => if ok then w.place.inHand else []
  | .work | .spurious | .enqueue _ | .notifyOne | .beginStop | .store | .notifyAll | .join
  | .clear => []

theorem Step.returned_eq (h : Step p w a w') : w'.returned = w.returned ++ w.ends a := by
  cases h with
  | finish ok hp =>
    unfold ends
    rw [hp]
    cases ok
    · exact (List.append_nil _).symm
    · rfl
  | notifyOne | notifyAll =>
    unfold ends
    simp
  | test | lock | check | block | leave | pop | spurious | enqueue | beginStop | store | join
  | clear => exact (List.append_nil _).symm

/-- Where work always ends normally, what has left the queue has been worked on or is in hand. -/
theorem Step.left_eq (h : Step p w a w') (ha : a ≠ .finish false)
    (hl : w.ledger.left = w.returned ++ w.place.inHand) :
    w'.ledger.left = w'.returned ++ w'.place.inHand := by
  cases h with
  | test hp | check hp =>
    rw [hp] at hl
    dsimp only
    split_ifs <;> exact hl
  | lock hp | block hp | leave hp | spurious hp =>
    rw [hp] at hl
    exact hl
  | @pop x rest hp hr hq =>
    rw [hp, Place.inHand, List.append_nil] at hl
    show w.ledger.left ++ [x] = _
    rw [hl]
    rfl
  | @finish x ok hp =>
    rw [hp] at hl
    cases ok with
    | false => exact absurd rfl ha
    | true =>
      show w.ledger.left = (w.returned ++ [x]) ++ []
      rw [List.append_nil]
      exact hl
  | notifyOne | notifyAll =>
    simp only [wake_ledger, wake_returned, wake_inHand]
    exact hl
  | enqueue | beginStop | store | join | clear => exact hl

theorem Step.cleared_eq (h : Step p w a w') (ha : a ≠ .clear) :
    w'.ledger.cleared = w.ledger.cleared := by
  cases h with
  | clear => exact absurd rfl ha
  | notifyOne | notifyAll => simp
  | test | lock | check | block | leave | pop | finish | spurious | enqueue | beginStop | store
  | join => rfl

theorem Step.dropped_eq (h : Step p w a w') (ha : a.adds = []) :
    w'.ledger.dropped = w.ledger.dropped := by
  cases h with
  | enqueue => simp [Act.adds] at ha
  | notifyOne | notifyAll => simp
  | test | lock | check | block | leave | pop | finish | spurious | beginStop | store | join
  | clear => rfl

/-- What is not put in does not make the queue longer. -/
theorem Step.queue_sublist (h : Step p w a w') (ha : a.adds = []) :
    w'.queue.Sublist w.queue := by
  cases h with
  | enqueue => simp [Act.adds] at ha
  | pop hp hr hq =>
    rw [hq]
    exact List.sublist_cons_self _ _
  | clear => exact List.nil_sublist _
  | notifyOne | notifyAll => simp
  | test | lock | check | block | leave | finish | spurious | beginStop | store | join =>
    exact List.Sublist.refl _

theorem Step.place_test (h : Step p w a w') (hp : w.place = .test) (ha : a.isOwn = false) :
    w'.place = .test := by
  cases h with
  | notifyOne | notifyAll =>
    unfold wake
    rw [hp]
    exact hp
  | enqueue | beginStop | store | join | clear => exact hp
  | test | lock | check | block | leave | pop | finish | spurious => cases ha

/-- A step gives the worker its next element, or ends the work on one, or leaves what it has been
given and what it works on. -/
theorem Step.left_cases (h : Step p w a w') :
    (∃ x, w.place = .ready ∧ w'.place = .process x ∧ w'.ledger.left = w.ledger.left ++ [x]) ∨
      (w'.ledger.left = w.ledger.left ∧
        ((∃ ok x, a = .finish ok ∧ w.place = .process x ∧ w'.place = .test) ∨
          ∀ x, w'.place = .process x ↔ w.place = .process x)) := by
  have hwake : w.wake.ledger = w.ledger ∧
      ∀ x, w.wake.place = .process x ↔ w.place = .process x := by
    unfold wake
    split
    · rename_i hp
      exact ⟨rfl, fun x => by rw [hp]; simp⟩
    · exact ⟨rfl, fun _ => Iff.rfl⟩
    all_goals exact ⟨rfl, fun _ => Iff.rfl⟩
  cases h with
  | pop hp hr hq => exact .inl ⟨_, hp, rfl, rfl⟩
  | finish ok hp => exact .inr ⟨rfl, .inl ⟨ok, _, rfl, hp, rfl⟩⟩
  | test hp | check hp =>
    refine .inr ⟨rfl, .inr fun x => ?_⟩
    dsimp only
    rw [hp]
    split_ifs <;> simp
  | lock hp | block hp | leave hp | spurious hp =>
    refine .inr ⟨rfl, .inr fun x => ?_⟩
    dsimp only
    rw [hp]
    simp
  | enqueue | beginStop | store | join | clear => exact .inr ⟨rfl, .inr fun _ => Iff.rfl⟩
  | notifyOne | notifyAll => exact .inr ⟨congrArg Ledger.left hwake.1, .inr hwake.2⟩

theorem Step.length_le {cap : ℕ} (h : Step (.dropOldest cap) w a w') (hcap : 0 < cap)
    (hle : w.queue.length ≤ cap) : w'.queue.length ≤ cap := by
  cases h with
  | enqueue x hm hroom =>
    cases hroom
    exact DropOldest.length_push_le hcap hle
  | pop hp hr hq =>
    rw [hq, List.length_cons] at hle
    dsimp only
    omega
  | clear => exact Nat.zero_le _
  | notifyOne | notifyAll =>
    dsimp only
    rw [wake_queue]
    exact hle
  | test | lock | check | block | leave | finish | spurious | beginStop | store | join => exact hle

/-- The thread that stops the worker is blocked in `join`, the worker is blocked in its wait, and no
push that has appended has its notification still to come. -/
def Deadlocked (w : Worker α) : Prop := w.stage = .joining ∧ w.place = .waiting ∧ w.owed = 0

/-- The last notification that a worker on its way out can count on does not come between its
evaluation of the predicate and its blocking. -/
def Heard (w : Worker α) : Act α → Prop
  | .notifyAll => w.place = .block → w.owed ≠ 0
  | .notifyOne => w.place = .block → w.stage = .joining → w.owed ≠ 1
  | _ => True

/-- Once the stop has notified and nobody owes a notification, the worker neither waits nor is about
to. -/
def Awake (w : Worker α) : Prop :=
  w.stage = .joining → w.owed = 0 → w.place ≠ .block ∧ w.place ≠ .waiting

theorem awake_new : (new : Worker α).Awake := fun h => nomatch h

theorem Awake.not_deadlocked (hw : w.Awake) : ¬ w.Deadlocked := fun ⟨hs, hp, ho⟩ => (hw hs ho).2 hp

theorem wake_place_ne (w : Worker α) : w.wake.place ≠ .waiting := by
  unfold wake
  cases hp : w.place <;> simp [hp]

theorem wake_place_block (h : w.wake.place = .block) : w.place = .block := by
  unfold wake at h
  cases hp : w.place <;> simp_all

theorem Awake.step (hi : w.Inv) (hw : w.Awake) (hc : w.Heard a) (h : Step p w a w') : w'.Awake := by
  intro hs ho
  cases h with
  | test hp =>
    dsimp only
    split_ifs <;> exact ⟨by simp, by simp⟩
  | lock hp | leave hp | pop hp | finish ok hp | spurious hp => exact ⟨by simp, by simp⟩
  | check hp =>
    -- the flag is false by now, so the predicate is true
    have hr : w.running = false := by
      rw [hi.running_eq, show w.stage = .joining from hs]
      rfl
    dsimp only
    rw [hr, Bool.and_false, if_neg Bool.false_ne_true]
    exact ⟨by simp, by simp⟩
  | block hp => exact absurd hp (hw hs ho).1
  | enqueue x hm hroom => exact absurd ho (Nat.succ_ne_zero _)
  | notifyOne hn =>
    have hs : w.wake.stage = .joining := hs
    rw [wake_stage] at hs
    have ho : w.owed - 1 = 0 := ho
    refine ⟨?_, wake_place_ne w⟩
    intro hb
    exact hc (wake_place_block hb) hs (by omega)
  | notifyAll hst =>
    have ho : w.wake.owed = 0 := ho
    refine ⟨?_, wake_place_ne w⟩
    intro hb
    rw [wake_owed] at ho
    exact hc (wake_place_block hb) ho
  | beginStop | store | join | clear => cases hs

theorem place_of_not_heard (hc : ¬ w.Heard a) : w.place = .block := by
  cases a with
  | notifyAll | notifyOne =>
    unfold Heard at hc
    push Not at hc
    exact hc.1
  | work | finish | spurious | enqueue | beginStop | store | join | clear => exact absurd trivial hc

/-- A notification that is the last one and comes at the wrong moment leaves the stop one step of
the worker away from waiting for ever. -/
theorem deadlock_of_not_heard (hc : ¬ w.Heard a) (h : Step p w a w') :
    ∃ w'', w'.step p .work = some w'' ∧ w''.Deadlocked := by
  cases h with
  | notifyOne hn =>
    unfold Heard at hc
    push Not at hc
    obtain ⟨hb, hs, ho⟩ := hc
    have hwake : w.wake = w := by
      unfold wake
      rw [hb]
    rw [hwake]
    refine ⟨{ w with place := .waiting, owed := w.owed - 1 }, ?_, hs, rfl, ?_⟩
    · unfold step work
      rw [hb]
    · show w.owed - 1 = 0
      rw [ho]
  | notifyAll hst =>
    unfold Heard at hc
    push Not at hc
    obtain ⟨hb, ho⟩ := hc
    have hwake : w.wake = w := by
      unfold wake
      rw [hb]
    rw [hwake]
    refine ⟨{ w with place := .waiting, stage := .joining }, ?_, rfl, rfl, ho⟩
    unfold step work
    rw [hb]
  | test | lock | check | block | leave | pop | finish | spurious | enqueue | beginStop | store
  | join | clear => exact absurd trivial hc

/-! ## After the join -/

/-- A worker that has been joined has left its loop. -/
def LeftIfJoined (w : Worker α) : Prop :=
  w.stage = .joined ∨ w.stage = .cleared → w.place = .done

theorem leftIfJoined_new : (new : Worker α).LeftIfJoined := by
  intro h
  simp [new] at h

/-- A worker that has left its loop never works again, whoever puts elements in. -/
theorem Step.done (h : Step p w a w') (hp : w.place = .done) :
    w'.place = .done ∧ w'.ledger.left = w.ledger.left := by
  cases h with
  | test ht | lock ht | check ht | block ht | leave ht | pop ht | finish ok ht | spurious ht =>
    rw [hp] at ht
    cases ht
  | notifyOne | notifyAll =>
    have hwake : w.wake = w := by
      unfold wake
      rw [hp]
    dsimp only
    rw [hwake]
    exact ⟨hp, rfl⟩
  | enqueue | beginStop | store | join | clear => exact ⟨hp, rfl⟩

theorem LeftIfJoined.step (hw : w.LeftIfJoined) (h : Step p w a w') : w'.LeftIfJoined := by
  intro hs
  cases h with
  | join hst hp => exact hp
  | clear hst => exact hw (.inl hst)
  | beginStop | store | notifyAll => simp at hs
  | notifyOne hn =>
    rw [show w.wake.stage = w.stage from wake_stage w] at hs
    exact (Step.notifyOne (p := p) hn).done (hw hs) |>.1
  | enqueue x hm hroom => exact hw hs
  | leave => rfl
  | test hp | lock hp | check hp | block hp | pop hp | finish ok hp | spurious hp =>
    have hdone := hw hs
    rw [hp] at hdone
    cases hdone

/-! ## Renaming the elements -/

end Worker

/-- The place with the image of the element in hand. -/
def Place.map {α β : Type} (f : α → β) : Place α → Place β
  | .test => .test
  | .lock => .lock
  | .check => .check
  | .block => .block
  | .waiting => .waiting
  | .ready => .ready
  | .process x => .process (f x)
  | .done => .done

theorem Place.holdsMutex_map {α β : Type} (f : α → β) (place : Place α) :
    (place.map f).holdsMutex = place.holdsMutex := by cases place <;> rfl

namespace Worker

variable {α β : Type}

/-- The worker on the elements' images. -/
def map (f : α → β) (w : Worker α) : Worker β where
  running := w.running
  queue := w.queue.map f
  place := w.place.map f
  stage := w.stage
  owed := w.owed
  dropped := w.dropped
  consumed := w.consumed
  ledger := w.ledger.map f
  returned := w.returned.map f

/-- The step on the elements' images. -/
def Act.map (f : α → β) : Act α → Act β
  | .work => .work
  | .finish ok => .finish ok
  | .spurious => .spurious
  | .enqueue x => .enqueue (f x)
  | .notifyOne => .notifyOne
  | .beginStop => .beginStop
  | .store => .store
  | .notifyAll => .notifyAll
  | .join => .join
  | .clear => .clear

theorem map_wake (f : α → β) (w : Worker α) : (w.map f).wake = w.wake.map f := by
  obtain ⟨running, queue, place, stage, owed, dropped, consumed, ledger, returned⟩ := w
  cases place <;> rfl

theorem map_work (f : α → β) (w : Worker α) : (w.map f).work = w.work.map (map f) := by
  obtain ⟨running, queue, place, stage, owed, dropped, consumed, ledger, returned⟩ := w
  cases place with
  | test => cases running <;> rfl
  | check => cases running <;> cases queue <;> rfl
  | ready =>
    cases running with
    | false => rfl
    | true =>
      cases queue with
      | nil => rfl
      | cons x rest =>
        unfold work map Ledger.map Ledger.leave
        simp [Place.map]
  | lock | block | waiting | process | done => rfl

theorem map_finish (f : α → β) (w : Worker α) (ok : Bool) :
    (w.map f).finish ok = (w.finish ok).map (map f) := by
  obtain ⟨running, queue, place, stage, owed, dropped, consumed, ledger, returned⟩ := w
  cases place with
  | process x => cases ok <;> simp [finish, map, Place.map]
  | test | lock | check | block | waiting | ready | done => rfl

/-- A drop-oldest worker does not look at its elements. -/
theorem map_step (f : α → β) (cap : ℕ) (w : Worker α) (a : Act α) :
    (w.map f).step (.dropOldest cap) (a.map f) = (w.step (.dropOldest cap) a).map (map f) := by
  cases a with
  | work => exact map_work f w
  | finish ok => exact map_finish f w ok
  | spurious =>
    obtain ⟨running, queue, place, stage, owed, dropped, consumed, ledger, returned⟩ := w
    cases place <;> rfl
  | enqueue x =>
    have hroom : (Policy.dropOldest cap).room (w.map f).queue =
        some ((DropOldest.kept cap w.queue).map f, (DropOldest.evicted cap w.queue).map f) := by
      rw [DropOldest.map_kept, DropOldest.map_evicted]
      rfl
    unfold step Act.map
    dsimp only
    rw [hroom, show (w.map f).place = w.place.map f from rfl, Place.holdsMutex_map]
    split_ifs
    · rfl
    · simp [Policy.dropOldest, map, Ledger.map, Ledger.drop, Ledger.enter]
  | notifyOne =>
    unfold step Act.map
    dsimp only
    rw [map_wake, show (w.map f).owed = w.owed from rfl]
    split_ifs <;> rfl
  | beginStop | store =>
    unfold step Act.map
    dsimp only
    rw [show (w.map f).stage = w.stage from rfl]
    split_ifs <;> rfl
  | notifyAll =>
    unfold step Act.map
    dsimp only
    rw [map_wake, show (w.map f).stage = w.stage from rfl]
    split_ifs <;> rfl
  | join =>
    obtain ⟨running, queue, place, stage, owed, dropped, consumed, ledger, returned⟩ := w
    cases stage <;> cases place <;> rfl
  | clear =>
    unfold step Act.map
    dsimp only
    rw [show (w.map f).place = w.place.map f from rfl, Place.holdsMutex_map,
      show (w.map f).stage = w.stage from rfl]
    split_ifs
    · simp [map, Ledger.map, Ledger.clear]
    · rfl

/-! ## A worker by itself -/

/-- All runs of a worker with a drop-oldest queue. -/
def machine (cap : ℕ) : Machine (Worker α) (Act α) where
  init w := w = new
  step := step (.dropOldest cap)

theorem entered_of_run {cap : ℕ} {w w' : Worker α} {acts : List (Act α)}
    (h : (machine cap).run w acts = some w') :
    w'.ledger.entered = w.ledger.entered ++ acts.flatMap Act.adds := by
  induction acts generalizing w with
  | nil =>
    rw [Machine.run_nil, Option.some.injEq] at h
    rw [h, List.flatMap_nil, List.append_nil]
  | cons a acts ih =>
    rw [Machine.run_cons, Option.bind_eq_some_iff] at h
    obtain ⟨u, hu, h⟩ := h
    rw [ih h, (Step.of_step hu).entered_eq, List.flatMap_cons, List.append_assoc]

end Worker
