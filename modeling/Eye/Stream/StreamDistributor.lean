import Mathlib.Data.List.Basic
import Eye.Lib.Machine
import Eye.Lib.Worker

/-!
# The stream distributor

`StreamDistributor` and its consumer slots: the calls of its methods by any number of threads, the
one thread that pushes frames, and one worker thread for each slot. A step is what happens between
two moments at which another thread can come in.

A slot is a `Worker` of the library; what a call does to the slots is a step of theirs, and the
distributor keeps which slots are linked, what the push in progress has still to do, and how far the
destructor has come. Frames are opaque pointers `φ`; each is paired with the number of its push, so
that two pushes of one pointer stay apart.
-/

namespace Eye

/-- `ConsumerConfig`, without the priority of the worker thread. -/
structure ConsumerConfig where
  maxQueueSize : ℕ
  deriving DecidableEq

/-- A pointer to a `ConsumerSlot`. -/
abbrev SlotId := ℕ

/-- `ConsumerSlot`. `linked` holds from the moment the slot is in `slots_` and its worker runs,
`removed` once `remove_consumer` has unlinked it; `offered` lists the frames whose snapshot
contained it. -/
structure ConsumerSlot (φ : Type) where
  consumerId : UInt32
  maxQueueSize : ℕ
  config : ConsumerConfig
  worker : Worker (φ × ℕ)
  linked : Bool
  removed : Bool
  offered : List (φ × ℕ)

/-- Where the thread that pushes is in `push`: outside, before the slots `rest` of its snapshot, or
before the `notify_one` of a slot. -/
inductive Push (φ : Type)
  | idle
  | walking (x : φ × ℕ) (rest : List SlotId)
  | notifying (x : φ × ℕ) (k : SlotId) (rest : List SlotId)

/-- `StreamDistributor`: every slot ever allocated, by its pointer, the list `slots_`, the slots
that the destructor has still to stop, and the push in progress. -/
structure StreamDistributor (φ : Type) where
  heap : List (ConsumerSlot φ)
  slots : List SlotId
  nextConsumerId : UInt32
  destroying : Option (List SlotId)
  push : Push φ
  pushes : ℕ

namespace ConsumerSlot

variable {φ : Type}

/-- The slot that `add_consumer` allocates. -/
def new (consumerId : UInt32) (config : ConsumerConfig) : ConsumerSlot φ where
  consumerId := consumerId
  maxQueueSize := if config.maxQueueSize = 0 then 1 else config.maxQueueSize
  config := config
  worker := .new
  linked := false
  removed := false
  offered := []

/-- A step of the slot's queue and worker. -/
def act (slot : ConsumerSlot φ) (a : Worker.Act (φ × ℕ)) : Option (ConsumerSlot φ) :=
  (slot.worker.step (.dropOldest slot.maxQueueSize) a).map
    fun worker => { slot with worker := worker }

/-- The steps that a slot takes by itself: those of its worker once that runs, and those of the
thread that stops it. Only `remove_consumer` clears the queue. -/
def allows (slot : ConsumerSlot φ) : Worker.Act (φ × ℕ) → Bool
  | .work | .finish _ | .spurious => slot.linked
  | .store | .notifyAll | .join => true
  | .clear => slot.removed
  | .enqueue _ | .notifyOne | .beginStop => false

end ConsumerSlot

namespace StreamDistributor

variable {φ : Type}

/-- `StreamDistributor::StreamDistributor` -/
def new : StreamDistributor φ := ⟨[], [], 0, none, .idle, 0⟩

def onSlot (d : StreamDistributor φ) (k : SlotId)
    (f : ConsumerSlot φ → Option (ConsumerSlot φ)) : Option (StreamDistributor φ) :=
  (d.heap[k]?).bind fun slot => (f slot).map fun slot' => { d with heap := d.heap.set k slot' }

/-- `add_consumer` up to its lock. -/
def addConsumer (d : StreamDistributor φ) (config : ConsumerConfig) : StreamDistributor φ :=
  { d with
    heap := d.heap ++ [.new d.nextConsumerId config]
    nextConsumerId := d.nextConsumerId + 1 }

/-- The rest of `add_consumer`, under the lock. -/
def link (d : StreamDistributor φ) (k : SlotId) : Option (StreamDistributor φ) :=
  (d.onSlot k fun slot => if slot.linked then none else some { slot with linked := true }).map
    fun d => { d with slots := d.slots ++ [k] }

/-- The first slot of `slots_` with that consumer id. -/
def findConsumer (d : StreamDistributor φ) (id : UInt32) : Option SlotId :=
  d.slots.find? fun k => (d.heap[k]?).any fun slot => slot.consumerId == id

/-- `remove_consumer` under its first lock; the rest of it is steps of the slot. -/
def removeConsumer (d : StreamDistributor φ) (id : UInt32) : Option (StreamDistributor φ) :=
  match d.findConsumer id with
  | none => some d
  | some k =>
    (d.onSlot k fun slot => (slot.act .beginStop).map fun slot => { slot with removed := true }).map
      fun d => { d with slots := d.slots.erase k }

/-- `push` under its first lock: the snapshot is taken. -/
def beginPush (d : StreamDistributor φ) (frame : φ) : StreamDistributor φ :=
  { d with
    heap := d.heap.mapIdx fun k slot =>
      if k ∈ d.slots then { slot with offered := slot.offered ++ [(frame, d.pushes)] } else slot
    push := .walking (frame, d.pushes) d.slots
    pushes := d.pushes + 1 }

/-- The push goes on: it appends to the queue of the next slot, or notifies the slot, or ends. -/
def continuePush (d : StreamDistributor φ) : Option (StreamDistributor φ) :=
  match d.push with
  | .idle => none
  | .walking _ [] => some { d with push := .idle }
  | .walking x (k :: rest) =>
    (d.onSlot k fun slot => slot.act (.enqueue x)).map
      fun d => { d with push := .notifying x k rest }
  | .notifying x k rest =>
    (d.onSlot k fun slot => slot.act .notifyOne).map fun d => { d with push := .walking x rest }

/-- `~StreamDistributor` goes on with its loop: the next slot is to be stopped, or has been. -/
def continueDestroy (d : StreamDistributor φ) : Option (StreamDistributor φ) :=
  match d.destroying with
  | none | some [] => none
  | some (k :: rest) =>
    (d.heap[k]?).bind fun slot =>
      if slot.worker.stage = .idle then d.onSlot k fun slot => slot.act .beginStop
      else if slot.worker.stage = .joined then some { d with destroying := some rest }
      else none

/-- The calls of the methods, the further steps of `push` and of the destructor, and the steps of a
slot's worker and of the thread that stops it. -/
inductive Action (φ : Type)
  | addConsumer (config : ConsumerConfig)
  | link (k : SlotId)
  | removeConsumer (id : UInt32)
  | push (frame : φ)
  | continuePush
  | destroy
  | continueDestroy
  | slot (k : SlotId) (a : Worker.Act (φ × ℕ))

/-- No method is called once the destructor has begun; calls in progress go on. -/
def step (d : StreamDistributor φ) : Action φ → Option (StreamDistributor φ)
  | .addConsumer config => if d.destroying.isSome then none else some (d.addConsumer config)
  | .link k => if d.destroying.isSome then none else d.link k
  | .removeConsumer id => if d.destroying.isSome then none else d.removeConsumer id
  | .push frame =>
    match d.destroying, d.push with
    | none, .idle => some (d.beginPush frame)
    | _, _ => none
  | .continuePush => d.continuePush
  | .destroy =>
    if d.destroying.isSome then none else some { d with destroying := some d.slots, slots := [] }
  | .continueDestroy => d.continueDestroy
  | .slot k a => d.onSlot k fun slot => if slot.allows a then slot.act a else none

/-- The slot that an action is about, and what it is a step of there. -/
def target (d : StreamDistributor φ) : Action φ → Option (SlotId × Worker.Act (φ × ℕ))
  | .removeConsumer id => (d.findConsumer id).map fun k => (k, .beginStop)
  | .continuePush =>
    match d.push with
    | .walking x (k :: _) => some (k, .enqueue x)
    | .notifying _ k _ => some (k, .notifyOne)
    | .idle | .walking _ [] => none
  | .continueDestroy =>
    match d.destroying with
    | some (k :: _) => some (k, .beginStop)
    | none | some [] => none
  | .slot k a => some (k, a)
  | .addConsumer _ | .link _ | .push _ | .destroy => none

/-- All runs of a distributor, from its constructor on. -/
def machine : Machine (StreamDistributor φ) (Action φ) where
  init d := d = new
  step := step

/-! ## What a step can do -/

/-- The outcomes of `step`. -/
inductive Step (d : StreamDistributor φ) : Action φ → StreamDistributor φ → Prop
  | addConsumer (config : ConsumerConfig) : Step d (.addConsumer config) (d.addConsumer config)
  | link {k slot} : d.heap[k]? = some slot → slot.linked = false →
      Step d (.link k)
        { d with heap := d.heap.set k { slot with linked := true }, slots := d.slots ++ [k] }
  | removeNone {id} : d.findConsumer id = none → Step d (.removeConsumer id) d
  | remove {id k slot worker} : d.findConsumer id = some k → d.heap[k]? = some slot →
      slot.worker.Step (.dropOldest slot.maxQueueSize) .beginStop worker →
      Step d (.removeConsumer id)
        { d with
          heap := d.heap.set k { slot with worker := worker, removed := true }
          slots := d.slots.erase k }
  | push (frame : φ) : d.push = .idle → Step d (.push frame) (d.beginPush frame)
  | pushEnd {x} : d.push = .walking x [] → Step d .continuePush { d with push := .idle }
  | enqueue {x k rest slot worker} : d.push = .walking x (k :: rest) → d.heap[k]? = some slot →
      slot.worker.Step (.dropOldest slot.maxQueueSize) (.enqueue x) worker →
      Step d .continuePush
        { d with heap := d.heap.set k { slot with worker := worker }, push := .notifying x k rest }
  | notifyOne {x k rest slot worker} : d.push = .notifying x k rest → d.heap[k]? = some slot →
      slot.worker.Step (.dropOldest slot.maxQueueSize) .notifyOne worker →
      Step d .continuePush
        { d with heap := d.heap.set k { slot with worker := worker }, push := .walking x rest }
  | destroy : d.destroying = none →
      Step d .destroy { d with destroying := some d.slots, slots := [] }
  | destroyNext {k rest slot worker} : d.destroying = some (k :: rest) → d.heap[k]? = some slot →
      slot.worker.Step (.dropOldest slot.maxQueueSize) .beginStop worker →
      Step d .continueDestroy { d with heap := d.heap.set k { slot with worker := worker } }
  | destroyed {k rest slot} : d.destroying = some (k :: rest) → d.heap[k]? = some slot →
      slot.worker.stage = .joined → Step d .continueDestroy { d with destroying := some rest }
  | slot {k a slot worker} : d.heap[k]? = some slot → slot.allows a = true →
      slot.worker.Step (.dropOldest slot.maxQueueSize) a worker →
      Step d (.slot k a) { d with heap := d.heap.set k { slot with worker := worker } }

variable {d d' : StreamDistributor φ} {a : Action φ} {k : SlotId}
  {slot slot' : ConsumerSlot φ}

theorem onSlot_eq_some {f : ConsumerSlot φ → Option (ConsumerSlot φ)}
    (h : d.onSlot k f = some d') :
    ∃ slot slot', d.heap[k]? = some slot ∧ f slot = some slot' ∧
      d' = { d with heap := d.heap.set k slot' } := by
  obtain ⟨slot, hk, h⟩ := Option.bind_eq_some_iff.mp h
  obtain ⟨slot', hf, rfl⟩ := Option.map_eq_some_iff.mp h
  exact ⟨slot, slot', hk, hf, rfl⟩

theorem act_eq_some {b : Worker.Act (φ × ℕ)} (h : slot.act b = some slot') :
    ∃ worker, slot.worker.Step (.dropOldest slot.maxQueueSize) b worker ∧
      slot' = { slot with worker := worker } := by
  obtain ⟨worker, hw, rfl⟩ := Option.map_eq_some_iff.mp h
  exact ⟨worker, .of_step hw, rfl⟩

theorem Step.of_removeConsumer {id : UInt32} (h : d.removeConsumer id = some d') :
    Step d (.removeConsumer id) d' := by
  unfold StreamDistributor.removeConsumer at h
  cases hf : d.findConsumer id with
  | none =>
    rw [hf] at h
    cases h
    exact .removeNone hf
  | some k =>
    rw [hf] at h
    obtain ⟨d₁, h₁, rfl⟩ := Option.map_eq_some_iff.mp h
    obtain ⟨slot, slot', hk, hs, rfl⟩ := onSlot_eq_some h₁
    obtain ⟨slot₁, ha, rfl⟩ := Option.map_eq_some_iff.mp hs
    obtain ⟨worker, hw, rfl⟩ := act_eq_some ha
    have hstep := Step.remove hf hk hw
    exact hstep

theorem Step.of_continuePush (h : d.continuePush = some d') : Step d .continuePush d' := by
  unfold StreamDistributor.continuePush at h
  cases hp : d.push with
  | idle =>
    rw [hp] at h
    cases h
  | walking x rest =>
    cases rest with
    | nil =>
      rw [hp] at h
      cases h
      exact .pushEnd hp
    | cons k rest =>
      rw [hp] at h
      obtain ⟨d₁, h₁, rfl⟩ := Option.map_eq_some_iff.mp h
      obtain ⟨slot, slot', hk, hs, rfl⟩ := onSlot_eq_some h₁
      obtain ⟨worker, hw, rfl⟩ := act_eq_some hs
      exact .enqueue hp hk hw
  | notifying x k rest =>
    rw [hp] at h
    obtain ⟨d₁, h₁, rfl⟩ := Option.map_eq_some_iff.mp h
    obtain ⟨slot, slot', hk, hs, rfl⟩ := onSlot_eq_some h₁
    obtain ⟨worker, hw, rfl⟩ := act_eq_some hs
    exact .notifyOne hp hk hw

theorem Step.of_continueDestroy (h : d.continueDestroy = some d') :
    Step d .continueDestroy d' := by
  unfold StreamDistributor.continueDestroy at h
  cases hd : d.destroying with
  | none =>
    rw [hd] at h
    cases h
  | some ks =>
    cases ks with
    | nil =>
      rw [hd] at h
      cases h
    | cons k rest =>
      simp only [hd] at h
      obtain ⟨slot, hk, h⟩ := Option.bind_eq_some_iff.mp h
      split_ifs at h with hidle hjoined
      · obtain ⟨slot₁, slot', hk₁, hs, rfl⟩ := onSlot_eq_some h
        obtain ⟨worker, hw, rfl⟩ := act_eq_some hs
        exact .destroyNext hd hk₁ hw
      · cases h
        exact .destroyed hd hk hjoined

theorem Step.of_step (h : d.step a = some d') : Step d a d' := by
  cases a with
  | addConsumer config =>
    rw [StreamDistributor.step] at h
    split_ifs at h
    cases h
    exact .addConsumer config
  | link k =>
    rw [StreamDistributor.step] at h
    split_ifs at h
    obtain ⟨d₁, h₁, rfl⟩ := Option.map_eq_some_iff.mp h
    obtain ⟨slot, slot', hk, hs, rfl⟩ := onSlot_eq_some h₁
    split_ifs at hs with hl
    cases hs
    exact .link hk (by simpa using hl)
  | removeConsumer id =>
    rw [StreamDistributor.step] at h
    split_ifs at h
    exact .of_removeConsumer h
  | push frame =>
    rw [StreamDistributor.step] at h
    split at h
    · rename_i hp
      cases h
      exact .push frame hp
    · cases h
  | continuePush => exact .of_continuePush h
  | destroy =>
    rw [StreamDistributor.step] at h
    split_ifs at h with hd
    cases h
    exact .destroy (by simpa using hd)
  | continueDestroy => exact .of_continueDestroy h
  | slot k b =>
    obtain ⟨slot, slot', hk, hs, rfl⟩ := onSlot_eq_some h
    split_ifs at hs with hb
    obtain ⟨worker, hw, rfl⟩ := act_eq_some hs
    exact .slot hk hb hw

end StreamDistributor

end Eye
