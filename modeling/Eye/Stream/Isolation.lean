import Mathlib.Algebra.Group.Nat.Defs
import Eye.Stream.DeliveryAccounts

/-!
# Consumers do not disturb each other

A run of the distributor, seen from one consumer, is a run of a worker with a drop-oldest queue of
its own: `seen` says which step of it an action is, `lane` gathers these steps over a run, and
`isolated` says that the worker takes them and ends where the slot does. What the other consumers
do is no step of it, so two runs with the same lane cannot be told apart from the slot.

The number that a push carries counts the pushes to all consumers; the lane carries the frames only.
-/

namespace Eye

namespace StreamDistributor

variable {φ : Type} {d d' : StreamDistributor φ} {a : Action φ} {k j : SlotId}
  {slot slot' : ConsumerSlot φ}

/-- The queue, the counts and the worker of a slot, with the frames without their numbers; a worker
that has not begun, where the slot does not exist yet. -/
def view (d : StreamDistributor φ) (k : SlotId) : Worker φ :=
  match d.heap[k]? with
  | none => .new
  | some slot => slot.worker.map Prod.fst

/-- The slot is in `slots_` with that consumer id. -/
def isLinkedAs (d : StreamDistributor φ) (k : SlotId) (id : UInt32) : Prop :=
  k ∈ d.slots ∧ ∃ slot ∈ d.heap[k]?, slot.consumerId = id

instance (d : StreamDistributor φ) (k : SlotId) (id : UInt32) : Decidable (d.isLinkedAs k id) :=
  inferInstanceAs (Decidable (_ ∧ _))

/-- The step that an action is for the slot: the push of a frame whose snapshot contains it, its own
removal (or the destructor's turn at it), or a step of its own worker. -/
def seen (d : StreamDistributor φ) (k : SlotId) : Action φ → List (Worker.Act φ)
  | .removeConsumer id => if d.isLinkedAs k id then [.beginStop] else []
  | .continuePush =>
    match d.push with
    | .walking x (j :: _) => if j = k then [.enqueue x.1] else []
    | .notifying _ j _ => if j = k then [.notifyOne] else []
    | .idle | .walking _ [] => []
  | .continueDestroy =>
    match d.destroying with
    | some (j :: _) => if j = k ∧ (d.view k).stage = .idle then [.beginStop] else []
    | none | some [] => []
  | .slot j b => if j = k then [b.map Prod.fst] else []
  | .addConsumer _ | .link _ | .push _ | .destroy => []

/-- The frame of a push whose snapshot contains the slot. -/
def snapshot (d : StreamDistributor φ) (k : SlotId) : Action φ → List φ
  | .push frame => if k ∈ d.slots then [frame] else []
  | .addConsumer _ | .link _ | .removeConsumer _ | .continuePush | .destroy | .continueDestroy
  | .slot _ _ => []

/-- The steps of the slot's worker over a run from the constructor on. -/
def lane (k : SlotId) (as : List (Action φ)) : List (Worker.Act φ) :=
  machine.collect (fun d a => d.seen k a) new as

/-- The frames of the pushes that have seen the slot. -/
def snapshots (k : SlotId) (as : List (Action φ)) : List φ :=
  machine.collect (fun d a => d.snapshot k a) new as

/-! ## What stays the same -/

/-- What no step of a slot changes. -/
def fixed (slot : ConsumerSlot φ) : UInt32 × List (φ × ℕ) := (slot.consumerId, slot.offered)

theorem map_set_of_eq {β : Type} (g : ConsumerSlot φ → β) (hj : d.heap[j]? = some slot)
    (hg : g slot' = g slot) : (d.heap.set j slot').map g = d.heap.map g := by
  apply List.ext_getElem?
  intro i
  rw [List.getElem?_map, List.getElem?_map, getElem?_set_some hj]
  split_ifs with h
  · rw [h, hj, Option.map_some, Option.map_some, hg]
  · rfl

/-- A step allocates a slot, takes a snapshot, or leaves what is fixed of every slot. -/
theorem Step.fixed_cases (h : Step d a d') :
    (∃ config, a = .addConsumer config ∧ d' = d.addConsumer config) ∨
      (∃ frame, a = .push frame ∧ d' = d.beginPush frame) ∨
      (d'.heap.map fixed = d.heap.map fixed ∧ d'.nextConsumerId = d.nextConsumerId ∧
        ∀ k, d.snapshot k a = []) := by
  cases h with
  | addConsumer config => exact .inl ⟨config, rfl, rfl⟩
  | push frame hp => exact .inr (.inl ⟨frame, rfl, rfl⟩)
  | link hk | remove _ hk | enqueue _ hk | notifyOne _ hk | destroyNext _ hk | slot hk =>
    exact .inr (.inr ⟨map_set_of_eq fixed hk rfl, rfl, fun _ => rfl⟩)
  | removeNone | pushEnd | destroy | destroyed => exact .inr (.inr ⟨rfl, rfl, fun _ => rfl⟩)

/-- Slots carry the numbers `0, 1, …` in the order they are allocated. -/
structure Numbered (d : StreamDistributor φ) : Prop where
  next : d.nextConsumerId = UInt32.ofNat d.heap.length
  id : ∀ (k : SlotId) (slot : ConsumerSlot φ), d.heap[k]? = some slot →
    slot.consumerId = UInt32.ofNat k

theorem Numbered.step (hn : d.Numbered) (h : Step d a d') : d'.Numbered := by
  rcases h.fixed_cases with ⟨config, -, rfl⟩ | ⟨frame, -, rfl⟩ | ⟨hfixed, hnext, -⟩
  · constructor
    · show d.nextConsumerId + 1 = UInt32.ofNat (d.heap ++ [_]).length
      rw [hn.next, List.length_append, List.length_singleton, UInt32.ofNat_add]
      rfl
    · intro k slot hk
      rw [getElem?_addConsumer] at hk
      split_ifs at hk with h
      · cases hk
        rw [h, ← hn.next]
        rfl
      · exact hn.id k slot hk
  · constructor
    · show d.nextConsumerId = UInt32.ofNat (d.heap.mapIdx _).length
      rw [List.length_mapIdx]
      exact hn.next
    · intro k slot hk
      have hk : (d.heap.mapIdx _)[k]? = some slot := hk
      rw [List.getElem?_mapIdx] at hk
      obtain ⟨s, hs, rfl⟩ := Option.map_eq_some_iff.mp hk
      split_ifs <;> exact hn.id k s hs
  · have hlen := congrArg List.length hfixed
    rw [List.length_map, List.length_map] at hlen
    refine ⟨by rw [hnext, hlen, hn.next], ?_⟩
    intro k slot hk
    have hget := congrArg (fun l : List (UInt32 × List (φ × ℕ)) => l[k]?) hfixed
    rw [List.getElem?_map, List.getElem?_map, hk, Option.map_some] at hget
    obtain ⟨s, hs, he⟩ := Option.map_eq_some_iff.mp hget.symm
    rw [← show s.consumerId = slot.consumerId from congrArg Prod.fst he]
    exact hn.id k s hs

/-- With at most 2^32 slots no two carry the same number. -/
theorem slotId_eq {i j : ℕ} (hi : i < 2 ^ 32) (hj : j < 2 ^ 32)
    (h : UInt32.ofNat i = UInt32.ofNat j) : i = j := by
  have := congrArg UInt32.toNat h
  rw [UInt32.toNat_ofNat', UInt32.toNat_ofNat', Nat.mod_eq_of_lt hi, Nat.mod_eq_of_lt hj] at this
  exact this

theorem Numbered.findConsumer_eq (hn : d.Numbered) (hlen : d.heap.length ≤ 2 ^ 32) {id : UInt32} :
    d.findConsumer id = some k ↔ d.isLinkedAs k id := by
  have hiff : ∀ i : SlotId, ((d.heap[i]?).any fun slot => slot.consumerId == id) = true ↔
      ∃ slot ∈ d.heap[i]?, slot.consumerId = id := by
    intro i
    simp [Option.any_eq_true]
  have hfound : ∀ i : SlotId, d.findConsumer id = some i → d.isLinkedAs i id := fun i h =>
    ⟨List.mem_of_find?_eq_some h, (hiff i).mp (List.find?_some
      (p := fun i : SlotId => (d.heap[i]?).any fun s : ConsumerSlot φ => s.consumerId == id) h)⟩
  refine ⟨hfound k, ?_⟩
  intro hk
  cases hf : d.findConsumer id with
  | none =>
    have := List.find?_eq_none.mp hf k hk.1
    exact absurd ((hiff k).mpr hk.2) this
  | some i =>
    -- both slots have the id, so both have its number
    obtain ⟨-, s, hs, hsid⟩ := hfound i hf
    obtain ⟨-, slot, hslot, hid⟩ := hk
    have hi : i < d.heap.length := (List.getElem?_eq_some_iff.mp hs).1
    have hk : k < d.heap.length := (List.getElem?_eq_some_iff.mp hslot).1
    have heq : UInt32.ofNat i = UInt32.ofNat k := by
      rw [← hn.id i s hs, ← hn.id k slot hslot, hsid, hid]
    rw [slotId_eq (Nat.lt_of_lt_of_le hi hlen) (Nat.lt_of_lt_of_le hk hlen) heq]

/-! ## One step of the worker -/

theorem view_of_some (hk : d.heap[k]? = some slot) : d.view k = slot.worker.map Prod.fst := by
  unfold view
  rw [hk]

theorem view_set (hj : d.heap[j]? = some slot) :
    view { d with heap := d.heap.set j slot' } k =
      if k = j then slot'.worker.map Prod.fst else d.view k := by
  unfold view
  dsimp only
  rw [getElem?_set_some hj]
  split_ifs <;> rfl

theorem view_set_self (hj : d.heap[j]? = some slot) (hw : slot'.worker = slot.worker) :
    view { d with heap := d.heap.set j slot' } k = d.view k := by
  rw [view_set hj]
  split_ifs with h
  · rw [h, view_of_some hj, hw]
  · rfl

theorem view_addConsumer (config : ConsumerConfig) : (d.addConsumer config).view k = d.view k := by
  unfold view
  rw [getElem?_addConsumer]
  split_ifs with h
  · rw [List.getElem?_eq_none (by omega)]
    rfl
  · rfl

theorem view_beginPush (frame : φ) : (d.beginPush frame).view k = d.view k := by
  unfold view beginPush
  dsimp only
  rw [List.getElem?_mapIdx]
  cases d.heap[k]? with
  | none => rfl
  | some slot =>
    rw [Option.map_some]
    split_ifs <;> rfl

/-- The step of a slot is the step of a worker of its own on the frames. -/
theorem run_act {b : Worker.Act (φ × ℕ)} (h : slot.act b = some slot') :
    (Worker.machine slot.maxQueueSize).run (slot.worker.map Prod.fst) [b.map Prod.fst] =
      some (slot'.worker.map Prod.fst) := by
  obtain ⟨worker, hw, rfl⟩ := Option.map_eq_some_iff.mp h
  rw [Machine.run_singleton]
  show (slot.worker.map Prod.fst).step _ _ = _
  rw [Worker.map_step, hw, Option.map_some]

theorem run_onSlot {cap : ℕ} (hcap : ∀ slot, d.heap[k]? = some slot → slot.maxQueueSize = cap)
    {b : Worker.Act (φ × ℕ)} {worker : Worker (φ × ℕ)} (hj : d.heap[j]? = some slot)
    (hact : slot.act b = some { slot with worker := worker })
    (hw : slot'.worker = worker) :
    (Worker.machine cap).run (d.view k) (if j = k then [b.map Prod.fst] else []) =
      some (view { d with heap := d.heap.set j slot' } k) := by
  rw [view_set hj]
  by_cases h : j = k
  · subst h
    rw [if_pos rfl, if_pos rfl, view_of_some hj, ← hcap slot hj, run_act hact, hw]
  · rw [if_neg h, if_neg (Ne.symm h), Machine.run_nil]

theorem run_nil_view {cap : ℕ} {u : Worker φ} (h : d.view k = u) :
    (Worker.machine cap).run (d.view k) [] = some u := by
  rw [h, Machine.run_nil]

theorem run_seen_removeConsumer (hn : d.Numbered) (hlen : d.heap.length ≤ 2 ^ 32)
    {id : UInt32} {cap : ℕ} (hcap : ∀ slot, d.heap[k]? = some slot → slot.maxQueueSize = cap)
    (h : d.step (.removeConsumer id) = some d') :
    (Worker.machine cap).run (d.view k) (d.seen k (.removeConsumer id)) = some (d'.view k) := by
  rw [StreamDistributor.step] at h
  split_ifs at h
  unfold removeConsumer at h
  cases hf : d.findConsumer id with
  | none =>
    rw [hf] at h
    cases h
    have hno : ¬ d.isLinkedAs k id := by
      intro hl
      rw [(hn.findConsumer_eq hlen).mpr hl] at hf
      cases hf
    unfold seen
    dsimp only
    rw [if_neg hno]
    exact run_nil_view rfl
  | some j =>
    rw [hf] at h
    obtain ⟨d₁, h₁, rfl⟩ := Option.map_eq_some_iff.mp h
    obtain ⟨slot, slot', hj, hs, rfl⟩ := onSlot_eq_some h₁
    obtain ⟨slot₁, hact, rfl⟩ := Option.map_eq_some_iff.mp hs
    obtain ⟨worker, -, rfl⟩ := act_eq_some hact
    have hiff : d.isLinkedAs k id ↔ j = k := by
      rw [← hn.findConsumer_eq hlen, hf, Option.some.injEq]
    have hseen : d.seen k (.removeConsumer id) =
        if j = k then [(Worker.Act.beginStop : Worker.Act (φ × ℕ)).map Prod.fst] else [] := by
      unfold seen
      simp only [hiff]
      rfl
    rw [hseen]
    exact run_onSlot hcap hj hact rfl

theorem run_seen_continuePush {cap : ℕ}
    (hcap : ∀ slot, d.heap[k]? = some slot → slot.maxQueueSize = cap)
    (h : d.step .continuePush = some d') :
    (Worker.machine cap).run (d.view k) (d.seen k .continuePush) = some (d'.view k) := by
  have h : d.continuePush = some d' := h
  unfold continuePush at h
  unfold seen
  cases hp : d.push with
  | idle =>
    rw [hp] at h
    cases h
  | walking x rest =>
    cases rest with
    | nil =>
      rw [hp] at h
      cases h
      exact run_nil_view rfl
    | cons j rest =>
      rw [hp] at h
      obtain ⟨d₁, h₁, rfl⟩ := Option.map_eq_some_iff.mp h
      obtain ⟨slot, slot', hj, hact, rfl⟩ := onSlot_eq_some h₁
      obtain ⟨worker, -, rfl⟩ := act_eq_some hact
      exact run_onSlot hcap hj hact rfl
  | notifying x j rest =>
    rw [hp] at h
    obtain ⟨d₁, h₁, rfl⟩ := Option.map_eq_some_iff.mp h
    obtain ⟨slot, slot', hj, hact, rfl⟩ := onSlot_eq_some h₁
    obtain ⟨worker, -, rfl⟩ := act_eq_some hact
    exact run_onSlot hcap hj hact rfl

theorem run_seen_continueDestroy {cap : ℕ}
    (hcap : ∀ slot, d.heap[k]? = some slot → slot.maxQueueSize = cap)
    (h : d.step .continueDestroy = some d') :
    (Worker.machine cap).run (d.view k) (d.seen k .continueDestroy) = some (d'.view k) := by
  have h : d.continueDestroy = some d' := h
  unfold continueDestroy at h
  unfold seen
  cases hd : d.destroying with
  | none =>
    rw [hd] at h
    cases h
  | some js =>
    cases js with
    | nil =>
      rw [hd] at h
      cases h
    | cons j rest =>
      simp only [hd] at h
      obtain ⟨slot, hj, h⟩ := Option.bind_eq_some_iff.mp h
      have hstage : j = k → (d.view k).stage = slot.worker.stage := by
        intro he
        rw [← he, view_of_some hj]
        rfl
      split_ifs at h with hidle hjoined
      · obtain ⟨slot₁, slot', hj₁, hact, rfl⟩ := onSlot_eq_some h
        rw [hj] at hj₁
        cases hj₁
        obtain ⟨worker, -, rfl⟩ := act_eq_some hact
        have hrun := run_onSlot hcap hj hact
          (rfl : ({ slot with worker := worker } : ConsumerSlot φ).worker = worker)
        by_cases hjk : j = k
        · rw [if_pos hjk] at hrun
          dsimp only
          rw [if_pos ⟨hjk, (hstage hjk).trans hidle⟩]
          exact hrun
        · rw [if_neg hjk] at hrun
          dsimp only
          rw [if_neg fun hc => hjk hc.1]
          exact hrun
      · cases h
        dsimp only
        rw [if_neg fun hc => hidle ((hstage hc.1).symm.trans hc.2)]
        exact run_nil_view rfl

/-- **One step.** What a step of the distributor is for a slot, its worker can do by itself. -/
theorem run_seen (hn : d.Numbered) (hlen : d.heap.length ≤ 2 ^ 32) {cap : ℕ}
    (hcap : ∀ slot, d.heap[k]? = some slot → slot.maxQueueSize = cap) (h : d.step a = some d') :
    (Worker.machine cap).run (d.view k) (d.seen k a) = some (d'.view k) := by
  cases a with
  | addConsumer config =>
    rw [StreamDistributor.step] at h
    split_ifs at h
    cases h
    exact run_nil_view (view_addConsumer config).symm
  | link j =>
    rw [StreamDistributor.step] at h
    split_ifs at h
    obtain ⟨d₁, h₁, rfl⟩ := Option.map_eq_some_iff.mp h
    obtain ⟨slot, slot', hj, hs, rfl⟩ := onSlot_eq_some h₁
    split_ifs at hs
    cases hs
    have hw : ({ slot with linked := true } : ConsumerSlot φ).worker = slot.worker := rfl
    exact run_nil_view (view_set_self hj hw).symm
  | removeConsumer id => exact run_seen_removeConsumer hn hlen hcap h
  | push frame =>
    rw [StreamDistributor.step] at h
    split at h
    · cases h
      exact run_nil_view (view_beginPush frame).symm
    · cases h
  | continuePush => exact run_seen_continuePush hcap h
  | destroy =>
    rw [StreamDistributor.step] at h
    split_ifs at h
    cases h
    exact run_nil_view rfl
  | continueDestroy => exact run_seen_continueDestroy hcap h
  | slot j b =>
    obtain ⟨slot, slot', hj, hs, rfl⟩ := onSlot_eq_some h
    split_ifs at hs
    obtain ⟨worker, -, rfl⟩ := act_eq_some hs
    exact run_onSlot hcap hj hs rfl

/-! ## Whole runs -/

theorem length_le_of_step (h : Step d a d') : d.heap.length ≤ d'.heap.length := by
  rcases h.fixed_cases with ⟨config, -, rfl⟩ | ⟨frame, -, rfl⟩ | ⟨hfixed, -, -⟩
  · show d.heap.length ≤ (d.heap ++ [_]).length
    simp
  · show d.heap.length ≤ (d.heap.mapIdx _).length
    simp
  · have hlen := congrArg List.length hfixed
    simp only [List.length_map] at hlen
    omega

theorem length_le_of_run {as : List (Action φ)} (h : machine.run d as = some d') :
    d.heap.length ≤ d'.heap.length := by
  refine Machine.keep_run (J := fun u => d.heap.length ≤ u.heap.length) (Nat.le_refl _) ?_ h
  intro u a u' hle h
  exact Nat.le_trans hle (length_le_of_step (.of_step h))

theorem maxQueueSize_of_step (h : Step d a d') (hk : d.heap[k]? = some slot) :
    ∃ slot', d'.heap[k]? = some slot' ∧ slot'.maxQueueSize = slot.maxQueueSize := by
  have hlt := Nat.lt_of_lt_of_le (List.getElem?_eq_some_iff.mp hk).1 (length_le_of_step h)
  refine ⟨_, List.getElem?_eq_getElem hlt, ?_⟩
  rcases h.slot_cases (List.getElem?_eq_getElem hlt) with ⟨hnone, -⟩ | ⟨s, hs, hm⟩
  · rw [hk] at hnone
    cases hnone
  · rw [hk] at hs
    cases hs
    exact hm.maxQueueSize_eq

/-- The worker by itself takes the lane of a run and ends where the slot does. -/
theorem run_lane (hn : d.Numbered) {as : List (Action φ)} (h : machine.run d as = some d')
    (hlen : d'.heap.length ≤ 2 ^ 32) {cap : ℕ}
    (hcap : ∀ slot, d'.heap[k]? = some slot → slot.maxQueueSize = cap) :
    (Worker.machine cap).run (d.view k) (machine.collect (fun d a => d.seen k a) d as) =
      some (d'.view k) ∧ ∀ slot, d.heap[k]? = some slot → slot.maxQueueSize = cap := by
  induction as generalizing d with
  | nil =>
    rw [Machine.run_nil, Option.some.injEq] at h
    subst h
    exact ⟨rfl, hcap⟩
  | cons a as ih =>
    rw [Machine.run_cons, Option.bind_eq_some_iff] at h
    obtain ⟨d₁, h₁, h⟩ := h
    have hstep := Step.of_step h₁
    obtain ⟨hrun, hcap₁⟩ := ih (hn.step hstep) h
    have hle₀ := length_le_of_step hstep
    have hle := length_le_of_run h
    have hcap₀ : ∀ slot, d.heap[k]? = some slot → slot.maxQueueSize = cap := by
      intro slot hk
      obtain ⟨slot', hk', hsize⟩ := maxQueueSize_of_step hstep hk
      exact hsize.symm.trans (hcap₁ slot' hk')
    refine ⟨?_, hcap₀⟩
    rw [Machine.collect_cons _ h₁, Machine.run_append,
      run_seen hn (by omega) hcap₀ h₁, Option.bind_some, hrun]

/-- The frames that the slot has been offered, with the numbers of their pushes. -/
def offersTo (d : StreamDistributor φ) (k : SlotId) : List (φ × ℕ) :=
  match d.heap[k]? with
  | none => []
  | some slot => slot.offered

theorem offersTo_of_some (hk : d.heap[k]? = some slot) : d.offersTo k = slot.offered := by
  unfold offersTo
  rw [hk]

theorem offersTo_step (hi : d.Inv) (h : Step d a d') :
    d'.offersTo k = d.offersTo k ++ (d.snapshot k a).map fun frame => (frame, d.pushes) := by
  rcases h.fixed_cases with ⟨config, rfl, rfl⟩ | ⟨frame, rfl, rfl⟩ | ⟨hfixed, -, hno⟩
  · show _ = d.offersTo k ++ []
    rw [List.append_nil]
    unfold offersTo
    rw [getElem?_addConsumer]
    split_ifs with h
    · rw [List.getElem?_eq_none (by omega)]
      rfl
    · rfl
  · unfold offersTo beginPush snapshot
    dsimp only
    rw [List.getElem?_mapIdx]
    cases hk : d.heap[k]? with
    | none =>
      have hnot : k ∉ d.slots := by
        intro hm
        obtain ⟨slot, hs, -⟩ := hi.slots_linked k hm
        rw [hk] at hs
        cases hs
      rw [if_neg hnot]
      rfl
    | some slot =>
      rw [Option.map_some]
      split_ifs
      · rfl
      · exact (List.append_nil _).symm
  · rw [hno k, List.map_nil, List.append_nil]
    have hget := congrArg (fun l : List (UInt32 × List (φ × ℕ)) => l[k]?) hfixed
    rw [List.getElem?_map, List.getElem?_map] at hget
    unfold offersTo
    cases hk : d.heap[k]? with
    | none =>
      rw [hk, Option.map_none, Option.map_eq_none_iff] at hget
      rw [hget]
    | some slot =>
      rw [hk, Option.map_some] at hget
      obtain ⟨slot', hk', heq⟩ := Option.map_eq_some_iff.mp hget
      rw [hk']
      exact congrArg Prod.snd heq

theorem offersTo_run (hi : d.Inv) {as : List (Action φ)} (h : machine.run d as = some d') :
    (d'.offersTo k).map Prod.fst =
      (d.offersTo k).map Prod.fst ++ machine.collect (fun d a => d.snapshot k a) d as := by
  induction as generalizing d with
  | nil =>
    rw [Machine.run_nil, Option.some.injEq] at h
    rw [h, Machine.collect, List.append_nil]
  | cons a as ih =>
    rw [Machine.run_cons, Option.bind_eq_some_iff] at h
    obtain ⟨d₁, h₁, h⟩ := h
    have hstep := Step.of_step h₁
    have hfst : ((d.snapshot k a).map fun frame => (frame, d.pushes)).map Prod.fst =
        d.snapshot k a := by
      rw [List.map_map]
      exact List.map_id _
    rw [ih (hi.step hstep) h, offersTo_step hi hstep, Machine.collect_cons _ h₁, List.map_append,
      hfst, List.append_assoc]

theorem numbered_new : (new : StreamDistributor φ).Numbered :=
  ⟨rfl, fun _ _ h => nomatch h⟩

/-- **Consumers are isolated.** Take any run in which fewer than 2^32 consumers have been added, and
any slot. The worker of the slot, by itself, takes the lane of the run and ends where the slot does;
the frames that the lane enqueues, with the one that a push in progress still owes, are those of the
pushes whose snapshot contains the slot. Another run with the same lane, of a slot of the same size,
ends in the same view. -/
theorem isolated {as : List (Action φ)} (hrun : machine.run new as = some d)
    (hadded : d.heap.length < 2 ^ 32) (hk : d.heap[k]? = some slot) :
    (Worker.machine slot.maxQueueSize).run .new (lane k as) = some (d.view k) ∧
      (lane k as).flatMap Worker.Act.adds ++ (d.push.owes k).map Prod.fst = snapshots k as ∧
      ∀ as' d' k' slot', machine.run new as' = some d' → d'.heap.length < 2 ^ 32 →
        d'.heap[k']? = some slot' → slot'.maxQueueSize = slot.maxQueueSize →
        lane k' as' = lane k as → d'.view k' = d.view k := by
  have hlane : ∀ {as : List (Action φ)} {d : StreamDistributor φ} {k : SlotId}
      {slot : ConsumerSlot φ}, machine.run new as = some d → d.heap.length < 2 ^ 32 →
      d.heap[k]? = some slot →
      (Worker.machine slot.maxQueueSize).run .new (lane k as) = some (d.view k) := by
    intro as d k slot hrun hadded hk
    refine (run_lane numbered_new hrun (Nat.le_of_lt hadded) fun s hs => ?_).1
    rw [hk] at hs
    rw [Option.some.inj hs]
  have hi : d.Inv := inv_of_reachable (Machine.Reachable.run (.init rfl) hrun)
  refine ⟨hlane hrun hadded hk, ?_, ?_⟩
  · have hoffered := offersTo_run (k := k) inv_new hrun
    have hentered := Worker.entered_of_run (hlane hrun hadded hk)
    rw [view_of_some hk] at hentered
    have heq := congrArg (List.map Prod.fst) (hi.offered_eq k slot hk)
    calc (lane k as).flatMap Worker.Act.adds ++ (d.push.owes k).map Prod.fst
        = slot.worker.ledger.entered.map Prod.fst ++ (d.push.owes k).map Prod.fst := by
          rw [show slot.worker.ledger.entered.map Prod.fst = _ from hentered]
          rfl
      _ = (d.offersTo k).map Prod.fst := by rw [offersTo_of_some hk, heq, List.map_append]
      _ = snapshots k as := hoffered
  · intro as' d' k' slot' hrun' hadded' hk' hsize heq
    have h' := hlane hrun' hadded' hk'
    rw [hsize, heq, hlane hrun hadded hk] at h'
    exact (Option.some.inj h').symm

/-- The same worker steps with a second consumer, whose callback throws and which is removed. -/
def besideAnother : List (Action ℕ) :=
  [.addConsumer ⟨0⟩, .link 0, .addConsumer ⟨0⟩, .link 1, .push 7, .continuePush, .continuePush,
    .continuePush, .continuePush, .continuePush, .slot 1 .work, .slot 1 .work, .slot 1 .work,
    .slot 1 .work, .slot 1 (.finish false), .removeConsumer 1, .push 8, .continuePush,
    .continuePush, .continuePush, .slot 0 .work, .slot 0 .work, .slot 0 .work, .slot 0 .work,
    .slot 0 (.finish true)]

theorem isolated_twoPushes :
    ∃ d d' : StreamDistributor ℕ, machine.run new twoPushes = some d ∧
      machine.run new besideAnother = some d' ∧ snapshots 0 twoPushes = [7, 8] ∧
      snapshots 0 besideAnother = [7, 8] ∧ d'.view 0 = d.view 0 := by
  refine ⟨_, _, rfl, rfl, by decide, by decide, ?_⟩
  have hrun : machine.run new twoPushes = _ := rfl
  exact (isolated (k := 0) hrun (by decide) rfl).2.2 besideAnother _ 0 _ rfl (by decide) rfl rfl rfl

end StreamDistributor

end Eye
