import Mathlib.Data.List.Pairwise
import Eye.Rtsp.Playback
import Eye.Rtsp.Server
import Eye.Rtsp.StreamSource
import Eye.Stream.GivenInOrder
import Eye.Stream.Timestamp

/-!
# Presentation times from end to end

The way of a frame: a fetch thread reads the clock, constructs the frame under the lock of the
timestamps, which all streams share, and pushes it into the distributor of its stream; the worker of
the RTSP consumer calls `on_frame`, which gathers the NAL units, asks `has_active_sources` and
pushes to the frame queue; `deliver_frame` of some source pops a NAL unit and sets its presentation
time. Frames may be dropped at the consumer's slot, access units at the frame queue.

`presentation_ordered`: what is delivered of a stream is ordered by frame and by time alike. A NAL
unit carries the number of the push of its frame.
-/

namespace Eye

/-- Where a fetch thread is: it reads the clock, constructs a frame, pushes it. -/
inductive Fetcher
  | idle
  | clockRead (now : UInt64)
  | built (frame : StreamFrame)

/-- The timestamp of the frame that is to be constructed does not wrap around. -/
def Fetcher.Fits (lastTimestamp : UInt64) : Fetcher → Prop
  | .clockRead now => NoWrap lastTimestamp now
  | .idle | .built _ => True

instance (lastTimestamp : UInt64) (f : Fetcher) : Decidable (f.Fits lastTimestamp) :=
  match f with
  | .clockRead now => inferInstanceAs (Decidable (NoWrap lastTimestamp now))
  | .idle | .built _ => isTrue trivial

/-- Where the RTSP consumer's worker is in `on_frame`: not there yet, before `has_active_sources`,
before the push, or past both. -/
inductive Callback
  | idle
  | gathered (n : ℕ) (nals : RtspAccessUnit RtspNalUnit)
  | active (n : ℕ) (nals : RtspAccessUnit RtspNalUnit)
  | returned
  deriving DecidableEq

/-- One stream from its fetch thread to its sources. `codec` is `none` if `on_frame` does nothing:
the server does not run or does not have the stream. -/
structure StreamPath where
  fetcher : Fetcher
  distributor : StreamDistributor StreamFrame
  rtspSlot : SlotId
  codec : Option CodecType
  cache : ParameterSetCache
  callback : Callback
  queue : RtspFrameQueue (RtspNalUnit × ℕ)
  delivered : List (Delivery × ℕ)

namespace StreamPath

/-- A stream whose RTSP consumer is the one with that slot. -/
def new (rtspSlot : SlotId) (codec : Option CodecType) (maxQueueSize : ℕ) : StreamPath :=
  ⟨.idle, .new, rtspSlot, codec, .empty, .idle, .new maxQueueSize, []⟩

/-- What the threads of one stream do, up to the timestamps. -/
inductive Action
  | readClock (now : UInt64)
  | push
  | distribute (a : StreamDistributor.Action StreamFrame)
  | onFrame
  | check
  | enqueue
  | register (s : SourceId)
  | unregister (s : SourceId)
  | deliver (src : RtspStreamSource)

/-- The fetch thread reads the clock for its next frame. -/
def readClock (p : StreamPath) (now : UInt64) : Option StreamPath :=
  match p.fetcher, p.distributor.push with
  | .idle, .idle => some { p with fetcher := .clockRead now }
  | _, _ => none

/-- It pushes the frame; the rest of the push is steps of the distributor. -/
def push (p : StreamPath) : Option StreamPath :=
  match p.fetcher with
  | .built frame =>
    (p.distributor.step (.push frame)).map fun d => { p with distributor := d, fetcher := .idle }
  | .idle | .clockRead _ => none

/-- How the action ends the callback of a slot. -/
def endsCallback (k : SlotId) : StreamDistributor.Action StreamFrame → Option Bool
  | .slot j (.finish ok) => if j = k then some ok else none
  | _ => none

/-- Any other step of the distributor. The callback of the RTSP consumer ends when `on_frame` has
returned, or with an exception. -/
def distribute (p : StreamPath) (a : StreamDistributor.Action StreamFrame) : Option StreamPath :=
  match a with
  | .push _ => none
  | a =>
    match endsCallback p.rtspSlot a with
    | none => (p.distributor.step a).map fun d => { p with distributor := d }
    | some ok =>
      if p.callback = .returned ∨ ok = false then
        (p.distributor.step a).map fun d => { p with distributor := d, callback := .idle }
      else none

/-- `on_frame` up to the gathered NAL units. -/
def onFrame (p : StreamPath) : Option StreamPath :=
  match p.callback, (p.distributor.workerOf p.rtspSlot).place with
  | .idle, .process (frame, n) =>
    match p.codec with
    | none => some { p with callback := .returned }
    | some codec =>
      let g := RtspServer.gather codec p.cache frame
      some { p with cache := g.cache, callback := .gathered n g.accessUnitNals }
  | _, _ => none

/-- The last condition of `process_frame_nals`. -/
def check (p : StreamPath) : Option StreamPath :=
  match p.callback with
  | .gathered n nals =>
    some { p with
      callback := if p.queue.hasActiveSources && !nals.isEmpty then .active n nals else .returned }
  | .idle | .active _ _ | .returned => none

/-- The push that follows it. -/
def enqueue (p : StreamPath) : Option StreamPath :=
  match p.callback with
  | .active n nals =>
    some { p with
      queue := p.queue.pushAccessUnit (Playback.number n nals)
      callback := .returned }
  | .idle | .gathered _ _ | .returned => none

/-- `deliver_frame` of a source, in whatever state that is. -/
def deliver (p : StreamPath) (src : RtspStreamSource) : StreamPath :=
  match p.queue.popNalUnit with
  | (some x, queue) =>
    { p with queue := queue, delivered := p.delivered ++ [((src.fill x.1).delivery, x.2)] }
  | (none, queue) => { p with queue := queue }

def step (p : StreamPath) : Action → Option StreamPath
  | .readClock now => p.readClock now
  | .push => p.push
  | .distribute a => p.distribute a
  | .onFrame => p.onFrame
  | .check => p.check
  | .enqueue => p.enqueue
  | .register s => some { p with queue := p.queue.registerSource s }
  | .unregister s => some { p with queue := p.queue.unregisterSource s }
  | .deliver src => some (p.deliver src)

/-- Two presentation times are the same. -/
def SameTime (d d' : Delivery) : Prop := d.tvSec = d'.tvSec ∧ d.tvUsec = d'.tvUsec

/-- A presentation time is earlier than another one. -/
def Earlier (d d' : Delivery) : Prop :=
  d.tvSec.toInt < d'.tvSec.toInt ∨ d.tvSec = d'.tvSec ∧ d.tvUsec.toInt < d'.tvUsec.toInt

/-- What has been delivered is in the order of the frames; the presentation times of one frame are
the same, and those of a later frame are later. -/
def Ordered (p : StreamPath) : Prop :=
  p.delivered.Pairwise fun x y =>
    x.2 ≤ y.2 ∧ (x.2 = y.2 → SameTime x.1 y.1) ∧ (x.2 < y.2 → Earlier x.1 y.1)

variable {p p' : StreamPath} {last last' : UInt64} {a : Action}

/-! ## The state of one stream -/

/-- What the callback of the RTSP consumer has been given. -/
def given (p : StreamPath) : List (StreamFrame × ℕ) :=
  (p.distributor.workerOf p.rtspSlot).ledger.left

/-- Where the worker of the RTSP consumer is. -/
def place (p : StreamPath) : Place (StreamFrame × ℕ) := (p.distributor.workerOf p.rtspSlot).place

/-- What the RTSP consumer has been offered. -/
def offers (p : StreamPath) : List (StreamFrame × ℕ) := p.distributor.offersTo p.rtspSlot

/-- The frames of what has been delivered and of what is queued behind it. -/
def numbers (p : StreamPath) : List ℕ := p.delivered.map Prod.snd ++ p.queue.nals.map Prod.snd

/-- A delivery shows the time of a timestamp. -/
def Shows (d : Delivery) (ts : UInt64) : Prop :=
  d.tvSec = (ts / 1000).toInt64 ∧ d.tvUsec = (ts % 1000 * 1000).toInt64

/-- A later frame has a later timestamp. -/
def Later (x y : StreamFrame × ℕ) : Prop := x.2 < y.2 ∧ x.1.timestamp < y.1.timestamp

/-- The frame of a callback is the last one given, and nothing of it is in the queue before the
push. -/
def CallbackInv (p : StreamPath) : Prop :=
  match p.callback with
  | .idle => ∀ x, p.place = .process x → x ∈ p.given ∧ ∀ m ∈ p.numbers, m < x.2
  | .gathered n nals | .active n nals =>
    ∃ frame, p.place = .process (frame, n) ∧ (frame, n) ∈ p.given ∧
      (∀ nal ∈ nals, nal.timestamp = frame.timestamp) ∧ ∀ m ∈ p.numbers, m < n
  | .returned => ∃ x, p.place = .process x

/-- The invariant of a stream when `last` is the last timestamp taken. -/
structure Inv (last : UInt64) (p : StreamPath) : Prop where
  distributor : p.distributor.Inv
  later : p.offers.Pairwise Later
  le_last : ∀ x ∈ p.offers, x.1.timestamp ≤ last
  built : ∀ frame, p.fetcher = .built frame →
    frame.timestamp ≤ last ∧ ∀ x ∈ p.offers, x.1.timestamp < frame.timestamp
  wf : p.queue.Wf
  sorted : p.numbers.Pairwise (· ≤ ·)
  delivered : ∀ x ∈ p.delivered, ∃ frame, (frame, x.2) ∈ p.given ∧ Shows x.1 frame.timestamp
  queued : ∀ x ∈ p.queue.nals, ∃ frame, (frame, x.2) ∈ p.given ∧ x.1.timestamp = frame.timestamp
  callback : p.CallbackInv

theorem inv_new (rtspSlot : SlotId) (codec : Option CodecType) (maxQueueSize : ℕ) :
    (new rtspSlot codec maxQueueSize).Inv 0 where
  distributor := StreamDistributor.inv_new
  later := .nil
  le_last _ h := absurd h List.not_mem_nil
  built _ h := nomatch h
  wf := RtspFrameQueue.wf_new _
  sorted := .nil
  delivered _ h := absurd h List.not_mem_nil
  queued _ h := absurd h List.not_mem_nil
  callback _ h := nomatch h

theorem given_sublist (hi : p.Inv last) : p.given.Sublist p.offers :=
  StreamDistributor.given_sublist hi.distributor _

theorem Inv.exists_given (hi : p.Inv last) {m : ℕ} (hm : m ∈ p.numbers) :
    ∃ frame, (frame, m) ∈ p.given := by
  rcases List.mem_append.mp hm with hm | hm <;> obtain ⟨x, hx, rfl⟩ := List.mem_map.mp hm
  · obtain ⟨frame, hf, -⟩ := hi.delivered x hx
    exact ⟨frame, hf⟩
  · obtain ⟨frame, hf, -⟩ := hi.queued x hx
    exact ⟨frame, hf⟩

theorem Inv.mono (hi : p.Inv last) (hle : last ≤ last') : p.Inv last' :=
  { hi with
    le_last := fun x hx => UInt64.le_trans (hi.le_last x hx) hle
    built := fun frame hf =>
      ⟨UInt64.le_trans (hi.built frame hf).1 hle, (hi.built frame hf).2⟩ }

/-! ## The steps of the distributor -/

theorem Inv.setDistributor (hi : p.Inv last) {d : StreamDistributor StreamFrame}
    {callback : Callback} (hd : d.Inv) (hoffers : d.offersTo p.rtspSlot = p.offers)
    (hsub : ∀ x ∈ p.given, x ∈ (d.workerOf p.rtspSlot).ledger.left)
    (hcb : CallbackInv { p with distributor := d, callback := callback }) :
    Inv last { p with distributor := d, callback := callback } := by
  refine ⟨hd, ?_, ?_, ?_, hi.wf, hi.sorted, ?_, ?_, hcb⟩
  · show (d.offersTo p.rtspSlot).Pairwise Later
    rw [hoffers]
    exact hi.later
  · show ∀ x ∈ d.offersTo p.rtspSlot, _
    rw [hoffers]
    exact hi.le_last
  · show ∀ frame, _ → _ ∧ ∀ x ∈ d.offersTo p.rtspSlot, _
    rw [hoffers]
    exact hi.built
  · intro x hx
    obtain ⟨frame, hf, hs⟩ := hi.delivered x hx
    exact ⟨frame, hsub _ hf, hs⟩
  · intro x hx
    obtain ⟨frame, hf, hs⟩ := hi.queued x hx
    exact ⟨frame, hsub _ hf, hs⟩

theorem Inv.callback_idle (hi : p.Inv last) (hnot : ∀ x, p.place ≠ .process x) :
    p.callback = .idle := by
  have hcb := hi.callback
  unfold CallbackInv at hcb
  cases hc : p.callback with
  | idle => rfl
  | gathered n nals | active n nals =>
    rw [hc] at hcb
    obtain ⟨frame, hp, -⟩ := hcb
    exact absurd hp (hnot _)
  | returned =>
    rw [hc] at hcb
    obtain ⟨x, hp⟩ := hcb
    exact absurd hp (hnot _)

/-- The worker has got its next frame, which is later than all before it. -/
theorem Inv.lt_next (hi : p.Inv last) {d : StreamDistributor StreamFrame} {x : StreamFrame × ℕ}
    (hd : d.Inv) (hoffers : d.offersTo p.rtspSlot = p.offers)
    (hl : (d.workerOf p.rtspSlot).ledger.left = p.given ++ [x]) : ∀ m ∈ p.numbers, m < x.2 := by
  intro m hm
  obtain ⟨frame, hf⟩ := hi.exists_given hm
  have hpair := hi.later.sublist (hoffers ▸ StreamDistributor.given_sublist hd p.rtspSlot)
  rw [hl, List.pairwise_append] at hpair
  exact (hpair.2.2 _ hf x List.mem_cons_self).1

/-- A step of the distributor that is no push and does not end the callback of the RTSP consumer. -/
theorem Inv.distributor_step (hi : p.Inv last) {a : StreamDistributor.Action StreamFrame}
    {d : StreamDistributor StreamFrame} (h : p.distributor.Step a d)
    (hends : endsCallback p.rtspSlot a = none)
    (hoffers : d.offersTo p.rtspSlot = p.offers) : Inv last { p with distributor := d } := by
  have hd := hi.distributor.step h
  rcases StreamDistributor.worker_cases (k := p.rtspSlot) h with
    ⟨x, hready, hprocess, hl⟩ | ⟨hl, ⟨ok, rfl, -⟩ | hsame⟩
  · refine hi.setDistributor hd hoffers (fun y hy => ?_) ?_
    · rw [hl]
      exact List.mem_append_left _ hy
    · have hidle := hi.callback_idle fun y hy => by
        rw [show p.place = .ready from hready] at hy
        cases hy
      unfold CallbackInv
      rw [hidle]
      intro y hy
      have hxy : Place.process x = .process y := hprocess.symm.trans hy
      cases hxy
      refine ⟨?_, hi.lt_next hd hoffers hl⟩
      show x ∈ (d.workerOf p.rtspSlot).ledger.left
      rw [hl]
      exact List.mem_append_right _ List.mem_cons_self
  · -- the callback would end
    have hends : (if p.rtspSlot = p.rtspSlot then some ok else none) = none := hends
    rw [if_pos rfl] at hends
    cases hends
  · have hsub : ∀ x ∈ p.given, x ∈ (d.workerOf p.rtspSlot).ledger.left := fun x hx => hl ▸ hx
    refine hi.setDistributor hd hoffers hsub ?_
    have hcb := hi.callback
    unfold CallbackInv at hcb ⊢
    dsimp only
    cases hc : p.callback with
    | idle =>
      rw [hc] at hcb
      intro x hx
      obtain ⟨hx, hlt⟩ := hcb x ((hsame x).mp hx)
      exact ⟨hsub x hx, hlt⟩
    | gathered n nals | active n nals =>
      rw [hc] at hcb
      obtain ⟨frame, hp, hf, hrest⟩ := hcb
      exact ⟨frame, (hsame _).mpr hp, hsub _ hf, hrest⟩
    | returned =>
      rw [hc] at hcb
      obtain ⟨x, hp⟩ := hcb
      exact ⟨x, (hsame x).mpr hp⟩

/-- The callback of the RTSP consumer ends. -/
theorem Inv.finish (hi : p.Inv last) {ok : Bool} {d : StreamDistributor StreamFrame}
    (h : p.distributor.Step (.slot p.rtspSlot (.finish ok)) d) :
    Inv last { p with distributor := d, callback := .idle } := by
  obtain ⟨htest, hl⟩ := StreamDistributor.workerOf_finish h
  refine hi.setDistributor (hi.distributor.step h) ?_ (fun x hx => hl ▸ hx) fun x hx => ?_
  · rw [StreamDistributor.offersTo_step hi.distributor h]
    exact List.append_nil _
  · rw [show place { p with distributor := d, callback := .idle } = .test from htest] at hx
    cases hx

theorem endsCallback_eq_some {k : SlotId} {a : StreamDistributor.Action StreamFrame} {ok : Bool}
    (h : endsCallback k a = some ok) : a = .slot k (.finish ok) := by
  cases a with
  | slot j b =>
    cases b with
    | finish ok' =>
      have h : (if j = k then some ok' else none) = some ok := h
      split_ifs at h with hj
      cases h
      rw [hj]
    | work | spurious | enqueue | notifyOne | beginStop | store | notifyAll | join | clear =>
      cases h
  | addConsumer | link | removeConsumer | push | continuePush | destroy | continueDestroy => cases h

theorem Inv.distribute (hi : p.Inv last) {a : StreamDistributor.Action StreamFrame}
    (h : p.distribute a = some p') : p'.Inv last := by
  have hstep : ∀ d, p.distributor.step a = some d → (∀ frame, a ≠ .push frame) →
      endsCallback p.rtspSlot a = none → Inv last { p with distributor := d } := by
    intro d hd hpush hends
    have hd := StreamDistributor.Step.of_step hd
    refine hi.distributor_step hd hends ?_
    rw [StreamDistributor.offersTo_step hi.distributor hd]
    cases a with
    | push frame => exact absurd rfl (hpush frame)
    | addConsumer | link | removeConsumer | continuePush | destroy | continueDestroy | slot =>
      exact List.append_nil _
  cases a with
  | push frame => cases h
  | addConsumer | link | removeConsumer | continuePush | destroy | continueDestroy =>
    obtain ⟨d, hd, rfl⟩ := Option.map_eq_some_iff.mp h
    refine hstep d hd ?_ rfl
    intro frame hp
    cases hp
  | slot k b =>
    unfold StreamPath.distribute at h
    cases hends : endsCallback p.rtspSlot (.slot k b) with
    | none =>
      simp only [hends] at h
      obtain ⟨d, hd, rfl⟩ := Option.map_eq_some_iff.mp h
      exact hstep d hd (fun _ hp => nomatch hp) hends
    | some ok =>
      simp only [hends] at h
      split_ifs at h
      obtain ⟨d, hd, rfl⟩ := Option.map_eq_some_iff.mp h
      rw [endsCallback_eq_some hends] at hd
      exact hi.finish (.of_step hd)

theorem Inv.push (hi : p.Inv last) (h : p.push = some p') : p'.Inv last := by
  unfold StreamPath.push at h
  cases hf : p.fetcher with
  | idle | clockRead now =>
    rw [hf] at h
    cases h
  | built frame =>
    rw [hf] at h
    obtain ⟨d, hd, rfl⟩ := Option.map_eq_some_iff.mp h
    have hstep := StreamDistributor.Step.of_step hd
    have hworker : d.workerOf p.rtspSlot = p.distributor.workerOf p.rtspSlot := by
      rcases StreamDistributor.workerOf_step (k := p.rtspSlot) hstep with heq | ⟨-, b, hb, -⟩
      · exact heq
      · cases hb
    have hoffers := StreamDistributor.offersTo_step (k := p.rtspSlot) hi.distributor hstep
    obtain ⟨hlast, hlt⟩ := hi.built frame hf
    have hnew : ∀ y ∈ (p.distributor.snapshot p.rtspSlot (.push frame)).map
        fun frame => (frame, p.distributor.pushes), y = (frame, p.distributor.pushes) := by
      intro y hy
      unfold StreamDistributor.snapshot at hy
      dsimp only at hy
      split_ifs at hy
      · exact List.mem_singleton.mp hy
      · exact absurd hy List.not_mem_nil
    refine ⟨hi.distributor.step hstep, ?_, ?_, (fun _ h => nomatch h), hi.wf, hi.sorted, ?_, ?_, ?_⟩
    · show (d.offersTo p.rtspSlot).Pairwise Later
      rw [hoffers, List.pairwise_append]
      refine ⟨hi.later, ?_, ?_⟩
      · unfold StreamDistributor.snapshot
        dsimp only
        split_ifs
        · exact List.pairwise_singleton _ _
        · exact .nil
      · intro x hx y hy
        rw [hnew y hy]
        exact ⟨StreamDistributor.offersTo_lt hi.distributor x hx, hlt x hx⟩
    · show ∀ x ∈ d.offersTo p.rtspSlot, _
      rw [hoffers]
      intro x hx
      rcases List.mem_append.mp hx with hx | hx
      · exact hi.le_last x hx
      · rw [hnew x hx]
        exact hlast
    · unfold given
      dsimp only
      rw [hworker]
      exact hi.delivered
    · unfold given
      dsimp only
      rw [hworker]
      exact hi.queued
    · have hcb := hi.callback
      unfold CallbackInv place given at hcb ⊢
      dsimp only
      rw [hworker]
      exact hcb

/-! ## The steps of `on_frame` -/

theorem Inv.setCallback (hi : p.Inv last) {cache : ParameterSetCache} {callback : Callback}
    (hcb : CallbackInv { p with cache := cache, callback := callback }) :
    Inv last { p with cache := cache, callback := callback } :=
  ⟨hi.distributor, hi.later, hi.le_last, hi.built, hi.wf, hi.sorted, hi.delivered, hi.queued, hcb⟩

theorem timestamp_of_gather {codec : CodecType} {cache : ParameterSetCache} {frame : StreamFrame}
    {nal : RtspNalUnit} (h : nal ∈ (RtspServer.gather codec cache frame).accessUnitNals) :
    nal.timestamp = frame.timestamp := by
  rw [RtspServer.gather_eq] at h
  obtain ⟨parsed, -, rfl⟩ := List.mem_map.mp h
  rfl

theorem Inv.onFrame (hi : p.Inv last) (h : p.onFrame = some p') : p'.Inv last := by
  have hcb := hi.callback
  unfold StreamPath.onFrame at h
  split at h
  · rename_i frame n hc hp
    unfold CallbackInv at hcb
    rw [hc] at hcb
    obtain ⟨hgiven, hlt⟩ := hcb (frame, n) hp
    split at h
    · cases h
      exact hi.setCallback ⟨(frame, n), hp⟩
    · cases h
      exact hi.setCallback ⟨frame, hp, hgiven, fun nal hn => timestamp_of_gather hn, hlt⟩
  · cases h

theorem Inv.check (hi : p.Inv last) (h : p.check = some p') : p'.Inv last := by
  have hcb := hi.callback
  unfold StreamPath.check at h
  cases hc : p.callback with
  | gathered n nals =>
    unfold CallbackInv at hcb
    rw [hc] at h hcb
    cases h
    refine hi.setCallback ?_
    unfold CallbackInv
    dsimp only
    split_ifs
    · exact hcb
    · obtain ⟨frame, hp, -⟩ := hcb
      exact ⟨_, hp⟩
  | idle | active n nals | returned =>
    rw [hc] at h
    cases h

theorem Inv.enqueue (hi : p.Inv last) (h : p.enqueue = some p') : p'.Inv last := by
  have hcb := hi.callback
  unfold StreamPath.enqueue at h
  cases hc : p.callback with
  | active n nals =>
    unfold CallbackInv at hcb
    rw [hc] at h hcb
    cases h
    obtain ⟨frame, hp, hgiven, hts, hlt⟩ := hcb
    obtain ⟨kept, hsub, hnals⟩ := RtspFrameQueue.nals_pushAccessUnit hi.wf (Playback.number n nals)
    refine ⟨hi.distributor, hi.later, hi.le_last, hi.built, hi.wf.pushAccessUnit _, ?_,
      hi.delivered, ?_, ⟨_, hp⟩⟩
    · have hold : (p.delivered.map Prod.snd ++ kept.map Prod.snd).Sublist p.numbers :=
        (List.Sublist.refl _).append (hsub.map _)
      have hnew : ∀ m ∈ (Playback.number n nals).map Prod.snd, m = n := by
        intro m hm
        obtain ⟨x, hx, rfl⟩ := List.mem_map.mp hm
        exact Playback.mem_number hx
      unfold numbers
      dsimp only
      rw [hnals, List.map_append, ← List.append_assoc, List.pairwise_append]
      refine ⟨hi.sorted.sublist hold, ?_, ?_⟩
      · apply List.pairwise_of_forall_mem_list
        intro m hm m' hm'
        have hm := hnew m hm
        have hm' := hnew m' hm'
        omega
      · intro m hm m' hm'
        rw [hnew m' hm']
        have hlt := hlt m (hold.subset hm)
        omega
    · intro x hx
      have hx : x ∈ (p.queue.pushAccessUnit (Playback.number n nals)).nals := hx
      rw [hnals] at hx
      rcases List.mem_append.mp hx with hx | hx
      · exact hi.queued x (hsub.subset hx)
      · obtain ⟨nal, hnal, rfl⟩ := List.mem_map.mp hx
        exact ⟨frame, hgiven, hts nal hnal⟩
  | idle | gathered n nals | returned =>
    rw [hc] at h
    cases h

theorem shows_fill (src : RtspStreamSource) (nal : RtspNalUnit) :
    Shows (src.fill nal).delivery nal.timestamp := by
  unfold RtspStreamSource.fill
  split_ifs <;> exact ⟨rfl, rfl⟩

theorem Inv.deliver (hi : p.Inv last) (src : RtspStreamSource) : (p.deliver src).Inv last := by
  unfold StreamPath.deliver
  rcases RtspFrameQueue.nals_popNalUnit hi.wf with ⟨hnone, -, hsame⟩ | ⟨x, hsome, hcons⟩
  · rw [show p.queue.popNalUnit = (none, p.queue) from Prod.ext hnone hsame]
    exact hi
  · rw [show p.queue.popNalUnit = (some x, p.queue.popNalUnit.2) from Prod.ext hsome rfl]
    have hnumbers : numbers { p with
        queue := p.queue.popNalUnit.2
        delivered := p.delivered ++ [((src.fill x.1).delivery, x.2)] } = p.numbers := by
      unfold numbers
      dsimp only
      rw [hcons, List.map_append, List.append_assoc]
      rfl
    obtain ⟨frame, hf, hts⟩ := hi.queued x (hcons ▸ List.mem_cons_self)
    refine ⟨hi.distributor, hi.later, hi.le_last, hi.built, hi.wf.popNalUnit, ?_, ?_,
      fun y hy => hi.queued y (hcons ▸ List.mem_cons_of_mem _ hy), ?_⟩
    · rw [hnumbers]
      exact hi.sorted
    · intro y hy
      rcases List.mem_append.mp hy with hy | hy
      · exact hi.delivered y hy
      · rw [List.mem_singleton.mp hy]
        exact ⟨frame, hf, hts ▸ shows_fill src x.1⟩
    · have hcb := hi.callback
      unfold CallbackInv at hcb ⊢
      rw [hnumbers]
      exact hcb

theorem Inv.readClock (hi : p.Inv last) {now : UInt64} (h : p.readClock now = some p') :
    p'.Inv last := by
  unfold StreamPath.readClock at h
  split at h
  · cases h
    exact { hi with built := fun _ h => nomatch h }
  · cases h

theorem Inv.step (hi : p.Inv last) (h : p.step a = some p') : p'.Inv last := by
  cases a with
  | readClock now => exact hi.readClock h
  | push => exact hi.push h
  | distribute a => exact hi.distribute h
  | onFrame => exact hi.onFrame h
  | check => exact hi.check h
  | enqueue => exact hi.enqueue h
  | register s =>
    cases h
    exact { hi with wf := ⟨hi.wf.ne_nil, hi.wf.length_le⟩ }
  | unregister s =>
    cases h
    exact { hi with wf := ⟨hi.wf.ne_nil, hi.wf.length_le⟩ }
  | deliver src =>
    cases h
    exact hi.deliver src

/-! ## The order of the times -/

/-- An earlier timestamp shows as an earlier time. -/
theorem earlier_of_lt {d d' : Delivery} {ts ts' : UInt64} (hd : Shows d ts) (hd' : Shows d' ts')
    (h : ts < ts') : Earlier d d' := by
  have hlt := ts.toNat_lt
  have hlt' := ts'.toNat_lt
  have hsec : ∀ u : UInt64, (u / 1000).toInt64.toInt = (u.toNat / 1000 : ℕ) := by
    intro u
    have := u.toNat_lt
    have hdiv : (u / 1000).toNat = u.toNat / 1000 := UInt64.toNat_div ..
    rw [RtspStreamSource.toInt_toInt64 (by omega), hdiv]
  have husec := fun u => (RtspStreamSource.time_split u).1
  rw [UInt64.lt_iff_toNat_lt] at h
  unfold Earlier
  rw [hd.1, hd.2, hd'.1, hd'.2]
  have h1 := RtspStreamSource.time_split ts
  have h2 := RtspStreamSource.time_split ts'
  have hs := hsec ts
  have hs' := hsec ts'
  by_cases hq : ts.toNat / 1000 = ts'.toNat / 1000
  · right
    refine ⟨?_, by omega⟩
    rw [← Int64.toInt_inj, hs, hs', hq]
  · left
    omega

/-- The frames given are told apart by their numbers, and their numbers and their timestamps are in
the same order. -/
theorem Inv.given_cases (hi : p.Inv last) {x y : StreamFrame × ℕ} (hx : x ∈ p.given)
    (hy : y ∈ p.given) : (x.2 = y.2 → x = y) ∧ (x.2 < y.2 → x.1.timestamp < y.1.timestamp) := by
  have hlater := hi.later.sublist (given_sublist hi)
  refine List.Pairwise.forall_of_forall_of_flip
    (R := fun x y : StreamFrame × ℕ =>
      (x.2 = y.2 → x = y) ∧ (x.2 < y.2 → x.1.timestamp < y.1.timestamp)) ?_ ?_ ?_ hx hy
  · intro x _
    simp
  · refine hlater.imp fun h => ⟨fun heq => ?_, fun _ => h.2⟩
    have hlt := h.1
    omega
  · refine hlater.imp fun h => ⟨fun heq => ?_, fun hgt => ?_⟩
    all_goals
      have hlt := h.1
      omega

theorem Inv.ordered (hi : p.Inv last) : p.Ordered := by
  have hsorted : (p.delivered.map Prod.snd).Pairwise (· ≤ ·) :=
    hi.sorted.sublist (List.sublist_append_left _ _)
  refine (List.pairwise_map.mp hsorted).imp_of_mem fun {x y} hx hy hle => ⟨hle, ?_, ?_⟩
  all_goals
    obtain ⟨frame, hf, hs⟩ := hi.delivered x hx
    obtain ⟨frame', hf', hs'⟩ := hi.delivered y hy
    obtain ⟨heq, hlt⟩ := hi.given_cases hf hf'
    intro h
  · have hframe : frame = frame' := congrArg Prod.fst (heq h)
    subst hframe
    exact ⟨hs.1.trans hs'.1.symm, hs.2.trans hs'.2.symm⟩
  · exact earlier_of_lt hs hs' (hlt h)

end StreamPath

/-- The streams and the timestamp that they share. -/
structure Pipeline where
  lastTimestamp : UInt64
  path : StreamType → StreamPath

namespace Pipeline

/-- Before the first frame. -/
def new (path : StreamType → SlotId × Option CodecType × ℕ) : Pipeline :=
  ⟨0, fun t => .new (path t).1 (path t).2.1 (path t).2.2⟩

/-- A fetch thread constructs a frame, or anything else happens on the way of a stream. -/
inductive Action
  | construct (t : StreamType) (channel : VencChannel) (codecType : CodecType) (data : FrameData)
  | on (t : StreamType) (a : StreamPath.Action)

/-- `StreamFrame::StreamFrame`, with the clock read before. -/
def construct (w : Pipeline) (t : StreamType) (channel : VencChannel) (codecType : CodecType)
    (data : FrameData) : Option Pipeline :=
  match (w.path t).fetcher with
  | .clockRead now =>
    let ts := nextMonotonicTimestampMs w.lastTimestamp now
    let p := { w.path t with fetcher := .built ⟨channel, t, codecType, ts, data⟩ }
    some ⟨ts, Function.update w.path t p⟩
  | .idle | .built _ => none

def step (w : Pipeline) : Action → Option Pipeline
  | .construct t channel codecType data => w.construct t channel codecType data
  | .on t a => ((w.path t).step a).map fun p => { w with path := Function.update w.path t p }

/-- All interleavings of the streams. -/
def machine : Machine Pipeline Action where
  init w := ∃ path, w = new path
  step := step

/-- The timestamp that the step takes, if it takes one, does not wrap around. -/
def TimestampFits (w : Pipeline) : Action → Prop
  | .construct t _ _ _ => (w.path t).fetcher.Fits w.lastTimestamp
  | .on _ _ => True

instance (w : Pipeline) : (a : Action) → Decidable (w.TimestampFits a)
  | .construct t _ _ _ => inferInstanceAs (Decidable ((w.path t).fetcher.Fits _))
  | .on _ _ => .isTrue trivial

variable {w w' : Pipeline} {a : Action}

/-- Every stream is in order, and none has a timestamp beyond the last one. -/
def Inv (w : Pipeline) : Prop := ∀ t, (w.path t).Inv w.lastTimestamp

theorem inv_new (path : StreamType → SlotId × Option CodecType × ℕ) : (new path).Inv :=
  fun _ => StreamPath.inv_new ..

theorem Inv.construct (hi : w.Inv) {t : StreamType} {channel : VencChannel} {codecType : CodecType}
    {data : FrameData} (hfits : w.TimestampFits (.construct t channel codecType data))
    (h : w.construct t channel codecType data = some w') : w'.Inv := by
  unfold TimestampFits at hfits
  unfold Pipeline.construct at h
  cases hf : (w.path t).fetcher with
  | clockRead now =>
    simp only [hf] at h hfits
    cases h
    have hlt := lt_nextMonotonicTimestampMs hfits
    have hle := UInt64.le_of_lt hlt
    intro t'
    by_cases ht : t' = t
    · subst ht
      dsimp only
      rw [Function.update_self]
      have hp := (hi t').mono hle
      refine { hp with built := ?_ }
      rintro frame ⟨⟩
      refine ⟨UInt64.le_refl _, ?_⟩
      intro x hx
      exact UInt64.lt_of_le_of_lt ((hi t').le_last x hx) hlt
    · dsimp only
      rw [Function.update_of_ne ht]
      exact (hi t').mono hle
  | idle | built frame =>
    rw [hf] at h
    cases h

theorem Inv.step (hi : w.Inv) (hfits : w.TimestampFits a) (h : w.step a = some w') : w'.Inv := by
  cases a with
  | construct t channel codecType data => exact hi.construct hfits h
  | on t a =>
    obtain ⟨p, hp, rfl⟩ := Option.map_eq_some_iff.mp h
    intro t'
    by_cases ht : t' = t
    · subst ht
      dsimp only
      rw [Function.update_self]
      exact (hi t').step hp
    · dsimp only
      rw [Function.update_of_ne ht]
      exact hi t'

/-- **Presentation times.** In every run in which no timestamp wraps around, whatever the clock
reads, however the streams interleave and whatever is dropped: in every state, what has been
delivered of each stream is ordered by frame, with one presentation time for each frame and a later
one for each later frame. -/
theorem presentation_ordered (path : StreamType → SlotId × Option CodecType × ℕ)
    {as : List Action} (h : machine.Along TimestampFits (new path) as) :
    machine.Always (fun w => ∀ t, (w.path t).Ordered) (new path) as :=
  h.always (inv_new path) (fun _ _ _ hi hc hs => hi.step hc hs) fun _ hi t => (hi t).ordered

/-- A consumer of five frames for the sub stream, and a source. -/
def setUp : List StreamPath.Action :=
  [.distribute (.addConsumer ⟨5⟩), .distribute (.link 0), .register 7]

/-- From the distributor to the source, once the frame is constructed. -/
def passOn : List StreamPath.Action :=
  .push :: List.replicate 3 (.distribute .continuePush) ++
    List.replicate 4 (.distribute (.slot 0 .work)) ++ [.onFrame, .check, .enqueue,
    .distribute (.slot 0 (.finish true)), .deliver (.new .videoSub .h264)]

/-- Two frames of the sub stream, with a frame of the main stream between the clock and the first,
and with the clock stepping back before the second. -/
def twoFrames : List Action :=
  let data := (RtspServer.onePack .videoSub .h264 0 0x41 0x9a).data
  setUp.map (.on .videoSub) ++
    [.on .videoSub (.readClock 9), .on .videoMain (.readClock 9),
      .construct .videoMain .chn0 .h265 data, .construct .videoSub .chn1 .h264 data] ++
    passOn.map (.on .videoSub) ++
    [.on .videoSub (.readClock 3), .construct .videoSub .chn1 .h264 data] ++
    passOn.map (.on .videoSub)

theorem presentation_ordered_twoFrames :
    machine.Always (fun w => ∀ t, (w.path t).Ordered) (new fun _ => (0, some .h264, 5)) twoFrames ∧
      ((machine.run (new fun _ => (0, some .h264, 5)) twoFrames).map fun w =>
        (w.path .videoSub).delivered.map fun x => (x.1.tvSec, x.1.tvUsec, x.2)) =
          some [(0, 10000, 0), (0, 11000, 1)] := by
  refine ⟨presentation_ordered _ (Machine.Along.of_checks (by decide +kernel)), ?_⟩
  decide +kernel

end Pipeline

end Eye
