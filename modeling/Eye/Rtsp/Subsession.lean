import Mathlib.Data.Finset.Card
import Eye.Rtsp.StreamSource

/-!
# Subsessions and the sessions they admit

`RtspServerMediaSubsession` decides in `createNewStreamSource` which client sessions get a source.
It is called for a client that sets up, and with id 0 for a DESCRIBE; live555 calls `deleteStream`
for every session that ends, whether it was admitted or not.

`admission_exact`: over any sequence of such calls the active set is the ids that were granted a
source and not deleted since, and it is compared with the limit as it should be.
`failedCreation_untouched`: a call without a source changes nothing. The branch that erases the id
again is never taken, since `RtspStreamSource::createNew` does not fail; it would erase an id that
was active before the call, too.
-/

namespace Eye

/-- The framer that `createNewStreamSource` puts around the source. -/
inductive Framer
  | h265VideoStreamDiscreteFramer
  | h264VideoStreamDiscreteFramer
  deriving DecidableEq

/-- What `createNewStreamSource` gives back: the framed source and its estimated bitrate. -/
structure FramedInput where
  framer : Framer
  source : RtspStreamSource
  estBitrate : UInt32
  deriving DecidableEq

/-- `RtspServerMediaSubsession`, with the `reuseFirstSource` that its base class has been given. -/
structure RtspServerMediaSubsession where
  reuseFirstSource : Bool
  streamType : StreamType
  codecType : CodecType
  auxSdpLine : String
  maxClients : ℕ
  activeClientSessions : Finset UInt32

namespace RtspServerMediaSubsession

/-- `RtspServerMediaSubsession::RtspServerMediaSubsession` -/
def new (type : StreamType) (codec : CodecType) (maxClients : ℕ) (reuseFirstSource : Bool) :
    RtspServerMediaSubsession where
  reuseFirstSource := if maxClients = 1 then false else reuseFirstSource
  streamType := type
  codecType := codec
  auxSdpLine := ""
  maxClients := if maxClients = 0 then 1 else maxClients
  activeClientSessions := ∅

/-- The source behind its framer. -/
def frame (sub : RtspServerMediaSubsession) (source : RtspStreamSource) : FramedInput where
  framer :=
    if sub.codecType = .h265 then .h265VideoStreamDiscreteFramer
    else .h264VideoStreamDiscreteFramer
  source := source
  estBitrate := if sub.codecType = .h265 then 4000 else 2000

/-- `createNewStreamSource` from the call of `RtspStreamSource::createNew` on. -/
def openSource (sub : RtspServerMediaSubsession) (clientSessionId : UInt32) :
    Option FramedInput × RtspServerMediaSubsession :=
  match RtspStreamSource.createNew sub.streamType sub.codecType with
  | some source => (some (sub.frame source), sub)
  | none =>
    if clientSessionId ≠ 0 then
      (none, { sub with activeClientSessions := sub.activeClientSessions.erase clientSessionId })
    else (none, sub)

/-- `RtspServerMediaSubsession::createNewStreamSource` -/
def createNewStreamSource (sub : RtspServerMediaSubsession) (clientSessionId : UInt32) :
    Option FramedInput × RtspServerMediaSubsession :=
  if clientSessionId ≠ 0 ∧ clientSessionId ∉ sub.activeClientSessions then
    if sub.maxClients ≤ sub.activeClientSessions.card then (none, sub)
    else
      openSource { sub with
        activeClientSessions := insert clientSessionId sub.activeClientSessions }
        clientSessionId
  else sub.openSource clientSessionId

/-- `RtspServerMediaSubsession::deleteStream`, up to the call of its base. -/
def deleteStream (sub : RtspServerMediaSubsession) (clientSessionId : UInt32) :
    RtspServerMediaSubsession :=
  if clientSessionId ≠ 0 then
    { sub with activeClientSessions := sub.activeClientSessions.erase clientSessionId }
  else sub

/-- A source is not refused to that session. -/
def Admits (sub : RtspServerMediaSubsession) (id : UInt32) : Prop :=
  id = 0 ∨ id ∈ sub.activeClientSessions ∨ sub.activeClientSessions.card < sub.maxClients

instance (sub : RtspServerMediaSubsession) (id : UInt32) : Decidable (sub.Admits id) :=
  inferInstanceAs (Decidable (_ ∨ _ ∨ _))

/-! ## What each method does to the active set -/

variable {sub : RtspServerMediaSubsession} {id : UInt32}

theorem maxClients_new (type : StreamType) (codec : CodecType) (n : ℕ) (reuse : Bool) :
    (new type codec n reuse).maxClients = max 1 n := by
  show (if n = 0 then 1 else n) = max 1 n
  split_ifs <;> omega

theorem createNewStreamSource_of_not_admits (h : ¬ sub.Admits id) :
    sub.createNewStreamSource id = (none, sub) := by
  unfold Admits at h
  push Not at h
  unfold createNewStreamSource
  rw [if_pos ⟨h.1, h.2.1⟩, if_pos h.2.2]

/-- A session that is not refused gets a source, and is active from now on unless its id is 0. -/
theorem createNewStreamSource_of_admits (h : sub.Admits id) :
    (sub.createNewStreamSource id).1.isSome = true ∧
      (sub.createNewStreamSource id).2 =
        if id = 0 then sub
        else { sub with activeClientSessions := insert id sub.activeClientSessions } := by
  unfold createNewStreamSource
  by_cases hid : id = 0
  · rw [if_neg fun hc => hc.1 hid, if_pos hid]
    exact ⟨rfl, rfl⟩
  · rw [if_neg hid]
    by_cases hmem : id ∈ sub.activeClientSessions
    · rw [if_neg fun hc => hc.2 hmem, Finset.insert_eq_of_mem hmem]
      exact ⟨rfl, rfl⟩
    · have hroom : sub.activeClientSessions.card < sub.maxClients :=
        (h.resolve_left hid).resolve_left hmem
      rw [if_pos ⟨hid, hmem⟩, if_neg (Nat.not_le_of_lt hroom)]
      exact ⟨rfl, rfl⟩

theorem createNewStreamSource_isSome :
    (sub.createNewStreamSource id).1.isSome = true ↔ sub.Admits id := by
  constructor
  · intro h
    by_contra hno
    rw [createNewStreamSource_of_not_admits hno] at h
    cases h
  · intro h
    exact (createNewStreamSource_of_admits h).1

theorem mem_createNewStreamSource {x : UInt32} :
    x ∈ (sub.createNewStreamSource id).2.activeClientSessions ↔
      x ∈ sub.activeClientSessions ∨ (x = id ∧ id ≠ 0 ∧ sub.Admits id) := by
  by_cases h : sub.Admits id
  · rw [(createNewStreamSource_of_admits h).2]
    split_ifs with hid
    · exact ⟨.inl, fun hx => hx.resolve_right fun hc => hc.2.1 hid⟩
    · rw [Finset.mem_insert]
      constructor
      · intro hx
        exact hx.elim (fun hx => .inr ⟨hx, hid, h⟩) .inl
      · intro hx
        exact hx.elim .inr fun hx => .inl hx.1
  · rw [createNewStreamSource_of_not_admits h]
    exact ⟨.inl, fun hx => hx.resolve_right fun hc => h hc.2.2⟩

@[simp] theorem createNewStreamSource_maxClients :
    (sub.createNewStreamSource id).2.maxClients = sub.maxClients := by
  by_cases h : sub.Admits id
  · rw [(createNewStreamSource_of_admits h).2]
    split_ifs <;> rfl
  · rw [createNewStreamSource_of_not_admits h]

theorem card_createNewStreamSource_le
    (hle : sub.activeClientSessions.card ≤ sub.maxClients) :
    (sub.createNewStreamSource id).2.activeClientSessions.card ≤ sub.maxClients := by
  by_cases h : sub.Admits id
  · rw [(createNewStreamSource_of_admits h).2]
    split_ifs with hid
    · exact hle
    · by_cases hmem : id ∈ sub.activeClientSessions
      · rw [Finset.insert_eq_of_mem hmem]
        exact hle
      · have hroom : sub.activeClientSessions.card < sub.maxClients :=
          (h.resolve_left hid).resolve_left hmem
        exact (Finset.card_insert_le ..).trans hroom
  · rw [createNewStreamSource_of_not_admits h]
    exact hle

theorem mem_deleteStream {x : UInt32} (h0 : (0 : UInt32) ∉ sub.activeClientSessions) :
    x ∈ (sub.deleteStream id).activeClientSessions ↔
      x ∈ sub.activeClientSessions ∧ x ≠ id := by
  unfold deleteStream
  split_ifs with hid
  · rw [Finset.mem_erase, and_comm]
  · rw [not_not] at hid
    refine ⟨fun hx => ⟨hx, ?_⟩, And.left⟩
    rintro rfl
    exact h0 (hid ▸ hx)

@[simp] theorem deleteStream_maxClients : (sub.deleteStream id).maxClients = sub.maxClients := by
  unfold deleteStream
  split_ifs <;> rfl

theorem deleteStream_of_not_mem (h : id ∉ sub.activeClientSessions) :
    sub.deleteStream id = sub := by
  unfold deleteStream
  split_ifs
  · rw [Finset.erase_eq_of_notMem h]
  · rfl

end RtspServerMediaSubsession

/-! ## Sequences of calls -/

/-- What live555 calls on a subsession. -/
inductive SubsessionCall
  | createNewStreamSource (id : UInt32)
  | deleteStream (id : UInt32)
  deriving DecidableEq

/-- A subsession and the calls made so far, each with whether it returned a source. -/
structure Admission where
  sub : RtspServerMediaSubsession
  log : List (SubsessionCall × Bool)

namespace Admission

open RtspServerMediaSubsession

def call (w : Admission) : SubsessionCall → Admission
  | .createNewStreamSource id =>
    let r := w.sub.createNewStreamSource id
    ⟨r.2, w.log ++ [(.createNewStreamSource id, r.1.isSome)]⟩
  | .deleteStream id => ⟨w.sub.deleteStream id, w.log ++ [(.deleteStream id, false)]⟩

/-- The state after a sequence of calls on a new subsession. -/
def after (type : StreamType) (codec : CodecType) (maxClients : ℕ) (reuseFirstSource : Bool)
    (calls : List SubsessionCall) : Admission :=
  calls.foldl call ⟨.new type codec maxClients reuseFirstSource, []⟩

/-- The session has been granted a source, and has not been deleted since. -/
def Holds (w : Admission) (id : UInt32) : Prop :=
  ∃ before since, w.log = before ++ (.createNewStreamSource id, true) :: since ∧
    (SubsessionCall.deleteStream id, false) ∉ since

theorem holds_concat (sub : RtspServerMediaSubsession) {sub' : RtspServerMediaSubsession}
    {log : List (SubsessionCall × Bool)} {e : SubsessionCall × Bool} {id : UInt32} :
    Holds ⟨sub', log ++ [e]⟩ id ↔
      e = (.createNewStreamSource id, true) ∨
        (Holds ⟨sub, log⟩ id ∧ e ≠ (.deleteStream id, false)) := by
  constructor
  · rintro ⟨before, since, hlog, hno⟩
    rcases List.eq_nil_or_concat since with rfl | ⟨since, e', rfl⟩
    · obtain ⟨-, he⟩ := List.append_inj' hlog rfl
      exact .inl (List.cons.inj he).1
    · rw [List.concat_eq_append] at hlog hno
      have happ : log ++ [e] = (before ++ (.createNewStreamSource id, true) :: since) ++ [e'] := by
        rw [show log ++ [e] = _ from hlog, List.append_assoc, List.cons_append]
      obtain ⟨hold, he⟩ := List.append_inj' happ rfl
      rw [List.mem_append, not_or, List.mem_singleton, ← (List.cons.inj he).1] at hno
      exact .inr ⟨⟨before, since, hold, hno.1⟩, Ne.symm hno.2⟩
  · rintro (rfl | ⟨⟨before, since, hlog, hno⟩, he⟩)
    · exact ⟨log, [], rfl, List.not_mem_nil⟩
    · refine ⟨before, since ++ [e], ?_, ?_⟩
      · have hlog : log = before ++ (.createNewStreamSource id, true) :: since := hlog
        show log ++ [e] = _
        rw [hlog, List.append_assoc, List.cons_append]
      · rw [List.mem_append, List.mem_singleton]
        intro h
        exact h.elim hno (Ne.symm he)

/-- What every call keeps. -/
structure Inv (n : ℕ) (w : Admission) : Prop where
  maxClients_eq : w.sub.maxClients = max 1 n
  card_le : w.sub.activeClientSessions.card ≤ max 1 n
  mem_iff : ∀ id, id ∈ w.sub.activeClientSessions ↔ id ≠ 0 ∧ w.Holds id

variable {n : ℕ} {w : Admission}

theorem Inv.zero_notMem (hi : w.Inv n) : (0 : UInt32) ∉ w.sub.activeClientSessions :=
  fun h => ((hi.mem_iff 0).mp h).1 rfl

theorem inv_new (type : StreamType) (codec : CodecType) (n : ℕ) (reuse : Bool) :
    Inv n ⟨.new type codec n reuse, []⟩ := by
  refine ⟨maxClients_new .., Nat.zero_le _, fun id => ⟨fun h => ?_, ?_⟩⟩
  · exact absurd h (Finset.notMem_empty id)
  · rintro ⟨-, before, since, hlog, -⟩
    exact absurd hlog.symm (by simp)

theorem Inv.call (hi : w.Inv n) (c : SubsessionCall) : (w.call c).Inv n := by
  obtain ⟨sub, log⟩ := w
  cases c with
  | createNewStreamSource id =>
    refine ⟨createNewStreamSource_maxClients.trans hi.maxClients_eq, ?_, ?_⟩
    · have h : (sub.createNewStreamSource id).2.activeClientSessions.card ≤ sub.maxClients :=
        card_createNewStreamSource_le (hi.maxClients_eq.symm ▸ hi.card_le)
      exact hi.maxClients_eq ▸ h
    · intro x
      show x ∈ (sub.createNewStreamSource id).2.activeClientSessions ↔
        x ≠ 0 ∧ Holds ⟨_, log ++ [_]⟩ x
      rw [mem_createNewStreamSource, holds_concat sub, hi.mem_iff x]
      constructor
      · rintro (⟨h0, hx⟩ | ⟨rfl, h0, ha⟩)
        · exact ⟨h0, .inr ⟨hx, by simp⟩⟩
        · exact ⟨h0, .inl (by rw [createNewStreamSource_isSome.mpr ha])⟩
      · rintro ⟨h0, he | ⟨hx, -⟩⟩
        · obtain ⟨hid, hsome⟩ := Prod.mk.inj he
          cases hid
          exact .inr ⟨rfl, h0, createNewStreamSource_isSome.mp hsome⟩
        · exact .inl ⟨h0, hx⟩
  | deleteStream id =>
    have h0 : (0 : UInt32) ∉ sub.activeClientSessions := hi.zero_notMem
    refine ⟨deleteStream_maxClients.trans hi.maxClients_eq, ?_, ?_⟩
    · refine (Finset.card_le_card fun x hx => ?_).trans hi.card_le
      exact ((mem_deleteStream h0).mp hx).1
    · intro x
      show x ∈ (sub.deleteStream id).activeClientSessions ↔ x ≠ 0 ∧ Holds ⟨_, log ++ [_]⟩ x
      rw [mem_deleteStream h0, holds_concat sub, hi.mem_iff x]
      constructor
      · rintro ⟨⟨hx0, hx⟩, hne⟩
        exact ⟨hx0, .inr ⟨hx, by simpa using Ne.symm hne⟩⟩
      · rintro ⟨hx0, he | ⟨hx, hne⟩⟩
        · exact absurd he (by simp)
        · exact ⟨⟨hx0, hx⟩, by simpa [eq_comm] using hne⟩

theorem inv_after (type : StreamType) (codec : CodecType) (n : ℕ) (reuse : Bool)
    (calls : List SubsessionCall) : (after type codec n reuse calls).Inv n := by
  unfold after
  suffices ∀ w : Admission, w.Inv n → (calls.foldl Admission.call w).Inv n from
    this _ (inv_new type codec n reuse)
  induction calls with
  | nil => exact fun w hi => hi
  | cons c calls ih => exact fun w hi => ih _ (hi.call c)

/-- What a limit of `n` client sessions means for the next call: who is active, who is granted a
source, and what a session that leaves frees. -/
structure Exact (n : ℕ) (w : Admission) : Prop where
  active_iff : ∀ id, id ∈ w.sub.activeClientSessions ↔ id ≠ 0 ∧ w.Holds id
  card_le : w.sub.activeClientSessions.card ≤ max 1 n
  describe : (w.sub.createNewStreamSource 0).1.isSome = true ∧
    (w.sub.createNewStreamSource 0).2 = w.sub
  granted_iff : ∀ id, id ≠ 0 → ((w.sub.createNewStreamSource id).1.isSome = true ↔
    id ∈ w.sub.activeClientSessions ∨ w.sub.activeClientSessions.card < max 1 n)
  refused : ∀ id, (w.sub.createNewStreamSource id).1 = none →
    (w.sub.createNewStreamSource id).2 = w.sub
  freed : ∀ id, id ∈ w.sub.activeClientSessions →
    (w.sub.deleteStream id).activeClientSessions = w.sub.activeClientSessions.erase id ∧
      (w.sub.deleteStream id).activeClientSessions.card + 1 = w.sub.activeClientSessions.card
  unknown : ∀ id, id ∉ w.sub.activeClientSessions → w.sub.deleteStream id = w.sub

theorem Inv.exact (hi : w.Inv n) : w.Exact n := by
  refine ⟨hi.mem_iff, hi.card_le, ?_, ?_, ?_, ?_, fun id h => deleteStream_of_not_mem h⟩
  · exact createNewStreamSource_of_admits (.inl rfl)
  · intro id hid
    rw [createNewStreamSource_isSome, Admits, hi.maxClients_eq]
    exact or_iff_right hid
  · intro id h
    by_cases ha : w.sub.Admits id
    · have hsome := createNewStreamSource_isSome.mpr ha
      rw [h] at hsome
      cases hsome
    · rw [createNewStreamSource_of_not_admits ha]
  · intro id h
    have hid : id ≠ 0 := ((hi.mem_iff id).mp h).1
    have heq : (w.sub.deleteStream id).activeClientSessions =
        w.sub.activeClientSessions.erase id := by
      unfold deleteStream
      rw [if_pos hid]
    refine ⟨heq, ?_⟩
    rw [heq, Finset.card_erase_add_one h]

/-- **Admission is exact.** After any sequence of calls on a new subsession, for any limit. -/
theorem admission_exact (type : StreamType) (codec : CodecType) (maxClients : ℕ)
    (reuseFirstSource : Bool) (calls : List SubsessionCall) :
    (after type codec maxClients reuseFirstSource calls).Exact maxClients :=
  (inv_after type codec maxClients reuseFirstSource calls).exact

/-- **Failed creations.** After any sequence of calls, a call that returns `NULL` leaves the
subsession as it is: it comes for another session than those active, which fill the limit. -/
theorem failedCreation_untouched {type : StreamType} {codec : CodecType} {maxClients : ℕ}
    {reuseFirstSource : Bool} {calls : List SubsessionCall} {id : UInt32}
    (h : ((after type codec maxClients reuseFirstSource calls).sub.createNewStreamSource id).1 =
      none) :
    ((after type codec maxClients reuseFirstSource calls).sub.createNewStreamSource id).2 =
        (after type codec maxClients reuseFirstSource calls).sub ∧
      id ≠ 0 ∧
      id ∉ (after type codec maxClients reuseFirstSource calls).sub.activeClientSessions ∧
      (after type codec maxClients reuseFirstSource calls).sub.activeClientSessions.card =
        max 1 maxClients := by
  have hi := inv_after type codec maxClients reuseFirstSource calls
  have hno : ¬ (after type codec maxClients reuseFirstSource calls).sub.Admits id := by
    intro ha
    have hsome := createNewStreamSource_isSome.mpr ha
    rw [h] at hsome
    cases hsome
  rw [createNewStreamSource_of_not_admits hno]
  unfold Admits at hno
  push Not at hno
  obtain ⟨h0, hmem, hfull⟩ := hno
  rw [hi.maxClients_eq] at hfull
  exact ⟨rfl, h0, hmem, Nat.le_antisymm hi.card_le hfull⟩

/-- Session 7 streams, session 8 is refused, and session 7 keeps its slot. -/
theorem failedCreation_untouched_limit :
    ((after .videoMain .h265 1 false [.createNewStreamSource 7]).sub.createNewStreamSource 8).2 =
        (after .videoMain .h265 1 false [.createNewStreamSource 7]).sub ∧
      7 ∈ (after .videoMain .h265 1 false
        [.createNewStreamSource 7]).sub.activeClientSessions :=
  ⟨(failedCreation_untouched rfl).1, by decide⟩

end Admission

end Eye
