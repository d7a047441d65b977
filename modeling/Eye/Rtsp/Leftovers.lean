import Eye.Rtsp.Playback

/-!
# Frames of an old session

The design wants a queue without clients to stay empty. Nothing clears it: `clear` has no caller.

`fresh_of_startsEmpty`: no source is handed a NAL unit that is older than its registration, and none
finds one when it registers alone, if the queue is empty whenever a source registers, as `clear`
would leave it. For that the last source has to leave an empty queue behind, and no push may come
when the source that let it through was the last and is gone.
-/

namespace Eye.Playback

/-- Every source has been handed only what was pushed at or after its registration, and none has
found NAL units when it registered as the only source. -/
structure Fresh (w : Playback) : Prop where
  since : ∀ s : SourceId, ∀ x ∈ w.handed s, w.registeredAt s ≤ x.2
  empty : w.foundLeftover = false

/-- A source registers on an empty queue. -/
def StartsEmpty (w : Playback) : Action → Prop
  | .register _ => w.queue.nals = []
  | .unregister _ | .check _ | .push _ | .pop _ => True

/-- The last source leaves an empty queue; a push finds a source. -/
def LeavesEmpty (w : Playback) : Action → Prop
  | .unregister s => w.queue.activeSources.erase s = [] → w.queue.nals = []
  | .push _ => w.queue.activeSources ≠ []
  | .register _ | .check _ | .pop _ => True

instance (w : Playback) : (a : Action) → Decidable (w.StartsEmpty a)
  | .register _ => inferInstanceAs (Decidable (_ = _))
  | .unregister _ | .check _ | .push _ | .pop _ => .isTrue trivial

variable {w w' : Playback} {a : Action} {s : SourceId}

theorem hasActiveSources_eq_false :
    w.queue.hasActiveSources = false ↔ w.queue.activeSources = [] := by
  unfold RtspFrameQueue.hasActiveSources
  rw [Bool.not_eq_false', List.isEmpty_iff]

theorem Fresh.register (hf : w.Fresh) (s : SourceId)
    (hidle : w.queue.activeSources = [] → w.queue.nals = []) : (w.register s).Fresh := by
  constructor
  · intro s' x hx
    unfold Playback.register at hx ⊢
    dsimp only at hx ⊢
    by_cases hs : s' = s
    · rw [hs, Function.update_self] at hx
      simp at hx
    · rw [Function.update_of_ne hs] at hx ⊢
      exact hf.since s' x hx
  · show (w.foundLeftover || (!w.queue.hasActiveSources && !w.queue.nals.isEmpty)) = false
    rw [hf.empty, Bool.false_or]
    cases h : w.queue.hasActiveSources with
    | true => rfl
    | false =>
      rw [hidle (hasActiveSources_eq_false.mp h)]
      rfl

theorem Fresh.pop (hf : w.Fresh) (hq : w.queue.Wf)
    (hc : ∀ x ∈ w.queue.nals, w.registeredAt s ≤ x.2) : (w.pop s).Fresh := by
  rcases pop_cases hq s with ⟨-, h⟩ | ⟨x, hnals, -, h⟩
  · rw [h]
    exact hf
  · rw [h]
    refine ⟨?_, hf.empty⟩
    intro s' y hy
    dsimp only at hy ⊢
    by_cases hs : s' = s
    · subst hs
      rw [Function.update_self] at hy
      rcases List.mem_append.mp hy with hy | hy
      · exact hf.since s' y hy
      · rw [List.mem_singleton.mp hy]
        exact hc x (by simp [hnals])
    · rw [Function.update_of_ne hs] at hy
      exact hf.since s' y hy

theorem activeSources_pop (w : Playback) (s : SourceId) :
    (w.pop s).queue.activeSources = w.queue.activeSources := by
  have h := RtspFrameQueue.popNalUnit_activeSources w.queue
  unfold pop
  rcases hp : w.queue.popNalUnit with ⟨_ | x, q⟩ <;> rw [hp] at h <;> exact h

/-! ## Starting on an empty queue -/

/-- The queue holds nothing that is older than an active source. -/
structure EmptyInv (w : Playback) : Prop where
  inv : w.Inv
  fresh : w.Fresh
  registered_le : ∀ s : SourceId, w.registeredAt s ≤ w.pushed.length
  young : ∀ s ∈ w.queue.activeSources, ∀ x ∈ w.queue.nals, w.registeredAt s ≤ x.2

theorem emptyInv_new (n : ℕ) : (new n).EmptyInv := by
  refine ⟨inv_new n, ⟨?_, rfl⟩, fun _ => Nat.zero_le _, ?_⟩
  · intro s x hx
    simp [new] at hx
  · intro s hs
    simp [new, RtspFrameQueue.new] at hs

theorem EmptyInv.register (hi : w.EmptyInv) (s : SourceId) (hempty : w.queue.nals = []) :
    (w.register s).EmptyInv := by
  refine ⟨⟨⟨hi.inv.wf.ne_nil, hi.inv.wf.length_le⟩, hi.inv.sorted, hi.inv.lt, hi.inv.admitted_ne⟩,
    ?_, ?_, ?_⟩
  · exact hi.fresh.register s fun _ => hempty
  · intro s'
    show Function.update w.registeredAt s w.pushed.length s' ≤ w.pushed.length
    by_cases hs : s' = s
    · simp [hs]
    · rw [Function.update_of_ne hs]
      exact hi.registered_le s'
  · intro s' _ x hx
    have hx : x ∈ w.queue.nals := hx
    simp [hempty] at hx

theorem EmptyInv.push (hi : w.EmptyInv) (i : ℕ) (nals : RtspAccessUnit RtspNalUnit) :
    (w.push i nals).EmptyInv := by
  obtain ⟨kept, hsub, hnals⟩ :=
    RtspFrameQueue.nals_pushAccessUnit hi.inv.wf (number w.pushed.length nals)
  refine ⟨hi.inv.push i nals, ⟨hi.fresh.since, hi.fresh.empty⟩, ?_, ?_⟩
  · intro s
    have hle := hi.registered_le s
    show w.registeredAt s ≤ (w.pushed ++ [nals]).length
    simp only [List.length_append, List.length_singleton]
    omega
  · intro s hs x hx
    have hs : s ∈ (w.queue.pushAccessUnit (number w.pushed.length nals)).activeSources := hs
    have hx : x ∈ (w.queue.pushAccessUnit (number w.pushed.length nals)).nals := hx
    rw [RtspFrameQueue.pushAccessUnit_activeSources] at hs
    rw [hnals] at hx
    show w.registeredAt s ≤ x.2
    rcases List.mem_append.mp hx with hx | hx
    · exact hi.young s hs x (hsub.subset hx)
    · rw [mem_number hx]
      exact hi.registered_le s

theorem EmptyInv.pop (hi : w.EmptyInv) (hs : s ∈ w.queue.activeSources) : (w.pop s).EmptyInv := by
  have hfresh := hi.fresh.pop hi.inv.wf (hi.young s hs)
  have hactive := activeSources_pop w s
  refine ⟨hi.inv.pop s, hfresh, ?_, ?_⟩ <;>
    rcases pop_cases hi.inv.wf s with ⟨-, h⟩ | ⟨x, hnals, -, h⟩
  · rw [h]
    exact hi.registered_le
  · rw [h]
    exact hi.registered_le
  · rw [h]
    exact hi.young
  · intro s' hs' y hy
    rw [hactive] at hs'
    have hold := hi.young s' hs' y (by rw [hnals]; exact List.mem_cons_of_mem _ hy)
    rw [h]
    exact hold

theorem EmptyInv.step (hi : w.EmptyInv) (hc : w.StartsEmpty a) (h : w.step a = some w') :
    w'.EmptyInv := by
  have hstep := Step.of_step h
  have hinv := hi.inv.step hstep
  cases hstep with
  | register hs => exact hi.register _ hc
  | unregister hs =>
    refine ⟨hinv, ⟨hi.fresh.since, hi.fresh.empty⟩, hi.registered_le, ?_⟩
    intro s hs
    exact hi.young s (List.mem_of_mem_erase hs)
  | ignored => exact hi
  | admitted => exact ⟨hinv, ⟨hi.fresh.since, hi.fresh.empty⟩, hi.registered_le, hi.young⟩
  | push ha => exact hi.push _ _
  | pop hs => exact hi.pop hs

/-! ## What is left behind -/

/-- NAL units wait in a queue without sources. -/
structure Left (w : Playback) : Prop where
  inv : w.Inv
  sources : w.queue.activeSources = []
  nals : w.queue.nals ≠ []

theorem left_push {i : ℕ} {nals : RtspAccessUnit RtspNalUnit} (hi : w.Inv)
    (ha : w.admitted[i]? = some nals) (hs : w.queue.activeSources = []) : (w.push i nals).Left := by
  have hn : nals ≠ [] := hi.admitted_ne nals (List.mem_of_getElem? ha)
  obtain ⟨kept, -, hnals⟩ :=
    RtspFrameQueue.nals_pushAccessUnit hi.wf (number w.pushed.length nals)
  refine ⟨hi.push i nals, ?_, ?_⟩
  · exact (RtspFrameQueue.pushAccessUnit_activeSources ..).trans hs
  · show (w.queue.pushAccessUnit _).nals ≠ []
    rw [hnals]
    exact List.append_ne_nil_of_right_ne_nil _ (by rwa [ne_eq, number_eq_nil])

/-- What waits there is found by the next source. -/
theorem Left.step (hl : w.Left) (h : w.step a = some w') (hf : w'.Fresh) : w'.Left := by
  have hnone : ∀ s : SourceId, s ∉ w.queue.activeSources := by
    intro s
    simp [hl.sources]
  cases Step.of_step h with
  | @register s hs =>
    have hfound := hf.empty
    unfold Playback.register at hfound
    dsimp only at hfound
    rw [hasActiveSources_eq_false.mpr hl.sources, Bool.or_eq_false_iff] at hfound
    exact absurd (by simpa using hfound.2) hl.nals
  | unregister hs | pop hs => exact absurd hs (hnone _)
  | ignored => exact hl
  | admitted hactive =>
    rw [hasActiveSources_eq_false.mpr hl.sources] at hactive
    cases hactive
  | push ha => exact left_push hl.inv ha hl.sources

/-- While every source leaves an empty queue, a queue without sources is empty. -/
structure LeavesInv (w : Playback) : Prop where
  inv : w.Inv
  idle : w.queue.activeSources = [] → w.queue.nals = []

theorem LeavesInv.step (hi : w.LeavesInv) (hc : w.LeavesEmpty a) (h : w.step a = some w') :
    w'.LeavesInv := by
  have hstep := Step.of_step h
  refine ⟨hi.inv.step hstep, ?_⟩
  cases hstep with
  | register hs =>
    intro hempty
    simp [Playback.register, RtspFrameQueue.registerSource] at hempty
  | unregister hs => exact hc
  | ignored | admitted => exact hi.idle
  | push ha =>
    intro hempty
    refine absurd ?_ hc
    rw [← hempty]
    exact (RtspFrameQueue.pushAccessUnit_activeSources ..).symm
  | pop hs =>
    intro hempty
    rw [activeSources_pop] at hempty
    simp [hempty] at hs

theorem LeavesInv.left (hi : w.LeavesInv) (hc : ¬ w.LeavesEmpty a) (h : w.step a = some w') :
    w'.Left := by
  cases Step.of_step h with
  | register | ignored | admitted | pop => exact absurd trivial hc
  | unregister hs =>
    obtain ⟨hempty, hnals⟩ := Classical.not_imp.mp hc
    exact ⟨hi.inv.step (.unregister hs), hempty, hnals⟩
  | push ha => exact left_push hi.inv ha (Classical.not_not.mp hc)

/-! ## Whole runs -/

/-- **No frames of an old session.** For every size of the queue and every run: if every source
registers on an empty queue, every state is fresh. And a run that is fresh throughout, and does not
end with NAL units in a queue without sources, has every last source leave an empty queue and every
push find a source. -/
theorem fresh_of_startsEmpty (n : ℕ) (as : List Action) :
    (machine.Along StartsEmpty (new n) as → machine.Always Fresh (new n) as) ∧
      ∀ t, machine.run (new n) as = some t →
        (t.queue.activeSources = [] → t.queue.nals = []) →
        machine.Always Fresh (new n) as → machine.Along LeavesEmpty (new n) as := by
  constructor
  · intro h
    exact h.always (emptyInv_new n) (fun _ _ _ hi hc hs => hi.step hc hs) fun _ hi => hi.fresh
  · intro t hrun hend halways
    have hstart : (new n).LeavesInv := ⟨inv_new n, fun _ => rfl⟩
    exact Machine.along_of_always halways hstart (fun _ _ _ hi hc hs => hi.step hc hs)
      (fun _ _ _ hi hc hs _ => hi.left hc hs) (fun _ _ _ hl hs hf => hl.step hs hf) hrun
      fun hl => hl.nals (hend hl.sources)

/-- A NAL unit of one byte. -/
def nal (b : UInt8) (isIdr : Bool) : RtspNalUnit := ⟨⟨[b], (by decide : 1 < 2 ^ 32)⟩, 0, isIdr⟩

/-- A client leaves before it has read its last access unit; the next one gets it. -/
def reconnect : List Action :=
  [.register 0, .check [nal 0x41 false], .push 0, .unregister 0, .register 1, .pop 1]

/-- The push comes after the client that let it through has left. -/
def latePush : List Action :=
  [.register 0, .check [nal 0x41 false], .unregister 0, .push 0, .register 1, .pop 1]

/-- The temporary source of a DESCRIBE reads what waits for the client. -/
def describeReads : List Action :=
  [.register 0, .check [nal 0x41 false], .push 0, .register 1, .pop 1]

theorem fresh_broken :
    ¬ machine.Always Fresh (new 5) reconnect ∧ ¬ machine.Always Fresh (new 5) latePush ∧
      ¬ machine.Always Fresh (new 5) describeReads := by
  have hlast : ∀ (as : List Action) (w : Playback) (x : RtspNalUnit × ℕ),
      machine.run (new 5) as = some w → x ∈ w.handed 1 → x.2 < w.registeredAt 1 →
      ¬ machine.Always Fresh (new 5) as := by
    intro as w x hrun hx hlt h
    have hle := (h.last hrun).since 1 x hx
    exact Nat.not_lt.mpr hle hlt
  exact ⟨hlast _ _ (nal 0x41 false, 0) rfl (by decide) (by decide),
    hlast _ _ (nal 0x41 false, 0) rfl (by decide) (by decide),
    hlast _ _ (nal 0x41 false, 0) rfl (by decide) (by decide)⟩

/-- The client reads everything before it leaves. -/
def readsAll : List Action :=
  [.register 0, .check [nal 0x65 true], .push 0, .pop 0, .unregister 0, .register 1]

theorem fresh_of_startsEmpty_readsAll :
    machine.Always Fresh (new 5) readsAll ∧ machine.Along LeavesEmpty (new 5) readsAll := by
  have h := (fresh_of_startsEmpty 5 readsAll).1 (Machine.Along.of_checks (by decide))
  exact ⟨h, (fresh_of_startsEmpty 5 readsAll).2 _ rfl (by decide) h⟩

end Eye.Playback
