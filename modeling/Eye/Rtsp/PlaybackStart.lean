import Eye.Rtsp.Leftovers

/-!
# Where playback starts

The design wants a client to start at an IDR access unit. `is_idr` is stored with every NAL unit and
read by nothing: a source is handed whatever is first in the queue.

`decodable_of_begins`: playback starts at a decodable point if each source registers alone on an
empty queue, the first access unit that comes then is an IDR access unit, and the queue does not
overflow before that one has been handed over. Then a source that has not started pops only from an
IDR access unit.
-/

namespace Eye.Playback

/-- The access unit of push `n` contains an IDR NAL unit. -/
def IsIdr (w : Playback) (n : ℕ) : Prop := ∃ u ∈ w.pushed[n]?, u.any RtspNalUnit.isIdr = true

/-- A whole IDR access unit is among what has been handed over. -/
def Started (w : Playback) (handed : List (RtspNalUnit × ℕ)) : Prop :=
  ∃ p ∈ w.pushed.zipIdx, p.1.any RtspNalUnit.isIdr = true ∧ (number p.2 p.1).Sublist handed

instance (w : Playback) (n : ℕ) : Decidable (w.IsIdr n) :=
  inferInstanceAs (Decidable (∃ u ∈ w.pushed[n]?, _))

instance (w : Playback) (handed : List (RtspNalUnit × ℕ)) : Decidable (w.Started handed) :=
  inferInstanceAs (Decidable (∃ p ∈ w.pushed.zipIdx, _))

/-- No source has been handed a NAL unit of an access unit without IDR before it was handed all of
an access unit with one. -/
def Decodable (w : Playback) : Prop :=
  ∀ (s : SourceId) (before after : List (RtspNalUnit × ℕ)) (x : RtspNalUnit × ℕ),
    w.handed s = before ++ x :: after → w.IsIdr x.2 ∨ w.Started before

/-- A source that has not started pops from an IDR access unit. -/
def StartsAtIdr (w : Playback) : Action → Prop
  | .pop s => ∀ x ∈ w.queue.nals.head?, w.IsIdr x.2 ∨ w.Started (w.handed s)
  | .register _ | .unregister _ | .check _ | .push _ => True

/-- Sources register alone on an empty queue; while a source has not started, the queue has room,
and the first access unit it gets is an IDR access unit. -/
def Begins (w : Playback) : Action → Prop
  | .register _ => w.queue.activeSources = [] ∧ w.queue.queue = []
  | .push i => ∀ s ∈ w.queue.activeSources, ¬ w.Started (w.handed s) →
      w.queue.queue.length < w.queue.maxQueueSize ∧
        (w.queue.queue = [] → w.handed s = [] →
          ∀ u ∈ w.admitted[i]?, u.any RtspNalUnit.isIdr = true)
  | .unregister _ | .check _ | .pop _ => True

instance (w : Playback) : (a : Action) → Decidable (w.Begins a)
  | .register _ => inferInstanceAs (Decidable (_ ∧ _))
  | .push _ => inferInstanceAs (Decidable (∀ s ∈ w.queue.activeSources, _ → _ ∧ _))
  | .unregister _ | .check _ | .pop _ => .isTrue trivial

variable {w w' : Playback} {a : Action} {s : SourceId} {i n : ℕ}
  {nals u : RtspAccessUnit RtspNalUnit} {handed handed' : List (RtspNalUnit × ℕ)}

/-! ## Later pushes -/

theorem IsIdr.mono (h : w.IsIdr n) (hp : w.pushed <+: w'.pushed) : w'.IsIdr n := by
  obtain ⟨u, hu, hidr⟩ := h
  obtain ⟨more, hp⟩ := hp
  refine ⟨u, ?_, hidr⟩
  rw [← hp, List.getElem?_append_left (List.getElem?_eq_some_iff.mp hu).1]
  exact hu

theorem Started.mono (h : w.Started handed) (hp : w.pushed <+: w'.pushed)
    (hh : handed.Sublist handed') : w'.Started handed' := by
  obtain ⟨p, hmem, hidr, hsub⟩ := h
  obtain ⟨more, hp⟩ := hp
  refine ⟨p, ?_, hidr, hsub.trans hh⟩
  rw [← hp, List.zipIdx_append]
  exact List.mem_append_left _ hmem

theorem Step.pushed (h : Step w a w') : w.pushed <+: w'.pushed := by
  cases h with
  | register | unregister | ignored | admitted => exact List.prefix_rfl
  | push => exact List.prefix_append ..
  | @pop s hs =>
    unfold Playback.pop
    split <;> exact List.prefix_rfl

/-! ## What a pop hands over -/

theorem decodable_new (n : ℕ) : (new n).Decodable := by
  intro s before after x h
  simp [new] at h

theorem Decodable.concat (hd : w.Decodable) {x : RtspNalUnit × ℕ}
    (hx : w.IsIdr x.2 ∨ w.Started (w.handed s)) {before after : List (RtspNalUnit × ℕ)}
    {y : RtspNalUnit × ℕ} (h : w.handed s ++ [x] = before ++ y :: after) :
    w.IsIdr y.2 ∨ w.Started before := by
  rcases List.eq_nil_or_concat after with rfl | ⟨after, z, rfl⟩
  · obtain ⟨hb, hy⟩ := List.append_inj' h rfl
    cases hy
    exact hb ▸ hx
  · rw [List.concat_eq_append, ← List.cons_append, ← List.append_assoc] at h
    exact hd s before after y (List.append_inj' h rfl).1

theorem Decodable.step (hi : w.Inv) (hd : w.Decodable) (hc : w.StartsAtIdr a) (h : Step w a w') :
    w'.Decodable := by
  have hp := h.pushed
  have hold : ∀ (s : SourceId), w'.handed s = w.handed s →
      ∀ before after x, w'.handed s = before ++ x :: after → w'.IsIdr x.2 ∨ w'.Started before := by
    intro s hs before after x hx
    exact (hd s before after x (hs ▸ hx)).imp (·.mono hp) (·.mono hp (List.Sublist.refl _))
  intro s before after x hx
  cases h with
  | @register s' hs' =>
    by_cases hne : s = s'
    · rw [hne, show (w.register s').handed s' = [] from Function.update_self ..] at hx
      simp at hx
    · exact hold s (Function.update_of_ne hne ..) before after x hx
  | unregister | ignored | admitted | push => exact hold s rfl before after x hx
  | @pop s' hs' =>
    rcases pop_cases hi.wf s' with ⟨-, h⟩ | ⟨y, hnals, -, h⟩
    · exact hold s (by rw [h]) before after x hx
    · by_cases hne : s = s'
      · subst hne
        have hy := hc y (by rw [hnals]; rfl)
        rw [h] at hx ⊢
        dsimp only at hx
        rw [Function.update_self] at hx
        exact hd.concat hy hx
      · refine hold s ?_ before after x hx
        rw [h]
        exact Function.update_of_ne hne ..

/-! ## A condition on the pushes -/

/-- A source that has not started waits on an empty queue, or is being handed the IDR access unit
that is first there. -/
def Waits (w : Playback) (s : SourceId) : Prop :=
  (w.handed s = [] ∧ w.queue.queue = []) ∨
    ∃ n u rest units, w.pushed[n]? = some u ∧ u.any RtspNalUnit.isIdr = true ∧
      w.handed s ++ rest = number n u ∧ rest ≠ [] ∧ w.queue.queue = rest :: units

/-- At most one source is active, and it has started or waits. -/
structure BeginInv (w : Playback) : Prop where
  inv : w.Inv
  alone : w.queue.activeSources.length ≤ 1
  waits : ∀ s ∈ w.queue.activeSources, w.Started (w.handed s) ∨ w.Waits s

theorem beginInv_new (n : ℕ) : (new n).BeginInv := by
  refine ⟨inv_new n, Nat.zero_le _, ?_⟩
  intro s hs
  simp [new, RtspFrameQueue.new] at hs

theorem Waits.push (hi : w.Inv) (hw : w.Waits s) (ha : w.admitted[i]? = some nals)
    (hroom : w.queue.queue.length < w.queue.maxQueueSize)
    (hidr : w.queue.queue = [] → w.handed s = [] → nals.any RtspNalUnit.isIdr = true) :
    (w.push i nals).Waits s := by
  have hn : nals ≠ [] := hi.admitted_ne nals (List.mem_of_getElem? ha)
  have hq : (w.push i nals).queue.queue = w.queue.queue ++ [number w.pushed.length nals] := by
    refine (RtspFrameQueue.queue_pushAccessUnit hi.wf (by rwa [ne_eq, number_eq_nil])).trans ?_
    unfold DropOldest.push DropOldest.kept
    rw [if_pos hroom]
  right
  rcases hw with ⟨hh, hempty⟩ | ⟨n, u, rest, units, hu, hui, hsplit, hr, hunits⟩
  · refine ⟨w.pushed.length, nals, number w.pushed.length nals, [], ?_, hidr hempty hh, ?_, ?_, ?_⟩
    · exact List.getElem?_concat_length
    · show w.handed s ++ _ = _
      rw [hh, List.nil_append]
    · rwa [ne_eq, number_eq_nil]
    · rw [hq, hempty, List.nil_append]
  · refine ⟨n, u, rest, units ++ [number w.pushed.length nals], ?_, hui, hsplit, hr, ?_⟩
    · show (w.pushed ++ [nals])[n]? = some u
      rw [List.getElem?_append_left (List.getElem?_eq_some_iff.mp hu).1, hu]
    · rw [hq, hunits, List.cons_append]

/-- A pop hands over one more NAL unit of the access unit, or the last one. -/
theorem Waits.pop (hi : w.Inv) (hw : w.Waits s) :
    (w.pop s).Started ((w.pop s).handed s) ∨ (w.pop s).Waits s := by
  rcases hw with ⟨hh, hempty⟩ | ⟨n, u, rest, units, hu, hui, hsplit, hr, hunits⟩
  · rcases pop_cases hi.wf s with ⟨-, h⟩ | ⟨x, hnals, -⟩
    · rw [h]
      exact .inr (.inl ⟨hh, hempty⟩)
    · rw [(RtspFrameQueue.nals_eq_nil hi.wf).mpr hempty] at hnals
      cases hnals
  · obtain ⟨x, rest, rfl⟩ := List.exists_cons_of_ne_nil hr
    have hpop : w.pop s = { w with
        queue := { w.queue with queue := if rest.isEmpty then units else rest :: units }
        handed := Function.update w.handed s (w.handed s ++ [x]) } := by
      unfold Playback.pop
      rw [RtspFrameQueue.popNalUnit_cons hunits]
    have hsplit' : (w.handed s ++ [x]) ++ rest = number n u := by
      rw [List.append_assoc, List.singleton_append, hsplit]
    rw [hpop]
    dsimp only
    rw [Function.update_self]
    cases rest with
    | nil =>
      left
      refine ⟨(u, n), List.mem_zipIdx_iff_getElem?.mpr hu, hui, ?_⟩
      rw [← hsplit', List.append_nil]
    | cons y rest =>
      right
      right
      refine ⟨n, u, y :: rest, units, hu, hui, ?_, List.cons_ne_nil _ _, rfl⟩
      dsimp only
      rw [Function.update_self, hsplit']

theorem BeginInv.step (hi : w.BeginInv) (hc : w.Begins a) (h : Step w a w') : w'.BeginInv := by
  refine ⟨hi.inv.step h, ?_, ?_⟩
  · cases h with
    | @register s hs =>
      show (w.queue.activeSources ++ [s]).length ≤ 1
      rw [hc.1]
      exact Nat.le_refl _
    | @unregister s hs =>
      have hlen : (w.queue.activeSources.erase s).length ≤ _ := List.length_erase_le
      have halone := hi.alone
      show (w.queue.activeSources.erase s).length ≤ 1
      omega
    | ignored | admitted => exact hi.alone
    | push ha =>
      exact Nat.le_trans (Nat.le_of_eq (congrArg List.length
        (RtspFrameQueue.pushAccessUnit_activeSources ..))) hi.alone
    | pop hs =>
      rw [activeSources_pop]
      exact hi.alone
  · intro s hs
    cases h with
    | @register s' hs' =>
      have hs : s ∈ w.queue.activeSources ++ [s'] := hs
      rw [hc.1, List.nil_append, List.mem_singleton] at hs
      subst hs
      exact .inr (.inl ⟨Function.update_self .., hc.2⟩)
    | @unregister s' hs' =>
      -- the only source is gone
      have hs : s ∈ w.queue.activeSources.erase s' := hs
      have hlen := List.length_erase_of_mem hs'
      have := hi.alone
      have hempty : w.queue.activeSources.erase s' = [] :=
        List.eq_nil_of_length_eq_zero (by omega)
      simp [hempty] at hs
    | ignored | admitted => exact hi.waits s hs
    | @push i nals ha =>
      have hs : s ∈ w.queue.activeSources := by
        rwa [show (w.push i nals).queue.activeSources = w.queue.activeSources from
          RtspFrameQueue.pushAccessUnit_activeSources ..] at hs
      by_cases hst : w.Started (w.handed s)
      · exact .inl (hst.mono (List.prefix_append ..) (List.Sublist.refl _))
      · obtain ⟨hroom, hidr⟩ := hc s hs hst
        exact .inr (((hi.waits s hs).resolve_left hst).push hi.inv ha hroom
          fun hq hh => hidr hq hh nals ha)
    | @pop s' hs' =>
      rw [activeSources_pop] at hs
      -- one source only, so the one that pops
      have hss : s = s' := by
        have halone := hi.alone
        have hpos := List.length_pos_of_mem hs
        obtain ⟨x, hx⟩ := List.length_eq_one_iff.mp
          (show w.queue.activeSources.length = 1 by omega)
        rw [hx, List.mem_singleton] at hs hs'
        rw [hs, hs']
      subst hss
      rcases hi.waits s hs with hst | hw
      · left
        refine hst.mono (Step.pop hs).pushed ?_
        rcases pop_cases hi.inv.wf s with ⟨-, h⟩ | ⟨x, -, -, h⟩ <;> rw [h]
        dsimp only
        rw [Function.update_self]
        exact List.sublist_append_left ..
      · exact hw.pop hi.inv

theorem BeginInv.startsAtIdr (hi : w.BeginInv) (h : Step w a w') : w.StartsAtIdr a := by
  cases h with
  | register | unregister | ignored | admitted | push => trivial
  | @pop s hs =>
    intro x hx
    rcases hi.waits s hs with hst | ⟨-, hempty⟩ | ⟨n, u, rest, units, hu, hui, hsplit, hr, hunits⟩
    · exact .inr hst
    · rw [(RtspFrameQueue.nals_eq_nil hi.inv.wf).mpr hempty] at hx
      cases hx
    · obtain ⟨y, rest, rfl⟩ := List.exists_cons_of_ne_nil hr
      have hx : x = y := by
        unfold RtspFrameQueue.nals at hx
        rw [hunits] at hx
        exact (Option.some.inj hx).symm
      have hy : y ∈ number n u := by
        rw [← hsplit]
        simp
      have hn : y.2 = n := mem_number hy
      exact .inl ⟨u, by rw [hx, hn]; exact hu, hui⟩

/-! ## Whole runs -/

/-- **Where playback starts.** For every size of the queue and every run: playback starts at a
decodable point in every state if every source begins alone, on an empty queue that does not
overflow, with an IDR access unit. -/
theorem decodable_of_begins {n : ℕ} {as : List Action} (h : machine.Along Begins (new n) as) :
    machine.Always Decodable (new n) as := by
  refine h.always (I := fun w => w.BeginInv ∧ w.Decodable) ⟨beginInv_new n, decodable_new n⟩
    (fun w a w' hi hc hs => ?_) fun _ hi => hi.2
  have hstep := Step.of_step hs
  exact ⟨hi.1.step hc hstep, hi.2.step hi.1.inv (hi.1.startsAtIdr hstep) hstep⟩

/-- A client registers alone on an empty queue, and the next frame is a P frame. -/
def midGop : List Action := [.register 0, .check [nal 0x41 false], .push 0, .pop 0]

theorem decodable_broken : ¬ machine.Always Decodable (new 5) midGop := by
  intro h
  have hd := h.last rfl 0 [] [] (nal 0x41 false, 0) rfl
  revert hd
  decide

/-- The client gets an IDR access unit of two NAL units first. -/
def idrFirst : List Action :=
  [.register 0, .check [nal 0x67 false, nal 0x65 true], .push 0, .check [nal 0x41 false], .push 0,
    .pop 0, .pop 0, .pop 0]

theorem decodable_of_begins_idrFirst :
    machine.Always Decodable (new 5) idrFirst ∧
      (machine.run (new 5) idrFirst).map (fun w => (w.handed 0).length) = some 3 :=
  ⟨decodable_of_begins (Machine.Along.of_checks (by decide)), by decide⟩

end Eye.Playback
