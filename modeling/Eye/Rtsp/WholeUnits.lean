import Mathlib.Data.List.Pairwise
import Eye.Lib.Machine
import Eye.Rtsp.FrameQueueHistory

/-!
# Access units leave the frame queue whole, unless one is cut while it is read

Pushes and pops, interleaved in any order and without `clear`. `LeavesWhole` is the law: what has
been popped is a concatenation of complete access units in push order, except that the last one may
still be being read, its rest first in the queue.

The overflow loop drops whatever is first in the queue. If that is the rest of an access unit being
read, the unit is cut and the law is gone for good; no other step can break it
(`leavesWhole_iff`).
-/

namespace Eye.History

variable {ν : Type}

/-- Pushes and pops only. -/
def readingMachine (n : ℕ) : Machine (History ν) (QueueCall ν) where
  init h := h = new n
  step h c :=
    match c with
    | .clear => none
    | c => some (h.call c)

/-- The popped NAL units are complete access units in push order; the last may still be being
read, and then its rest is first in the queue. -/
def LeavesWhole (h : History ν) : Prop :=
  ∃ whole : List (RtspAccessUnit (ν × ℕ)),
    (h.ledger.left = whole.flatten ∧ whole.Sublist h.pushed) ∨
      ∃ part rest, part ≠ [] ∧ rest ≠ [] ∧ h.ledger.left = whole.flatten ++ part ∧
        (whole ++ [part ++ rest]).Sublist h.pushed ∧ h.queue.queue.head? = some rest

/-- Some but not all NAL units of the first access unit have been popped. -/
def PartlyRead (h : History ν) : Prop :=
  ∃ part rest, part ≠ [] ∧ part ++ rest ∈ h.pushed ∧ h.queue.queue.head? = some rest

/-- The call pushes an access unit and finds the queue full, the first access unit partly read. -/
def Cuts (h : History ν) (c : QueueCall ν) : Prop :=
  c.pushedNals ≠ [] ∧ h.queue.maxQueueSize ≤ h.queue.queue.length ∧ h.PartlyRead

/-! ## The access unit being read -/

/-- Put the part that was read back in front of the first unit. -/
def attach (part : RtspAccessUnit (ν × ℕ)) :
    List (RtspAccessUnit (ν × ℕ)) → List (RtspAccessUnit (ν × ℕ))
  | [] => []
  | u :: rest => (part ++ u) :: rest

@[simp] theorem attach_nil (units : List (RtspAccessUnit (ν × ℕ))) : attach [] units = units := by
  cases units <;> rfl

theorem attach_append {part : RtspAccessUnit (ν × ℕ)} {units : List (RtspAccessUnit (ν × ℕ))}
    (h : units = [] → part = []) (u : RtspAccessUnit (ν × ℕ)) :
    attach part (units ++ [u]) = attach part units ++ [u] := by
  cases units with
  | nil =>
    rw [h rfl]
    rfl
  | cons v rest => rfl

/-- `whole` has been read and `part` of the first unit in the queue. -/
structure Reading (h : History ν) (whole : List (RtspAccessUnit (ν × ℕ)))
    (part : RtspAccessUnit (ν × ℕ)) : Prop where
  left : h.ledger.left = whole.flatten ++ part
  sublist : (whole ++ attach part h.queue.queue).Sublist h.pushed
  idle : h.queue.queue = [] → part = []

variable {n : ℕ} {h h' : History ν} {whole : List (RtspAccessUnit (ν × ℕ))}
  {part : RtspAccessUnit (ν × ℕ)} {c : QueueCall ν}

theorem reading_new (n : ℕ) : (new n : History ν).Reading [] [] := ⟨rfl, .slnil, fun _ => rfl⟩

theorem Reading.partlyRead {rest : RtspAccessUnit (ν × ℕ)} {units : List (RtspAccessUnit (ν × ℕ))}
    (hr : h.Reading whole part) (hq : h.queue.queue = rest :: units) (hp : part ≠ []) :
    h.PartlyRead := by
  have hsub := hr.sublist
  rw [hq] at hsub
  refine ⟨part, rest, hp, hsub.subset ?_, by rw [hq]; rfl⟩
  exact List.mem_append_right _ List.mem_cons_self

theorem Reading.leavesWhole (hi : h.Inv n) (hr : h.Reading whole part) : h.LeavesWhole := by
  have hsub := hr.sublist
  refine ⟨whole, ?_⟩
  by_cases hp : part = []
  · have hleft := hr.left
    rw [hp, List.append_nil] at hleft
    exact .inl ⟨hleft, (List.sublist_append_left _ _).trans hsub⟩
  · cases hq : h.queue.queue with
    | nil => exact absurd (hr.idle hq) hp
    | cons rest units =>
      rw [hq] at hsub
      refine .inr ⟨part, rest, hp, hi.wf.ne_nil rest (hq ▸ List.mem_cons_self), hr.left, ?_, rfl⟩
      refine List.Sublist.trans ?_ hsub
      exact (List.Sublist.refl whole).append (List.singleton_sublist.mpr List.mem_cons_self)

/-! ## Steps that keep the law -/

/-- A push that does not cut the unit being read lets the reader go on. -/
theorem Reading.pushAccessUnit (hi : h.Inv n) (hr : h.Reading whole part) {nals : List ν}
    (hne : nals ≠ []) (hc : ¬ (h.queue.maxQueueSize ≤ h.queue.queue.length ∧ h.PartlyRead)) :
    (h.pushAccessUnit nals).Reading whole part := by
  have hq := queue_pushAccessUnit hi hne
  have hleft := left_pushAccessUnit h nals
  rw [pushAccessUnit_eq hi hne] at hq hleft ⊢
  dsimp only at hq hleft
  have hsub : (whole ++ attach part (DropOldest.kept (max 1 n) h.queue.queue)).Sublist h.pushed ∧
      (DropOldest.kept (max 1 n) h.queue.queue = [] → part = []) := by
    unfold DropOldest.kept
    split_ifs with hlt
    · exact ⟨hr.sublist, hr.idle⟩
    · -- the queue is full, so nothing of its first unit has been read
      have hp : part = [] := by
        by_contra hp
        cases hu : h.queue.queue with
        | nil => exact hp (hr.idle hu)
        | cons rest units =>
          exact hc ⟨by rw [hi.size]; omega, hr.partlyRead hu hp⟩
      have hsub := hr.sublist
      rw [hp, attach_nil] at hsub ⊢
      exact ⟨((List.Sublist.refl whole).append (List.tail_sublist _)).trans hsub, fun _ => rfl⟩
  refine ⟨hleft ▸ hr.left, ?_, ?_⟩
  · dsimp only
    rw [hq, attach_append hsub.2, ← List.append_assoc]
    exact hsub.1.append (List.Sublist.refl _)
  · dsimp only
    rw [hq]
    intro he
    exact absurd he (by simp)

theorem Reading.popNalUnit (hi : h.Inv n) (hr : h.Reading whole part) :
    ∃ whole' part', (h.call .popNalUnit).Reading whole' part' := by
  rcases call_popNalUnit hi with ⟨-, he⟩ | ⟨nal, nals, rest, hq, he⟩
  · rw [he]
    exact ⟨whole, part, hr⟩
  · have hsub := hr.sublist
    rw [hq] at hsub
    have hleft : h.ledger.left ++ [nal] = whole.flatten ++ (part ++ [nal]) := by
      rw [hr.left, List.append_assoc]
    rw [he]
    cases nals with
    | nil =>
      refine ⟨whole ++ [part ++ [nal]], [], ?_, ?_, fun _ => rfl⟩
      · rw [List.flatten_append, List.flatten_singleton, List.append_nil]
        exact hleft
      · rw [attach_nil, List.append_assoc]
        exact hsub
    | cons nal' nals =>
      refine ⟨whole, part ++ [nal], hleft, ?_, fun h0 => absurd h0 (List.cons_ne_nil _ _)⟩
      show (whole ++ ((part ++ [nal]) ++ nal' :: nals) :: rest).Sublist h.pushed
      rw [List.append_assoc]
      exact hsub

/-- The invariant of the runs that keep the law. -/
def Intact (n : ℕ) (h : History ν) : Prop := h.Inv n ∧ ∃ whole part, h.Reading whole part

theorem Intact.step (hI : h.Intact n) (hc : ¬ h.Cuts c)
    (hs : (readingMachine n).step h c = some h') : h'.Intact n := by
  obtain ⟨hi, whole, part, hr⟩ := hI
  have hpush : ∀ nals : List ν, ¬ (nals ≠ [] ∧ h.queue.maxQueueSize ≤ h.queue.queue.length ∧
      h.PartlyRead) → (h.pushAccessUnit nals).Intact n := by
    intro nals hc
    by_cases hne : nals = []
    · rw [hne]
      exact ⟨hi, whole, part, hr⟩
    · exact ⟨hi.pushAccessUnit nals, whole, part,
        hr.pushAccessUnit hi hne fun hf => hc ⟨hne, hf.1, hf.2⟩⟩
  cases c with
  | pushNalUnit nal =>
    cases hs
    exact hpush [nal] hc
  | pushAccessUnit nals =>
    cases hs
    exact hpush nals hc
  | popNalUnit =>
    cases hs
    exact ⟨hi.popNalUnit, hr.popNalUnit hi⟩
  | clear => cases hs

/-! ## The step that breaks it -/

theorem Inv.unit_unique (hi : h.Inv n) {u v : RtspAccessUnit (ν × ℕ)} {x : ν × ℕ}
    (hu : u ∈ h.pushed) (hv : v ∈ h.pushed) (hxu : x ∈ u) (hxv : x ∈ v) : u = v := by
  have hn := hi.stamped.nodup
  rw [← hi.entered, List.nodup_flatten] at hn
  by_contra hne
  have : Std.Symm (List.Disjoint (α := ν × ℕ)) := ⟨fun _ _ hd _ hb ha => hd ha hb⟩
  exact hn.2.forall hu hv hne hxu hxv

/-- A pushed access unit has been cut: `part` was popped, `rest` was not, and neither is queued. -/
structure Cut (h : History ν) (part rest : RtspAccessUnit (ν × ℕ)) : Prop where
  part_ne : part ≠ []
  rest_ne : rest ≠ []
  pushed : part ++ rest ∈ h.pushed
  popped : ∀ x ∈ part, x ∈ h.ledger.left
  lost : ∀ y ∈ rest, y ∉ h.ledger.left
  gone : ∀ z ∈ part ++ rest, z ∉ h.queue.nals

/-- What was popped of a unit that was cut is in no list of complete units. -/
theorem Cut.not_mem_flatten {rest : RtspAccessUnit (ν × ℕ)} {x : ν × ℕ} (hi : h.Inv n)
    (hcut : h.Cut part rest) (hx : x ∈ part) (hpushed : ∀ u ∈ whole, u ∈ h.pushed)
    (hleft : ∀ z ∈ whole.flatten, z ∈ h.ledger.left) : x ∉ whole.flatten := by
  intro hxw
  obtain ⟨u, hu, hxu⟩ := List.mem_flatten.mp hxw
  obtain ⟨y, hy⟩ := List.exists_mem_of_ne_nil rest hcut.rest_ne
  have heq := hi.unit_unique (hpushed u hu) hcut.pushed hxu (List.mem_append_left _ hx)
  have hyu : y ∈ u := heq ▸ List.mem_append_right _ hy
  exact hcut.lost y hy (hleft y (List.mem_flatten.mpr ⟨u, hu, hyu⟩))

theorem Cut.not_leavesWhole {rest : RtspAccessUnit (ν × ℕ)} (hi : h.Inv n)
    (hcut : h.Cut part rest) : ¬ h.LeavesWhole := by
  obtain ⟨x, hx⟩ := List.exists_mem_of_ne_nil part hcut.part_ne
  have hxl := hcut.popped x hx
  rintro ⟨whole, ⟨hl, hs⟩ | ⟨part', rest', -, hr', hl, hs, hh⟩⟩
  · refine hcut.not_mem_flatten hi hx (fun u hu => hs.subset hu) (fun z hz => ?_) (hl ▸ hxl)
    rw [hl]
    exact hz
  · rw [hl, List.mem_append] at hxl
    rcases hxl with hxw | hxp
    · refine hcut.not_mem_flatten hi hx (fun u hu => ?_) (fun z hz => ?_) hxw
      · exact hs.subset (List.mem_append_left _ hu)
      · rw [hl]
        exact List.mem_append_left _ hz
    · -- the unit said to be being read is the one that was cut, but its rest is not queued
      have hs' : part' ++ rest' ∈ h.pushed :=
        hs.subset (List.mem_append_right _ (List.mem_singleton.mpr rfl))
      have heq := hi.unit_unique hs' hcut.pushed (List.mem_append_left _ hxp)
        (List.mem_append_left _ hx)
      obtain ⟨z, hz⟩ := List.exists_mem_of_ne_nil rest' hr'
      have hzu : z ∈ part ++ rest := heq ▸ List.mem_append_right _ hz
      exact hcut.gone z hzu (List.mem_flatten.mpr ⟨rest', List.mem_of_mem_head? hh, hz⟩)

/-- The part read is the one of the unit that is first in the queue. -/
theorem PartlyRead.queue_eq (hi : h.Inv n) (hr : h.Reading whole part) (hpr : h.PartlyRead) :
    part ≠ [] ∧ ∃ rest units, h.queue.queue = rest :: units := by
  obtain ⟨part₀, rest, hp₀, hmem, hhead⟩ := hpr
  obtain ⟨units, hq⟩ : ∃ units, h.queue.queue = rest :: units := by
    cases hu : h.queue.queue with
    | nil =>
      rw [hu] at hhead
      cases hhead
    | cons u units =>
      rw [hu] at hhead
      cases hhead
      exact ⟨units, rfl⟩
  refine ⟨?_, rest, units, hq⟩
  obtain ⟨y, hy⟩ := List.exists_mem_of_ne_nil rest (hi.wf.ne_nil rest (hq ▸ List.mem_cons_self))
  have hsub := hr.sublist
  rw [hq] at hsub
  have hin : part ++ rest ∈ h.pushed :=
    hsub.subset (List.mem_append_right _ List.mem_cons_self)
  have heq := hi.unit_unique hin hmem (List.mem_append_right _ hy) (List.mem_append_right _ hy)
  rw [List.append_cancel_right heq]
  exact hp₀

/-- A push that finds the queue full cuts the unit being read. -/
theorem Reading.cut {rest : RtspAccessUnit (ν × ℕ)} {units : List (RtspAccessUnit (ν × ℕ))}
    (hi : h.Inv n) (hr : h.Reading whole part) (hq : h.queue.queue = rest :: units)
    (hp : part ≠ []) {nals : List ν} (hne : nals ≠ [])
    (hfull : h.queue.maxQueueSize ≤ h.queue.queue.length) :
    (h.pushAccessUnit nals).Cut part rest := by
  have hi' := hi.pushAccessUnit nals
  have hleft : (h.pushAccessUnit nals).ledger.left = whole.flatten ++ part := by
    rw [left_pushAccessUnit, hr.left]
  have hsub : (whole ++ (part ++ rest) :: (h.pushAccessUnit nals).queue.queue).Sublist
      (h.pushAccessUnit nals).pushed := by
    have hkept : DropOldest.kept (max 1 n) h.queue.queue = units := by
      unfold DropOldest.kept
      rw [if_neg (by rw [← hi.size]; omega), hq, List.tail_cons]
    have hpushed : (h.pushAccessUnit nals).pushed = h.pushed ++ [h.ledger.stamp nals] := by
      rw [pushAccessUnit_eq hi hne]
    have hold := hr.sublist
    rw [hq] at hold
    rw [queue_pushAccessUnit hi hne, hkept, hpushed, ← List.cons_append, ← List.append_assoc]
    exact hold.append (List.Sublist.refl _)
  -- nothing entered twice, so the parts of this list have nothing in common
  have hnodup := (hi'.entered ▸ hi'.stamped.nodup).sublist hsub.flatten
  rw [List.flatten_append, List.flatten_cons, List.nodup_append] at hnodup
  obtain ⟨-, hnodup, hwhole⟩ := hnodup
  rw [List.nodup_append, List.nodup_append] at hnodup
  obtain ⟨⟨-, -, hpart⟩, -, hqueue⟩ := hnodup
  refine ⟨hp, hi.wf.ne_nil rest (hq ▸ List.mem_cons_self), ?_, ?_, ?_,
    fun z hz hzq => hqueue z hz z hzq rfl⟩
  · exact hsub.subset (List.mem_append_right _ List.mem_cons_self)
  · intro x hx
    rw [hleft]
    exact List.mem_append_right _ hx
  · intro y hy
    rw [hleft, List.mem_append]
    rintro (hyw | hyp)
    · exact hwhole y hyw y (List.mem_append_left _ (List.mem_append_right _ hy)) rfl
    · exact hpart y hyp y hy rfl

theorem not_leavesWhole_of_cuts (hi : h.Inv n) (hr : h.Reading whole part) {nals : List ν}
    (hne : nals ≠ []) (hfull : h.queue.maxQueueSize ≤ h.queue.queue.length)
    (hpr : h.PartlyRead) : ¬ (h.pushAccessUnit nals).LeavesWhole := by
  obtain ⟨hp, rest, units, hq⟩ := hpr.queue_eq hi hr
  exact (hr.cut hi hq hp hne hfull).not_leavesWhole (hi.pushAccessUnit nals)

theorem Intact.step_cuts (hI : h.Intact n) (hc : h.Cuts c)
    (hs : (readingMachine n).step h c = some h') : ¬ h'.LeavesWhole := by
  obtain ⟨hi, whole, part, hr⟩ := hI
  obtain ⟨hne, hfull, hpr⟩ := hc
  cases c with
  | pushNalUnit nal =>
    cases hs
    exact not_leavesWhole_of_cuts hi hr hne hfull hpr
  | pushAccessUnit nals =>
    cases hs
    exact not_leavesWhole_of_cuts hi hr hne hfull hpr
  | popNalUnit => exact absurd rfl hne
  | clear => cases hs

/-- **Access units leave the queue whole exactly when none is cut.** A run of pushes and pops on a
queue of size `n` keeps `LeavesWhole` in every state if and only if no push in it finds the queue
full with its first access unit partly read. -/
theorem leavesWhole_iff (n : ℕ) (calls : List (QueueCall ν)) :
    (readingMachine n).Always LeavesWhole (new n) calls ↔
      (readingMachine n).Along (fun h c => ¬ h.Cuts c) (new n) calls :=
  Machine.always_iff_along (I := Intact n) ⟨inv_new n, [], [], reading_new n⟩
    (fun _ _ _ hI hc hs => hI.step hc hs)
    (fun _ ⟨hi, _, _, hr⟩ => hr.leavesWhole hi)
    (fun _ _ _ hI hc hs => hI.step_cuts (not_not.mp hc) hs)

/-- A queue of size one: the second access unit arrives when one of the two NAL units of the first
has been popped. -/
def cutRun : List (QueueCall RtspNalUnit) :=
  [.pushAccessUnit [⟨⟨[0x11], by decide⟩, 100, false⟩, ⟨⟨[0x12], by decide⟩, 100, false⟩],
    .popNalUnit,
    .pushAccessUnit [⟨⟨[0x21], by decide⟩, 200, false⟩, ⟨⟨[0x22], by decide⟩, 200, false⟩],
    .popNalUnit]

/-- The popped NAL units `11` and `21` are then no concatenation of access units. -/
theorem cutRun_not_leavesWhole :
    ((after 1 cutRun).ledger.left.map fun x => x.1.data.bytes) = [[0x11], [0x21]] ∧
      ¬ (readingMachine 1).Always LeavesWhole (new 1) cutRun := by
  refine ⟨by decide, ?_⟩
  intro hall
  have hr : (after 1 (cutRun.take 2)).Reading [] [(⟨⟨[0x11], by decide⟩, 100, false⟩, 0)] :=
    ⟨rfl, List.Sublist.refl _, fun h0 => absurd h0 (List.cons_ne_nil _ _)⟩
  have hcut : ¬ ((after 1 (cutRun.take 2)).pushAccessUnit
      [⟨⟨[0x21], by decide⟩, 200, false⟩, ⟨⟨[0x22], by decide⟩, 200, false⟩]).LeavesWhole :=
    not_leavesWhole_of_cuts (inv_after 1 _) hr (List.cons_ne_nil _ _) (Nat.le_refl 1)
      (hr.partlyRead rfl (List.cons_ne_nil _ _))
  exact hcut ((((hall.2 _ rfl).2 _ rfl).2 _ rfl).here)

end Eye.History
