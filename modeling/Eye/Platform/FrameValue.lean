import Mathlib.Data.List.Forall2
import Eye.Platform.BuffersReturned
import Eye.Platform.OwnedFrame
import Eye.Rtsp.AnnexB
import Eye.Rtsp.Server

/-!
# What a fetched frame says

`OwningFrame.value` forgets the pointers of a frame: each pack is the bytes that its pointer leads
to. It is `none` where a pointer dangles. What the constructor has copied is what the driver had
behind the offset of each pack (`OwnCopies.value_eq`), so the NAL units found in the frame are those
of the encoder's packs (`packNals_eq_split`).

`fetchFrame_cases` and `releaseFrame_eq` are the two halves of a turn of the fetch loop: between
them one stream is held, which is the one the frame was filled from.
-/

namespace Eye

/-- The pack that one with a pointer stands for. -/
def RawPack.value (read : BytePtr → ℕ → Option (List UInt8)) (raw : RawPack) : Option FramePack :=
  if raw.data = .null then some ⟨none, raw.len, raw.naluType, fun _ h => nomatch h⟩
  else
    (read raw.data raw.len.toNat).bind fun bytes =>
      if h : bytes.length = raw.len.toNat then
        some ⟨some ⟨bytes, h ▸ raw.len.toNat_lt⟩, raw.len, raw.naluType,
          fun _ hbs => Option.some.inj hbs ▸ h⟩
      else none

/-- A frame with these packs in use; the others are null. -/
def FrameData.ofUsed (packs : List FramePack) (seq : UInt32) (h : packs.length ≤ MAX_PACKS) :
    FrameData where
  packs := Vector.ofFn fun i => packs.getD i ⟨none, 0, .other, fun _ h => nomatch h⟩
  packCount := packs.length
  seq := seq
  packCount_le := h

theorem FrameData.used_ofUsed {packs : List FramePack} {seq : UInt32}
    (h : packs.length ≤ MAX_PACKS) : (ofUsed packs seq h).used = packs := by
  apply List.ext_getElem?
  intro i
  by_cases hi : i < packs.length
  · have hmax : i < MAX_PACKS := by omega
    unfold used ofUsed
    rw [List.getElem?_take_of_lt hi, Vector.getElem?_toList, Vector.getElem?_ofFn, dif_pos hmax,
      List.getD_eq_getElem?_getD, List.getElem?_eq_getElem hi, Option.getD_some]
  · have hlength : (ofUsed packs seq h).used.length = packs.length := FrameData.length_used _
    rw [List.getElem?_eq_none (by omega), List.getElem?_eq_none (by omega)]

/-- The frame that one with pointers stands for. -/
def OwningFrame.value (frame : OwningFrame) : Option FrameData :=
  (frame.frameData.used.mapM (RawPack.value frame.read)).bind fun packs =>
    if h : packs.length ≤ MAX_PACKS then some (.ofUsed packs frame.frameData.seq h) else none

/-- The bytes of a pack; a null pack has none. -/
def FramePack.vec (pk : FramePack) : ByteVec := pk.data.getD .empty

/-- The bytes of a pack of the encoder, behind its offset. -/
def DriverPack.vec (p : DriverPack) : ByteVec where
  bytes := FetchState.payload p
  size_lt := by
    have := p.len.toNat_lt
    have := p.readable
    unfold FetchState.payload
    rw [List.length_drop]
    omega

/-- A pack that is skipped has no bytes. -/
theorem RtspServer.packNals_eq_split (codec : CodecType) (ts : UInt64) (isIdr : Bool)
    (pk : FramePack) :
    RtspServer.packNals codec ts isIdr pk = splitAnnexBNals pk.vec codec ts isIdr [] := by
  have hempty : ∀ data : ByteVec, data.size = 0 → splitAnnexBNals data codec ts isIdr [] = [] :=
    fun data h => if_pos h
  unfold packNals FramePack.vec
  cases hd : pk.data with
  | none =>
    rw [ite_self]
    exact (hempty _ rfl).symm
  | some data =>
    have hread := pk.readable data hd
    split_ifs with hlen
    · rw [hlen] at hread
      exact (hempty data hread).symm
    · rfl

theorem mapM_forall₂ {α β γ : Type} {f : α → Option β} {g : β → γ} {xs : List α} {zs : List γ}
    (h : List.Forall₂ (fun x z => ∃ y, f x = some y ∧ g y = z) xs zs) :
    ∃ ys, xs.mapM f = some ys ∧ ys.map g = zs := by
  induction h with
  | nil => exact ⟨[], rfl, rfl⟩
  | cons hx _ ih =>
    obtain ⟨y, hy, rfl⟩ := hx
    obtain ⟨ys, hys, rfl⟩ := ih
    refine ⟨y :: ys, ?_, rfl⟩
    rw [List.mapM_cons, hy, hys]
    rfl

theorem value_of_copy {frame : OwningFrame} {raw : RawPack} {i : ℕ} {copy : List UInt8}
    (hcopy : frame.packData[i]? = some copy) (hlen : raw.len.toNat = copy.length)
    (hptr : raw.data = .own i ∨ raw.data = .null ∧ copy = []) :
    ∃ pk, raw.value frame.read = some pk ∧ pk.vec.bytes = copy := by
  unfold RawPack.value
  rcases hptr with hptr | ⟨hptr, rfl⟩
  · have hread : frame.read raw.data raw.len.toNat = some copy := by
      unfold OwningFrame.read
      rw [hptr]
      dsimp only
      rw [hcopy, Option.bind_some, if_pos (Nat.le_of_eq hlen), hlen, List.take_length]
    rw [if_neg (by rw [hptr]; nofun), hread, Option.bind_some, dif_pos hlen.symm]
    exact ⟨_, rfl, rfl⟩
  · rw [if_pos hptr]
    exact ⟨_, rfl, rfl⟩

theorem OwningFrame.OwnCopies.value_eq {packs : List DriverPack} {frame : OwningFrame}
    (h : frame.OwnCopies packs) (hle : packs.length ≤ MAX_PACKS) :
    ∃ fd, frame.value = some fd ∧ fd.used.map FramePack.vec = packs.map DriverPack.vec := by
  have hlength : frame.frameData.used.length = frame.packData.length := by
    rw [h.length_used, h.packData_eq, List.length_map]
  have hpacks : List.Forall₂ (fun raw copy =>
      ∃ pk, RawPack.value frame.read raw = some pk ∧ pk.vec.bytes = copy)
        frame.frameData.used frame.packData := by
    rw [List.forall₂_iff_get]
    refine ⟨hlength, ?_⟩
    intro i hi hi'
    obtain ⟨copy, hcopy, hlen, hptr⟩ :=
      h.pointers i _ (List.getElem?_eq_getElem (l := frame.frameData.used) hi)
    rw [List.getElem?_eq_getElem hi', Option.some.injEq] at hcopy
    show ∃ pk, RawPack.value frame.read (frame.frameData.used[i]) = some pk ∧
      pk.vec.bytes = frame.packData[i]
    rw [hcopy]
    exact value_of_copy (hcopy ▸ List.getElem?_eq_getElem hi') hlen hptr
  obtain ⟨pks, hpks, hbytes⟩ := mapM_forall₂ hpacks
  have hcount : pks.length = packs.length := by
    rw [← List.length_map (f := fun pk : FramePack => pk.vec.bytes), hbytes, h.packData_eq,
      List.length_map]
  refine ⟨.ofUsed pks frame.frameData.seq (hcount ▸ hle), ?_, ?_⟩
  · unfold value
    rw [hpks, Option.bind_some, dif_pos]
  · rw [FrameData.used_ofUsed]
    apply ByteVec.map_bytes_injective
    rw [List.map_map, List.map_map]
    exact hbytes.trans h.packData_eq

/-! ## The two halves of a turn -/

/-- The stream that a turn fetches for a frame, if it fetches one. -/
def Outcomes.fetched (o : Outcomes) : List (List DriverPack) :=
  match o.curPacks, o.stream with
  | some curPacks, some packs =>
    if curPacks ≠ 0 ∧ curPacks.toNat ≤ MAX_PACKS ∧ o.allocated then [packs] else []
  | _, _ => []

namespace FetchState

variable {s : FetchState} {a : ArrayId} {packs : List DriverPack} {frame : RawFrame}
  {codec : CodecType}

/-- The stream with these packs is held, in the one array that is allocated. -/
structure Holds (s : FetchState) (packs : List DriverPack) (a : ArrayId) : Prop where
  stream : s.currentStream = ⟨some a, UInt32.ofNat packs.length⟩
  arrays : s.arrays = [(a, descriptors a packs)]
  held : s.held = [(a, packs.map DriverPack.bytes)]
  length_le : packs.length ≤ MAX_PACKS
  offset_le : ∀ p ∈ packs, p.offset ≤ p.len

/-- The frame has been filled from the stream that is held. -/
structure Filled (codec : CodecType) (s : FetchState) (packs : List DriverPack) (frame : RawFrame) :
    Prop where
  holds : ∃ a, s.Holds packs a ∧ frame.used = (descriptors a packs).map (framePack codec)
  count : frame.packCount.toNat = packs.length

/-- `fetchFrame` leaves nothing held, or the stream that the frame is filled from. -/
theorem fetchFrame_cases (hi : s.Idle) {o : Outcomes} (ho : o.Valid) :
    ∃ result s', s.fetchFrame codec o = some (result, s') ∧
      ((result = none ∧ s'.Idle ∧ o.fetched = []) ∨
        ∃ frame packs, result = some frame ∧ Filled codec s' packs frame ∧
          o.fetched = [packs]) := by
  unfold fetchFrame Outcomes.fetched
  cases hcur : o.curPacks with
  | none => exact ⟨_, _, rfl, .inl ⟨rfl, ⟨hi.arrays, hi.held⟩, rfl⟩⟩
  | some curPacks =>
    dsimp only
    by_cases hzero : curPacks = 0
    · rw [if_pos hzero]
      refine ⟨_, _, rfl, .inl ⟨rfl, ⟨hi.arrays, hi.held⟩, ?_⟩⟩
      cases o.stream with
      | none => rfl
      | some packs => exact if_neg fun h => h.1 hzero
    rw [if_neg hzero]
    by_cases hmax : MAX_PACKS < curPacks.toNat
    · rw [if_pos hmax]
      obtain ⟨s', calls, hdrain, hidle, -⟩ := drain_cases hi o curPacks
      rw [hdrain]
      refine ⟨_, s', rfl, .inl ⟨rfl, hidle, ?_⟩⟩
      cases o.stream with
      | none => rfl
      | some packs => exact if_neg fun h => absurd h.2.1 (Nat.not_le.mpr hmax)
    rw [if_neg hmax]
    obtain ⟨cs, arrays, held, next, log⟩ := s
    obtain ⟨rfl, rfl⟩ : arrays = [] ∧ held = [] := ⟨hi.arrays, hi.held⟩
    unfold query
    cases hallocated : o.allocated with
    | false =>
      refine ⟨_, _, rfl, .inl ⟨rfl, ⟨rfl, rfl⟩, ?_⟩⟩
      cases o.stream with
      | none => rfl
      | some packs => exact if_neg fun h => nomatch h.2.2
    | true =>
      rw [malloc_true]
      dsimp only
      cases hstream : o.stream with
      | none =>
        rw [getStream_fails, Option.bind_some]
        dsimp only
        rw [if_neg Bool.false_ne_true, free_allocated]
        exact ⟨_, _, rfl, .inl ⟨rfl, ⟨rfl, rfl⟩, rfl⟩⟩
      | some packs =>
        obtain ⟨hle, hoffset⟩ := ho curPacks packs hcur hstream
        have hpacks : packs.length ≤ MAX_PACKS := by omega
        rw [getStream_succeeds, Option.bind_some]
        dsimp only
        rw [if_pos rfl]
        generalize hlog : log ++ [Call.query] ++ [Call.malloc (some next)] ++
          [Call.getStream next (some packs)] = log₁
        have hholds : Holds ⟨⟨some next, UInt32.ofNat packs.length⟩,
            [(next, descriptors next packs)], [(next, packs.map DriverPack.bytes)], next + 1, log₁⟩
            packs next := ⟨rfl, rfl, rfl, hpacks, hoffset⟩
        have hlookup : [(next, descriptors next packs)].lookup next =
            some (descriptors next packs) := by simp
        obtain ⟨frame, hfill, hcount, hused⟩ :
            ∃ frame, fillFrame ⟨⟨some next, UInt32.ofNat packs.length⟩,
                [(next, descriptors next packs)], [(next, packs.map DriverPack.bytes)], next + 1,
                log₁⟩ codec o.frame = some frame ∧ frame.packCount.toNat = packs.length ∧
              frame.used = (descriptors next packs).map (framePack codec) :=
          fillFrame_eq rfl hlookup hpacks
        rw [hfill]
        refine ⟨_, _, rfl, .inr ⟨frame, packs, rfl, ⟨⟨next, hholds, hused⟩, hcount⟩, ?_⟩⟩
        exact if_pos ⟨hzero, Nat.not_lt.mp hmax, rfl⟩

theorem Filled.newStreamFrame (h : Filled codec s packs frame) (channel : VencChannel)
    (type : StreamType) :
    ∃ f, s.newStreamFrame channel type codec frame = some f ∧ f.OwnCopies packs := by
  obtain ⟨a, hholds, hused⟩ := h.holds
  refine newStreamFrame_eq ?_ h.count hused hholds.length_le hholds.offset_le
  rw [hholds.held]
  simp

theorem Holds.releaseFrame (h : s.Holds packs a) (ok : Bool) :
    ∃ s', s.releaseFrame ok = some s' ∧ s'.Idle := by
  obtain ⟨cs, arrays, held, next, log⟩ := s
  obtain ⟨hcs, harrays, hheld, -, -⟩ := h
  dsimp only at hcs harrays hheld
  subst hcs harrays hheld
  unfold FetchState.releaseFrame
  dsimp only
  rw [releaseStream_held, Option.bind_some, free_allocated]
  exact ⟨_, rfl, rfl, rfl⟩

end FetchState

end Eye
