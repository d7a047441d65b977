import Mathlib.Algebra.GroupWithZero.Nat
import Eye.Rtsp.Server
import Eye.Stream.RecorderAccounts

/-!
# The bytes of a frame, for the recorder and for RTSP

The constructor of `StreamFrame` copies the packs that have data and sets the pointers of the others
to null; it leaves `len` as it is. `process_frame_nals` skips null and empty packs. The recorder's
`on_frame` adds up `len` over all packs and copies from all of them.

`copyPacks` is that copying with its buffer, `size_t` being 32 bits wide; `assemble_eq_copyPacks`
says that it fills the buffer with the entry that `assemble` gives. `sameBytes_iff`: both consumers
see the same bytes exactly if no pack has a length without data and the lengths fit a `size_t`.
-/

namespace Eye

/-! ## The constructor -/

/-- The body of the loop in the constructor of `StreamFrame`: a copy has the same bytes. -/
def FramePack.own (pk : FramePack) : FramePack :=
  if pk.data.isSome = true ∧ 0 < pk.len then pk
  else { pk with data := none, readable := fun _ h => nomatch h }

/-- `StreamFrame::StreamFrame`, with the timestamp that it takes. -/
def StreamFrame.new (channel : VencChannel) (type : StreamType) (codecType : CodecType)
    (timestamp : UInt64) (fd : FrameData) : StreamFrame where
  channel := channel
  type := type
  codecType := codecType
  timestamp := timestamp
  data := { fd with packs := fd.packs.mapIdx fun i pk => if i < fd.packCount then pk.own else pk }

theorem FramePack.own_len (pk : FramePack) : pk.own.len = pk.len := by
  unfold own
  split_ifs <;> rfl

theorem StreamFrame.used_new (channel : VencChannel) (type : StreamType) (codecType : CodecType)
    (timestamp : UInt64) (fd : FrameData) :
    (StreamFrame.new channel type codecType timestamp fd).data.used =
      fd.used.map FramePack.own := by
  unfold FrameData.used StreamFrame.new
  apply List.ext_getElem?
  intro i
  rw [List.getElem?_map, List.getElem?_take, List.getElem?_take, Vector.getElem?_toList,
    Vector.getElem?_toList, Vector.getElem?_mapIdx]
  dsimp only
  split_ifs
  · rfl
  · rfl

namespace RecorderConsumer

/-! ## The buffer of `on_frame` -/

/-- `total_len` -/
def bufferLen (packs : List FramePack) : UInt32 := packs.foldl (fun len pk => len + pk.len) 0

/-- The body of the second loop, on the buffer and `pos`: a copy to behind the end of the buffer is
undefined, as one from a null pointer is. -/
def copyPack (s : List UInt8 × UInt32) (pk : FramePack) : Option (List UInt8 × UInt32) :=
  match pk.data with
  | some data =>
    if s.2.toNat + data.size ≤ s.1.length then
      some (s.1.take s.2.toNat ++ data.bytes ++ s.1.drop (s.2.toNat + data.size), s.2 + pk.len)
    else none
  | none => if pk.len = 0 then some s else none

/-- `entry.data` when the loops are done. -/
def copyPacks (packs : List FramePack) : Option (List UInt8) :=
  (packs.foldlM copyPack (List.replicate (bufferLen packs).toNat 0, 0)).map Prod.fst

variable {packs : List FramePack} {pk : FramePack}

theorem totalLen_cons (pk : FramePack) (packs : List FramePack) :
    totalLen (pk :: packs) = pk.len.toNat + totalLen packs := by
  unfold totalLen
  rw [List.foldl_cons, Nat.zero_add]
  generalize pk.len.toNat = n
  induction packs generalizing n with
  | nil => rfl
  | cons pk packs ih =>
    rw [List.foldl_cons, List.foldl_cons, ih, Nat.zero_add, ih pk.len.toNat, Nat.add_assoc]

theorem toNat_bufferLen (packs : List FramePack) :
    (bufferLen packs).toNat = totalLen packs % 2 ^ 32 := by
  unfold bufferLen
  suffices ∀ len : UInt32, (packs.foldl (fun len pk => len + pk.len) len).toNat =
      (len.toNat + totalLen packs) % 2 ^ 32 by
    rw [this 0, UInt32.toNat_zero, Nat.zero_add]
  induction packs with
  | nil =>
    intro len
    exact (Nat.mod_eq_of_lt len.toNat_lt).symm
  | cons pk packs ih =>
    intro len
    rw [List.foldl_cons, ih, totalLen_cons, UInt32.toNat_add, Nat.mod_add_mod, Nat.add_assoc]

theorem length_packBytes (h : NullIsEmpty pk) : (packBytes pk).length = pk.len.toNat := by
  unfold packBytes
  cases hd : pk.data with
  | some data => exact pk.readable data hd
  | none =>
    rw [h hd]
    rfl

theorem copyPack_eq {done rest : List UInt8} {pos : UInt32} (hpos : pos.toNat = done.length) :
    copyPack (done ++ rest, pos) pk =
      if NullIsEmpty pk ∧ pk.len.toNat ≤ rest.length then
        some (done ++ packBytes pk ++ rest.drop pk.len.toNat, pos + pk.len)
      else none := by
  unfold copyPack packBytes
  cases hd : pk.data with
  | some data =>
    have hnull : NullIsEmpty pk := fun h => absurd (hd.symm.trans h) (Option.some_ne_none data)
    have hsize : data.size = pk.len.toNat := pk.readable data hd
    dsimp only
    rw [hsize, hpos, List.length_append, List.take_left, List.drop_append,
      List.drop_of_length_le (Nat.le_add_right _ _), Nat.add_sub_cancel_left, List.nil_append]
    simp only [hnull, true_and, Nat.add_le_add_iff_left]
    rfl
  | none =>
    dsimp only
    by_cases hlen : pk.len = 0
    · rw [if_pos hlen, if_pos ⟨fun _ => hlen, by rw [hlen]; exact Nat.zero_le _⟩, hlen]
      simp
    · rw [if_neg hlen, if_neg fun h => hlen (h.1 hd)]

theorem foldlM_copyPack (packs : List FramePack) {done rest : List UInt8} {pos : UInt32}
    (hpos : pos.toNat = done.length) (hlt : (done ++ rest).length < 2 ^ 32) :
    packs.foldlM copyPack (done ++ rest, pos) =
      if (∀ pk ∈ packs, NullIsEmpty pk) ∧ totalLen packs ≤ rest.length then
        some (done ++ packs.flatMap packBytes ++ rest.drop (totalLen packs),
          packs.foldl (fun len pk => len + pk.len) pos)
      else none := by
  induction packs generalizing done rest pos with
  | nil => simp [totalLen]
  | cons pk packs ih =>
    rw [List.foldlM_cons, copyPack_eq hpos, totalLen_cons]
    by_cases hpk : NullIsEmpty pk ∧ pk.len.toNat ≤ rest.length
    · rw [if_pos hpk]
      obtain ⟨hnull, hle⟩ := hpk
      have hbytes := length_packBytes hnull
      rw [List.length_append] at hlt
      have hpos' : (pos + pk.len).toNat = (done ++ packBytes pk).length := by
        rw [UInt32.toNat_add, hpos, List.length_append, hbytes, Nat.mod_eq_of_lt (by omega)]
      have hlt' : (done ++ packBytes pk ++ rest.drop pk.len.toNat).length < 2 ^ 32 := by
        rw [List.length_append, List.length_append, List.length_drop, hbytes]
        omega
      show packs.foldlM copyPack _ = _
      rw [ih hpos' hlt', List.length_drop, List.drop_drop, List.flatMap_cons, List.foldl_cons,
        List.append_assoc done]
      have hiff : totalLen packs ≤ rest.length - pk.len.toNat ↔
          pk.len.toNat + totalLen packs ≤ rest.length := by omega
      simp only [List.forall_mem_cons, hnull, true_and, hiff]
    · rw [if_neg hpk, if_neg]
      · rfl
      · rintro ⟨hall, hle⟩
        exact hpk ⟨hall pk List.mem_cons_self, by omega⟩

theorem copyPacks_eq (packs : List FramePack) :
    copyPacks packs =
      if (∀ pk ∈ packs, NullIsEmpty pk) ∧ totalLen packs < 2 ^ 32 then
        some (packs.flatMap packBytes)
      else none := by
  have hlt : (([] : List UInt8) ++ List.replicate (bufferLen packs).toNat 0).length < 2 ^ 32 := by
    rw [List.nil_append, List.length_replicate]
    exact (bufferLen packs).toNat_lt
  have hpos : (0 : UInt32).toNat = ([] : List UInt8).length := rfl
  have hloop := foldlM_copyPack packs hpos hlt
  unfold copyPacks
  rw [List.nil_append] at hloop
  rw [hloop, List.length_replicate, toNat_bufferLen]
  -- the buffer is too small exactly if its size has wrapped
  have hiff : totalLen packs ≤ totalLen packs % 2 ^ 32 ↔ totalLen packs < 2 ^ 32 := by omega
  simp only [hiff]
  split_ifs with h
  · rw [Nat.mod_eq_of_lt h.2, List.drop_of_length_le (by simp)]
    simp
  · rfl

/-- **The entry is what the buffer holds.** -/
theorem assemble_eq_copyPacks (frame : StreamFrame) :
    (assemble frame).map WriteEntry.data = copyPacks frame.data.used := by
  unfold assemble
  rw [copyPacks_eq, foldlM_appendPack]
  split_ifs with hlt hnull h h h
  · rfl
  · exact absurd ⟨hnull, hlt⟩ h
  · exact absurd h.1 hnull
  · rfl
  · exact absurd h.2 hlt
  · rfl

/-! ## Both consumers -/

theorem length_flatMap_packBytes (h : ∀ pk ∈ packs, NullIsEmpty pk) :
    (packs.flatMap packBytes).length = totalLen packs := by
  induction packs with
  | nil => rfl
  | cons pk packs ih =>
    obtain ⟨hpk, hpacks⟩ := List.forall_mem_cons.mp h
    rw [List.flatMap_cons, List.length_append, totalLen_cons, length_packBytes hpk, ih hpacks]

/-- The packs that `process_frame_nals` skips have no bytes. -/
theorem flatMap_packBytes (frame : StreamFrame) :
    frame.data.used.flatMap packBytes =
      (RtspServer.presentPacks frame).flatMap ByteVec.bytes := by
  unfold RtspServer.presentPacks
  induction frame.data.used with
  | nil => rfl
  | cons pk packs ih =>
    rw [List.flatMap_cons, ih, List.filterMap_cons]
    unfold packBytes
    cases hd : pk.data with
    | none =>
      rw [ite_self]
      rfl
    | some data =>
      by_cases hlen : pk.len = 0
      · have hsize : data.bytes.length = pk.len.toNat := pk.readable data hd
        rw [hlen] at hsize
        rw [if_pos hlen, Option.map_some, Option.getD_some, List.length_eq_zero_iff.mp hsize,
          List.nil_append]
      · rw [if_neg hlen]
        rfl

end RecorderConsumer

open RecorderConsumer

/-- The recorder fills a buffer of their size with the bytes of the packs that `process_frame_nals`
goes through, in their order. -/
structure SameBytes (frame : StreamFrame) : Prop where
  copied : copyPacks frame.data.used =
    some ((RtspServer.presentPacks frame).flatMap ByteVec.bytes)
  size_eq : (bufferLen frame.data.used).toNat =
    ((RtspServer.presentPacks frame).map ByteVec.size).sum

theorem sameBytes_frame_iff (frame : StreamFrame) :
    SameBytes frame ↔ (∀ pk ∈ frame.data.used, NullIsEmpty pk) ∧
      totalLen frame.data.used < 2 ^ 32 := by
  constructor
  · intro h
    have hcopied := h.copied
    rw [copyPacks_eq] at hcopied
    by_contra hno
    rw [if_neg hno] at hcopied
    cases hcopied
  · intro h
    refine ⟨?_, ?_⟩
    · rw [copyPacks_eq, if_pos h, flatMap_packBytes]
    · rw [toNat_bufferLen, Nat.mod_eq_of_lt h.2, ← length_flatMap_packBytes h.1, flatMap_packBytes,
        List.length_flatMap]
      rfl

theorem nullIsEmpty_own (pk : FramePack) : NullIsEmpty pk.own ↔ NullIsEmpty pk := by
  unfold NullIsEmpty FramePack.own
  split_ifs with h
  · rfl
  · simp only [true_implies]
    constructor
    · intro hlen _
      exact hlen
    · intro hnull
      cases hd : pk.data with
      | none => exact hnull hd
      | some data =>
        rw [hd] at h
        simpa [UInt32.pos_iff_ne_zero] using h

theorem totalLen_map_own (packs : List FramePack) :
    totalLen (packs.map FramePack.own) = totalLen packs := by
  induction packs with
  | nil => rfl
  | cons pk packs ih => rw [List.map_cons, totalLen_cons, totalLen_cons, ih, FramePack.own_len]

/-- **The same bytes.** For every frame that is constructed, of whatever packs: both consumers see
the same bytes exactly if no pack in use is null with a length, and all lengths together fit a
`size_t`. -/
theorem sameBytes_iff (channel : VencChannel) (type : StreamType) (codecType : CodecType)
    (timestamp : UInt64) (fd : FrameData) :
    SameBytes (.new channel type codecType timestamp fd) ↔
      (∀ pk ∈ fd.used, pk.data = none → pk.len = 0) ∧ totalLen fd.used < 2 ^ 32 := by
  rw [sameBytes_frame_iff, StreamFrame.used_new, totalLen_map_own, List.forall_mem_map]
  simp only [nullIsEmpty_own]
  rfl

/-- Every pack is null and of length 5. -/
def nullPacks : FrameData where
  packs := Vector.replicate _ ⟨none, 5, .other, fun _ h => nomatch h⟩
  packCount := MAX_PACKS
  seq := 0
  packCount_le := Nat.le_refl MAX_PACKS

theorem null_copied : ¬ SameBytes (.new .chn0 .videoMain .h264 1 nullPacks) := by
  intro h
  exact absurd h.copied (by decide)

end Eye
