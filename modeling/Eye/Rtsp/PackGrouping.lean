import Eye.Rtsp.AnnexB
import Eye.Rtsp.Server

/-!
# How an encoder groups NAL units into packs

A pack that begins with a start code and does not end in a zero byte is split by itself: no start
code reaches over its end, and the scan begins anew behind it. So a frame means its bytes, however
they are divided into such packs: `grouping_irrelevant`.
-/

namespace Eye

open Delimiter

/-- The bytes of a pack. -/
def FramePack.bytes (pk : FramePack) : List UInt8 :=
  match pk.data with
  | none => []
  | some data => data.bytes

/-- The concatenated bytes of a frame. -/
def StreamFrame.bytes (frame : StreamFrame) : List UInt8 :=
  frame.data.used.flatMap FramePack.bytes

/-- It begins with a start code and ends in a byte that is not zero. -/
structure Delimited (data : List UInt8) : Prop where
  code : 0 < startCodeLen data
  last : data.getLast? ≠ some 0

/-- Every pack in use is delimited. -/
def StreamFrame.Delimited (frame : StreamFrame) : Prop :=
  ∀ pk ∈ frame.data.used, Eye.Delimited pk.bytes

/-! ## Delimited bytes are cut by themselves -/

theorem ne_nil_of_code {p : List UInt8} (h : 0 < startCodeLen p) : p ≠ [] := by
  have := startCodeLen_le p
  apply List.length_pos_iff.mp
  omega

theorem pieces_of_code {p : List UInt8} (h : 0 < startCodeLen p) :
    (pieces startCodeLen p).1 = [] ∧ (pieces startCodeLen p).2 ≠ [] := by
  rw [pieces_drop (ne_nil_of_code h) h]
  exact ⟨rfl, List.cons_ne_nil _ _⟩

theorem Delimited.pieces_append {a b : List UInt8} (ha : Delimited a)
    (hb : (pieces startCodeLen b).1 = []) :
    pieces startCodeLen (a ++ b) =
      ([], (pieces startCodeLen a).2 ++ (pieces startCodeLen b).2) := by
  rw [pieces_append_pieces startCodeLen_le hb, (pieces_of_code ha.code).1]
  intro s hs hsuf
  exact startCodeLen_append b hs (getLast?_suffix_ne hs hsuf ha.last)

theorem nalPieces_of_code {p : List UInt8} (h : 0 < startCodeLen p) :
    nalPieces p = (pieces startCodeLen p).2.filter fun p => !p.isEmpty := by
  unfold nalPieces
  rw [if_neg (pieces_of_code h).2]

theorem Delimited.nalPieces_append {a b : List UInt8} (ha : Delimited a)
    (hb : 0 < startCodeLen b) : nalPieces (a ++ b) = nalPieces a ++ nalPieces b := by
  have hne : a ≠ [] := ne_nil_of_code ha.code
  have hcut := ha.pieces_append (pieces_of_code hb).1
  have hab : 0 < startCodeLen (a ++ b) := by
    rw [startCodeLen_append b hne ha.last]
    exact ha.code
  rw [nalPieces_of_code hab, nalPieces_of_code ha.code, nalPieces_of_code hb, hcut,
    List.filter_append]

theorem splitAnnexBNals_append {a b ab : ByteVec} (ha : Delimited a.bytes)
    (hb : 0 < startCodeLen b.bytes) (hab : ab.bytes = a.bytes ++ b.bytes) (codec : CodecType)
    (timestamp : UInt64) (isIdr : Bool) :
    splitAnnexBNals ab codec timestamp isIdr [] =
      splitAnnexBNals a codec timestamp isIdr [] ++
        splitAnnexBNals b codec timestamp isIdr [] := by
  have hne : ab.bytes ≠ [] := by
    rw [hab]
    exact List.append_ne_nil_of_left_ne_nil (ne_nil_of_code ha.code) _
  obtain ⟨nals, hnals, hsplit, -⟩ := split_eq_of_data ab hne codec timestamp isIdr
  obtain ⟨nalsA, hnalsA, hsplitA, -⟩ :=
    split_eq_of_data a (ne_nil_of_code ha.code) codec timestamp isIdr
  obtain ⟨nalsB, hnalsB, hsplitB, -⟩ := split_eq_of_data b (ne_nil_of_code hb) codec timestamp isIdr
  have heq : nals = nalsA ++ nalsB := by
    apply ByteVec.map_bytes_injective
    rw [List.map_append, hnals, hnalsA, hnalsB, hab]
    exact ha.nalPieces_append hb
  rw [hsplit, hsplitA, hsplitB, heq, List.map_append]

/-! ## Frames -/

namespace RtspServer

theorem packNals_eq {pk : FramePack} (h : Delimited pk.bytes) (codec : CodecType) (ts : UInt64)
    (isIdr : Bool) :
    ∃ nals : List ByteVec, nals.map ByteVec.bytes = nalPieces pk.bytes ∧
      packNals codec ts isIdr pk = nals.map fun nal => headed nal codec ts := by
  have hne := ne_nil_of_code h.code
  have hread := pk.readable
  unfold FramePack.bytes at hne ⊢
  unfold packNals
  cases hdata : pk.data with
  | none =>
    rw [hdata] at hne
    exact absurd rfl hne
  | some data =>
    rw [hdata] at hne hread
    have hlen : pk.len ≠ 0 := by
      intro h0
      apply hne
      apply List.length_eq_zero_iff.mp
      rw [← show data.size = data.bytes.length from rfl, hread data rfl, h0]
      rfl
    obtain ⟨nals, hnals, hsplit, -⟩ := split_eq_of_data data hne codec ts isIdr
    refine ⟨nals, hnals, ?_⟩
    rw [if_neg hlen]
    exact hsplit

/-- The NAL units of delimited packs are the pieces of their bytes. -/
theorem flatMap_packNals_eq {packs : List FramePack} (h : ∀ pk ∈ packs, Delimited pk.bytes)
    (codec : CodecType) (ts : UInt64) (isIdr : Bool) :
    (pieces startCodeLen (packs.flatMap FramePack.bytes)).1 = [] ∧
      ∃ nals : List ByteVec,
        nals.map ByteVec.bytes =
          ((pieces startCodeLen (packs.flatMap FramePack.bytes)).2.filter fun p => !p.isEmpty) ∧
        packs.flatMap (packNals codec ts isIdr) = nals.map fun nal => headed nal codec ts := by
  induction packs with
  | nil =>
    rw [List.flatMap_nil, pieces_nil]
    exact ⟨rfl, [], rfl, rfl⟩
  | cons pk packs ih =>
    have hpk := h pk List.mem_cons_self
    obtain ⟨hfirst, nals, hnals, hsplit⟩ := ih fun p hp => h p (List.mem_cons_of_mem _ hp)
    obtain ⟨nals', hnals', hsplit'⟩ := packNals_eq hpk codec ts isIdr
    rw [List.flatMap_cons, hpk.pieces_append hfirst]
    refine ⟨rfl, nals' ++ nals, ?_, ?_⟩
    · rw [List.map_append, hnals', hnals, nalPieces_of_code hpk.code, List.filter_append]
    · rw [List.flatMap_cons, hsplit, hsplit', List.map_append]

variable {frame frame' : StreamFrame}

theorem frameNals_congr (hts : frame.timestamp = frame'.timestamp) (h : frame.Delimited)
    (h' : frame'.Delimited) (hbytes : frame.bytes = frame'.bytes) (codec : CodecType) :
    frameNals codec frame = frameNals codec frame' := by
  obtain ⟨-, nals, hnals, hsplit⟩ := flatMap_packNals_eq h codec frame.timestamp frame.isIdr
  obtain ⟨-, nals', hnals', hsplit'⟩ := flatMap_packNals_eq h' codec frame'.timestamp frame'.isIdr
  have heq : nals = nals' := by
    apply ByteVec.map_bytes_injective
    rw [hnals, hnals']
    unfold StreamFrame.bytes at hbytes
    rw [hbytes]
  rw [← flatMap_packNals, ← flatMap_packNals, hsplit, hsplit', heq, hts]

theorem gather_congr (hts : frame.timestamp = frame'.timestamp) (h : frame.Delimited)
    (h' : frame'.Delimited) (hbytes : frame.bytes = frame'.bytes) (codec : CodecType)
    (cache : ParameterSetCache) : gather codec cache frame = gather codec cache frame' := by
  rw [gather_eq, gather_eq, frameNals_congr hts h h' hbytes, hts]

/-- **The grouping of NAL units into packs does not matter.** Delimited bytes and bytes that begin
with a start code are split as each by itself; and two frames of one type and timestamp, their packs
delimited and their bytes the same, gather the same access unit and parameter sets and leave every
server in the same state. -/
theorem grouping_irrelevant :
    (∀ (a b ab : ByteVec) (codec : CodecType) (timestamp : UInt64) (isIdr : Bool),
      Delimited a.bytes → 0 < startCodeLen b.bytes → ab.bytes = a.bytes ++ b.bytes →
        splitAnnexBNals ab codec timestamp isIdr [] =
          splitAnnexBNals a codec timestamp isIdr [] ++
            splitAnnexBNals b codec timestamp isIdr []) ∧
    (∀ frame frame' : StreamFrame,
      frame.type = frame'.type → frame.timestamp = frame'.timestamp →
        frame.Delimited → frame'.Delimited → frame.bytes = frame'.bytes →
          (∀ codec cache, gather codec cache frame = gather codec cache frame') ∧
            ∀ s : RtspServer, s.processFrameNals frame = s.processFrameNals frame') := by
  constructor
  · intro a b ab codec timestamp isIdr ha hb hab
    exact splitAnnexBNals_append ha hb hab codec timestamp isIdr
  · intro frame frame' htype hts h h' hbytes
    have hgather : ∀ codec cache, gather codec cache frame = gather codec cache frame' :=
      gather_congr hts h h' hbytes
    refine ⟨hgather, ?_⟩
    intro s
    unfold processFrameNals
    rw [htype]
    simp only [hgather]

/-- A pack that holds these bytes. -/
def packOf (data : ByteVec) : FramePack where
  data := some data
  len := UInt32.ofNat data.size
  naluType := .other
  readable := by
    rintro bs ⟨⟩
    rw [UInt32.toNat_ofNat']
    exact (Nat.mod_eq_of_lt data.size_lt).symm

/-- A frame of the sub stream with the first `n` of these packs in use. -/
def frameOf (packs : Vector FramePack MAX_PACKS) (n : Fin (MAX_PACKS + 1)) : StreamFrame :=
  ⟨.chn1, .videoSub, .h264, 41, ⟨packs, n, 0, Nat.le_of_lt_succ n.isLt⟩⟩

/-- An SPS and a slice in two packs, or in one. -/
theorem grouping_irrelevant_twoPacks :
    let sps : ByteVec := ⟨[0x00, 0x00, 0x00, 0x01, 0x67, 0x42], by decide⟩
    let idr : ByteVec := ⟨[0x00, 0x00, 0x01, 0x65, 0x88], by decide⟩
    let both : ByteVec := ⟨sps.bytes ++ idr.bytes, by decide⟩
    let two := frameOf ((Vector.replicate _ (packOf idr)).set 0 (packOf sps) (by decide)) 2
    let one := frameOf (Vector.replicate _ (packOf both)) 1
    splitAnnexBNals both .h264 41 false [] =
        splitAnnexBNals sps .h264 41 false [] ++ splitAnnexBNals idr .h264 41 false [] ∧
      twoStreams.processFrameNals two = twoStreams.processFrameNals one := by
  intro sps idr both two one
  have hsps : Delimited sps.bytes := ⟨by decide, by decide⟩
  have hidr : Delimited idr.bytes := ⟨by decide, by decide⟩
  have hboth : Delimited both.bytes := ⟨by decide, by decide⟩
  have htwo : two.data.used = [packOf sps, packOf idr] := rfl
  have hone : one.data.used = [packOf both] := rfl
  refine ⟨grouping_irrelevant.1 sps idr both .h264 41 false hsps hidr.code rfl,
    (grouping_irrelevant.2 two one rfl rfl ?_ ?_ ?_).2 twoStreams⟩
  · unfold StreamFrame.Delimited
    simp [htwo, packOf, FramePack.bytes, hsps, hidr]
  · unfold StreamFrame.Delimited
    simp [hone, packOf, FramePack.bytes, hboth]
  · unfold StreamFrame.bytes
    rw [htwo, hone]
    rfl

end RtspServer

end Eye
