import Eye.Rtsp.AnnexB
import Eye.Rtsp.CodePositions

/-!
# Writing a byte stream anew

What the splitter finds in arbitrary bytes may end in zeros, so it cannot be written behind start
codes of any form: a three-byte code would take a zero away from the NAL unit in front of it. Behind
a four-byte code nothing is lost, because no start code begins earlier: `startCodeLen_four_behind`.

`splitAnnexBNals_rewritten`: whatever the bytes are, the NAL units found in them and written behind
four-byte codes are found again, all and unchanged.
-/

namespace Eye

open Delimiter

/-- The NAL units, each behind a four-byte start code. -/
def rewritten (nals : List ParsedNal) : List UInt8 :=
  annexB (nals.map fun nal => (.four, nal.data))

/-- No start code begins in front of a four-byte code. -/
theorem startCodeLen_four_behind {s : List UInt8} (hs : s ≠ []) (hno : ¬ [0, 0, 1] <:+: s)
    (b : List UInt8) : startCodeLen (s ++ (0 :: 0 :: 0 :: 1 :: b)) = 0 := by
  rw [startCodeLen_eq_zero]
  obtain _ | ⟨x, _ | ⟨y, _ | ⟨z, s⟩⟩⟩ := s
  · exact absurd rfl hs
  · simp [List.cons_prefix_cons]
  · simp [List.cons_prefix_cons]
  · have hxyz : ¬ (x = 0 ∧ y = 0 ∧ z = 1) := by
      rintro ⟨rfl, rfl, rfl⟩
      exact hno ⟨[], s, rfl⟩
    constructor
    · intro h
      simp only [List.cons_append, List.cons_prefix_cons, List.nil_prefix, and_true] at h
      exact hxyz ⟨h.1.symm, h.2.1.symm, h.2.2.symm⟩
    · intro h
      simp only [List.cons_append, List.cons_prefix_cons] at h
      obtain ⟨rfl, rfl, rfl, h⟩ := h
      cases s with
      | nil => simp [List.cons_prefix_cons] at h
      | cons w s =>
        rw [List.cons_append, List.cons_prefix_cons] at h
        obtain ⟨rfl, -⟩ := h
        exact hno ⟨[0], s, rfl⟩

theorem startCodeLen_of_noCode {s : List UInt8} (hno : ¬ [0, 0, 1] <:+: s) :
    startCodeLen s = 0 := by
  rw [startCodeLen_eq_zero]
  refine ⟨fun h => hno h.isInfix, ?_⟩
  rintro ⟨t, rfl⟩
  exact hno ⟨[0], t, rfl⟩

theorem noCode_of_suffix {s nal : List UInt8} (hno : ¬ [0, 0, 1] <:+: nal) (hsuf : s <:+ nal) :
    ¬ [0, 0, 1] <:+: s := fun h => hno (h.trans hsuf.isInfix)

/-- Behind four-byte codes, everything without a start code in it is a piece. -/
theorem pieces_fours (nals : List ByteVec) (hno : ∀ nal ∈ nals, ¬ [0, 0, 1] <:+: nal.bytes) :
    pieces startCodeLen (annexB (nals.map fun nal => (.four, nal))) =
      ([], nals.map ByteVec.bytes) := by
  induction nals with
  | nil => exact pieces_nil
  | cons nal rest ih =>
    have hnal := hno nal List.mem_cons_self
    have hrest := ih fun n hn => hno n (List.mem_cons_of_mem _ hn)
    -- behind the NAL unit comes nothing, or a four-byte code
    have hcut : pieces startCodeLen (nal.bytes ++ annexB (rest.map fun nal => (.four, nal))) =
        (nal.bytes, rest.map ByteVec.bytes) := by
      rw [pieces_append, hrest, List.append_nil]
      intro s hs hsuf
      have hno' := noCode_of_suffix hnal hsuf
      cases rest with
      | nil =>
        rw [List.map_nil]
        exact (congrArg startCodeLen (List.append_nil s)).trans (startCodeLen_of_noCode hno')
      | cons next rest => exact startCodeLen_four_behind hs hno' _
    have hcons : annexB ((nal :: rest).map fun nal => (.four, nal)) =
        StartCodeForm.four.bytes ++
          (nal.bytes ++ annexB (rest.map fun nal => (.four, nal))) := by
      unfold annexB
      rw [List.map_cons, List.flatMap_cons, List.append_assoc]
    rw [hcons, pieces_code StartCodeForm.four.bytes_ne_nil (startCodeLen_form _ _), hcut]
    rfl

theorem mem_nalPieces {data nal : List UInt8} (hne : data ≠ []) (h : nal ∈ nalPieces data) :
    nal ≠ [] ∧ ¬ [0, 0, 1] <:+: nal := by
  refine ⟨?_, noCode_of_mem_segments (by rwa [segments_eq])⟩
  unfold nalPieces at h
  split_ifs at h
  · rwa [List.mem_singleton.mp h]
  · have hempty := (List.mem_filter.mp h).2
    rwa [Bool.not_eq_true', List.isEmpty_eq_false_iff] at hempty

/-- NAL units behind four-byte codes are found again, even if they end in zeros. -/
theorem splitAnnexBNals_fours {nals : List ByteVec} {stream : ByteVec}
    (hstream : stream.bytes = annexB (nals.map fun nal => (.four, nal)))
    (hne : ∀ nal ∈ nals, nal.bytes ≠ []) (hno : ∀ nal ∈ nals, ¬ [0, 0, 1] <:+: nal.bytes)
    (codec : CodecType) (timestamp : UInt64) (isIdr : Bool) :
    splitAnnexBNals stream codec timestamp isIdr [] =
      nals.map fun nal => headed nal codec timestamp := by
  have hpieces := pieces_fours nals hno
  rw [← hstream] at hpieces
  cases nals with
  | nil =>
    have hzero : stream.size = 0 := List.length_eq_zero_iff.mpr hstream
    unfold splitAnnexBNals
    rw [if_pos hzero]
    rfl
  | cons nal rest =>
    have hbytes : stream.bytes ≠ [] := by
      intro h
      rw [h, pieces_nil] at hpieces
      cases hpieces
    obtain ⟨found, hfound, hsplit, -⟩ := split_eq_of_data stream hbytes codec timestamp isIdr
    have hall : nalPieces stream.bytes = (nal :: rest).map ByteVec.bytes := by
      unfold nalPieces
      rw [hpieces, if_neg (by exact List.cons_ne_nil _ _), List.filter_eq_self]
      intro piece hpiece
      obtain ⟨n, hn, rfl⟩ := List.mem_map.mp hpiece
      rw [Bool.not_eq_true', List.isEmpty_eq_false_iff]
      exact hne n hn
    rw [hsplit, ByteVec.map_bytes_injective (hfound.trans hall)]

/-- **Written anew, a byte stream keeps its NAL units.** Whatever the bytes are (start codes of any
form, padding, no start code at all), the NAL units found in them and written behind four-byte codes
are found again, with the same flags. -/
theorem splitAnnexBNals_rewritten (data : ByteVec) (codec : CodecType) (timestamp : UInt64)
    (isIdr : Bool)
    (hlen : (rewritten (splitAnnexBNals data codec timestamp isIdr [])).length < 2 ^ 32) :
    splitAnnexBNals ⟨rewritten (splitAnnexBNals data codec timestamp isIdr []), hlen⟩ codec
        timestamp isIdr [] =
      splitAnnexBNals data codec timestamp isIdr [] := by
  by_cases hne : data.bytes = []
  · have hnone : splitAnnexBNals data codec timestamp isIdr [] = [] :=
      if_pos (List.length_eq_zero_iff.mpr hne)
    have hstream : rewritten (splitAnnexBNals data codec timestamp isIdr []) = [] := by
      rw [hnone]
      rfl
    have hempty : ∀ nal ∈ ([] : List ByteVec), nal.bytes ≠ [] ∧ ¬ [0, 0, 1] <:+: nal.bytes := nofun
    exact (splitAnnexBNals_fours hstream (fun nal h => (hempty nal h).1)
      (fun nal h => (hempty nal h).2) codec timestamp isIdr).trans hnone.symm
  obtain ⟨nals, hnals, hsplit, -⟩ := split_eq_of_data data hne codec timestamp isIdr
  have hmem : ∀ nal ∈ nals, nal.bytes ≠ [] ∧ ¬ [0, 0, 1] <:+: nal.bytes := fun nal hnal =>
    mem_nalPieces hne (hnals ▸ List.mem_map_of_mem hnal)
  have hstream : rewritten (splitAnnexBNals data codec timestamp isIdr []) =
      annexB (nals.map fun nal => (.four, nal)) := by
    unfold rewritten
    rw [hsplit, List.map_map]
    rfl
  rw [splitAnnexBNals_fours hstream (fun nal hnal => (hmem nal hnal).1)
    (fun nal hnal => (hmem nal hnal).2), hsplit]

/-- Two NAL units, the first ending in a zero that a three-byte code would take away. -/
theorem splitAnnexBNals_rewritten_ragged :
    let data : ByteVec := ⟨[0, 0, 1, 0x67, 0x42, 0, 0, 0, 0, 1, 0x65, 0x88], by decide⟩
    let nals := splitAnnexBNals data .h264 40 true []
    nals.map (fun nal => nal.data.bytes) = [[0x67, 0x42, 0], [0x65, 0x88]] ∧
      ∃ h, splitAnnexBNals ⟨rewritten nals, h⟩ .h264 40 true [] = nals := by
  intro data nals
  obtain ⟨found, hfound, hsplit, -⟩ :=
    split_eq_of_data data (List.cons_ne_nil _ _) .h264 40 true
  have hbytes : found.map ByteVec.bytes = [[0x67, 0x42, 0], [0x65, 0x88]] := by
    rw [hfound, ← segments_eq]
    decide
  have hmap : nals.map (fun nal => nal.data.bytes) = found.map ByteVec.bytes := by
    show (splitAnnexBNals data .h264 40 true []).map _ = _
    rw [hsplit, List.map_map]
    rfl
  have hlen : (rewritten nals).length < 2 ^ 32 := by
    have hrewritten : rewritten nals =
        (nals.map fun nal => nal.data.bytes).flatMap fun bytes => [0, 0, 0, 1] ++ bytes := by
      unfold rewritten annexB
      rw [List.flatMap_map, List.flatMap_map]
      rfl
    rw [hrewritten, hmap, hbytes]
    decide
  exact ⟨hmap.trans hbytes, hlen, splitAnnexBNals_rewritten data .h264 40 true hlen⟩

end Eye
