import Eye.Rtsp.NalSplit

/-!
# Annex-B streams

The other direction: an encoder puts a start code of three or four bytes in front of each NAL unit
(`annexB`). A NAL unit it may write (`IsNal`) is not empty, contains no `00 00 01` and does not end
in a zero byte; it may contain any other run of zeros and begin with zeros.

`pieces_annexB`: cut at its start codes such a stream gives back the NAL units, and
`splitAnnexBNals_annexB` is the round trip through the splitter.
-/

namespace Eye

open Delimiter

/-- The two forms of a start code. -/
inductive StartCodeForm
  | three | four
  deriving DecidableEq, Repr

def StartCodeForm.bytes : StartCodeForm → List UInt8
  | .three => [0, 0, 1]
  | .four => [0, 0, 0, 1]

/-- The byte stream of NAL units, each behind a start code. -/
def annexB (units : List (StartCodeForm × ByteVec)) : List UInt8 :=
  units.flatMap fun u => u.1.bytes ++ u.2.bytes

/-- A NAL unit as an encoder writes it. -/
structure IsNal (nal : List UInt8) : Prop where
  ne_nil : nal ≠ []
  noCode : ¬ [0, 0, 1] <:+: nal
  lastNonzero : nal.getLast? ≠ some 0

/-! ## Classification -/

/-- The NAL unit type in a header: the low five bits of the first byte for H.264; bits one to six
of the first of two bytes for H.265. -/
def headerType : CodecType → List UInt8 → Option ℕ
  | .h264, b :: _ => some (b.toNat % 32)
  | .h265, b :: _ :: _ => some (b.toNat / 2 % 64)
  | _, _ => none

/-- The header carries one of the types given for its codec. -/
def headerIn (codec : CodecType) (nal : List UInt8) (h264 h265 : List ℕ) : Bool :=
  match codec, headerType codec nal with
  | .h264, some t => h264.contains t
  | .h265, some t => h265.contains t
  | _, _ => false

/-- A NAL unit with the flags of its own header. -/
def headed (nal : ByteVec) (codec : CodecType) (timestamp : UInt64) : ParsedNal where
  data := nal
  timestamp := timestamp
  isIdr := headerIn codec nal.bytes [5] [19, 20]
  isVps := headerIn codec nal.bytes [] [32]
  isSps := headerIn codec nal.bytes [7] [33]
  isPps := headerIn codec nal.bytes [8] [34]

theorem toNat_and_0x1F (b : UInt8) : (b &&& 0x1F).toNat = b.toNat % 32 := by
  rw [UInt8.toNat_and]
  exact Nat.and_two_pow_sub_one_eq_mod b.toNat 5

theorem toNat_shift_and_0x3F (b : UInt8) : ((b >>> 1) &&& 0x3F).toNat = b.toNat / 2 % 64 := by
  rw [UInt8.toNat_and, UInt8.toNat_shiftRight]
  show b.toNat >>> 1 &&& 2 ^ 6 - 1 = _
  rw [Nat.and_two_pow_sub_one_eq_mod, Nat.shiftRight_eq_div_pow]

theorem newNal_h264 (nal : ByteVec) (timestamp : UInt64) (isIdr : Bool) :
    newNal nal .h264 timestamp isIdr = headed nal .h264 timestamp := by
  unfold newNal classifyNal headed headerIn
  cases nal.bytes with
  | nil => rfl
  | cons b rest =>
    simp only [parseH264NalType, headerType, toNat_and_0x1F]
    generalize b.toNat % 32 = t
    obtain rfl | rfl | rfl | rfl | ⟨h1, h5, h7, h8⟩ :
        t = 1 ∨ t = 5 ∨ t = 7 ∨ t = 8 ∨ (t ≠ 1 ∧ t ≠ 5 ∧ t ≠ 7 ∧ t ≠ 8) := by omega
    · rfl
    · rfl
    · rfl
    · rfl
    · simp [h5, h7, h8]

theorem newNal_h265 (nal : ByteVec) (timestamp : UInt64) (isIdr : Bool) :
    newNal nal .h265 timestamp isIdr = headed nal .h265 timestamp := by
  unfold newNal classifyNal headed headerIn
  obtain _ | ⟨b, _ | ⟨c, rest⟩⟩ := nal.bytes
  · rfl
  · rfl
  · simp only [parseH265NalType, headerType, toNat_shift_and_0x3F]
    generalize b.toNat / 2 % 64 = t
    obtain rfl | rfl | rfl | rfl | rfl | ⟨h32, h33, h34, h19, h20⟩ :
        t = 32 ∨ t = 33 ∨ t = 34 ∨ t = 19 ∨ t = 20 ∨
          (t ≠ 32 ∧ t ≠ 33 ∧ t ≠ 34 ∧ t ≠ 19 ∧ t ≠ 20) := by omega
    · rfl
    · rfl
    · rfl
    · rfl
    · rfl
    · simp [h32, h33, h34, h19, h20]

theorem newNal_eq_headed (nal : ByteVec) (codec : CodecType) (timestamp : UInt64) (isIdr : Bool) :
    newNal nal codec timestamp isIdr = headed nal codec timestamp := by
  cases codec with
  | h264 => exact newNal_h264 nal timestamp isIdr
  | h265 => exact newNal_h265 nal timestamp isIdr
  | mjpeg => rfl

theorem ByteVec.map_bytes_injective : Function.Injective (List.map ByteVec.bytes) :=
  List.map_injective_iff.mpr fun _ _ h => ByteVec.ext h

theorem split_eq_of_data (data : ByteVec) (hne : data.bytes ≠ []) (codec : CodecType)
    (timestamp : UInt64) (isIdr : Bool) :
    ∃ nals : List ByteVec, nals.map ByteVec.bytes = nalPieces data.bytes ∧
      splitAnnexBNals data codec timestamp isIdr [] =
        nals.map (fun nal => headed nal codec timestamp) ∧
      (splitAnnexBNals data codec timestamp isIdr []).map ParsedNal.data = nals := by
  obtain ⟨nals, hnals, hsplit⟩ := splitAnnexBNals_eq data codec timestamp isIdr [] hne
  rw [List.nil_append] at hsplit
  simp only [newNal_eq_headed] at hsplit
  refine ⟨nals, hnals, hsplit, ?_⟩
  rw [hsplit, List.map_map]
  exact List.map_id nals

/-! ## The round trip -/

theorem startCodeLen_form (f : StartCodeForm) (p : List UInt8) :
    startCodeLen (f.bytes ++ p) = f.bytes.length := by
  cases f with
  | three => exact startCodeLen_three p
  | four => exact startCodeLen_four p

theorem StartCodeForm.bytes_ne_nil (f : StartCodeForm) : f.bytes ≠ [] := by
  cases f <;> exact List.cons_ne_nil _ _

theorem IsNal.not_prefix_suffix {nal s : List UInt8} (hn : IsNal nal) (hsuf : s <:+ nal) :
    ¬ [0, 0, 1] <+: s := fun h => hn.noCode (h.isInfix.trans hsuf.isInfix)

theorem getLast?_suffix_ne {s l : List UInt8} (hs : s ≠ []) (hsuf : s <:+ l)
    (hlast : l.getLast? ≠ some 0) : s.getLast? ≠ some 0 := by
  obtain ⟨t, rfl⟩ := hsuf
  rwa [List.getLast?_append_of_ne_nil t hs] at hlast

/-- A code of zeros and a one lies within a part that does not end in a zero, or not at all. -/
theorem zeros_one_prefix_append {n : ℕ} {s : List UInt8} (b : List UInt8) (hs : s ≠ [])
    (hlast : s.getLast? ≠ some 0) :
    List.replicate n 0 ++ [1] <+: s ++ b ↔ List.replicate n 0 ++ [1] <+: s := by
  induction n generalizing s with
  | zero =>
    cases s with
    | nil => exact absurd rfl hs
    | cons x s => simp [List.cons_prefix_cons]
  | succ n ih =>
    cases s with
    | nil => exact absurd rfl hs
    | cons x s =>
      rw [List.replicate_succ, List.cons_append, List.cons_append, List.cons_prefix_cons,
        List.cons_prefix_cons]
      apply and_congr_right
      rintro rfl
      by_cases hnil : s = []
      · subst hnil
        exact absurd rfl hlast
      · apply ih hnil
        rwa [List.getLast?_cons_of_ne_nil hnil] at hlast

theorem startCodeLen_append {s : List UInt8} (b : List UInt8) (hs : s ≠ [])
    (hlast : s.getLast? ≠ some 0) : startCodeLen (s ++ b) = startCodeLen s := by
  have h3 := zeros_one_prefix_append (n := 2) b hs hlast
  have h4 := zeros_one_prefix_append (n := 3) b hs hlast
  rw [startCodeLen_eq, startCodeLen_eq]
  exact if_congr h3 rfl (if_congr h4 rfl rfl)

/-- No start code begins inside a NAL unit, whatever comes behind it. -/
theorem startCodeLen_suffix {nal s : List UInt8} (hn : IsNal nal) (hs : s ≠ [])
    (hsuf : s <:+ nal) (b : List UInt8) : startCodeLen (s ++ b) = 0 := by
  rw [startCodeLen_append b hs (getLast?_suffix_ne hs hsuf hn.lastNonzero), startCodeLen_eq_zero]
  refine ⟨hn.not_prefix_suffix hsuf, ?_⟩
  rintro ⟨t, rfl⟩
  exact hn.not_prefix_suffix ((List.suffix_cons 0 _).trans hsuf) ⟨t, rfl⟩

theorem pieces_annexB (units : List (StartCodeForm × ByteVec))
    (hn : ∀ u ∈ units, IsNal u.2.bytes) :
    pieces startCodeLen (annexB units) = ([], units.map fun u => u.2.bytes) := by
  induction units with
  | nil => exact pieces_nil
  | cons u units ih =>
    have hu := hn u List.mem_cons_self
    have htail := ih fun v hv => hn v (List.mem_cons_of_mem _ hv)
    have hnal : pieces startCodeLen (u.2.bytes ++ annexB units) =
        (u.2.bytes ++ (pieces startCodeLen (annexB units)).1,
          (pieces startCodeLen (annexB units)).2) :=
      pieces_append fun s hs hsuf => startCodeLen_suffix hu hs hsuf _
    have hcons : annexB (u :: units) = u.1.bytes ++ (u.2.bytes ++ annexB units) := by
      unfold annexB
      rw [List.flatMap_cons, List.append_assoc]
    rw [hcons, pieces_code u.1.bytes_ne_nil (startCodeLen_form _ _), hnal, htail, List.map_cons,
      List.append_nil]

theorem nalPieces_annexB {units : List (StartCodeForm × ByteVec)} (hne : units ≠ [])
    (hn : ∀ u ∈ units, IsNal u.2.bytes) :
    nalPieces (annexB units) = units.map fun u => u.2.bytes := by
  unfold nalPieces
  rw [pieces_annexB units hn, if_neg (by simpa using hne), List.filter_eq_self]
  intro p hp
  obtain ⟨u, hu, rfl⟩ := List.mem_map.mp hp
  rw [Bool.not_eq_true', List.isEmpty_eq_false_iff]
  exact (hn u hu).ne_nil

/-- **Annex-B round trip.** The splitter appends exactly the NAL units of the stream, in order and
byte for byte, each with the timestamp given and the flags of its own header. -/
theorem splitAnnexBNals_annexB (units : List (StartCodeForm × ByteVec)) (hne : units ≠ [])
    (hn : ∀ u ∈ units, IsNal u.2.bytes) (hlen : (annexB units).length < 2 ^ 32)
    (codec : CodecType) (timestamp : UInt64) (isIdr : Bool) (out : List ParsedNal) :
    splitAnnexBNals ⟨annexB units, hlen⟩ codec timestamp isIdr out =
      out ++ units.map fun u => headed u.2 codec timestamp := by
  have hbytes : annexB units ≠ [] := by
    obtain ⟨u, rest, rfl⟩ := List.exists_cons_of_ne_nil hne
    unfold annexB
    rw [List.flatMap_cons, List.append_assoc]
    exact List.append_ne_nil_of_left_ne_nil u.1.bytes_ne_nil _
  obtain ⟨nals, hnals, hsplit⟩ := splitAnnexBNals_eq ⟨annexB units, hlen⟩ codec timestamp isIdr out
    hbytes
  rw [nalPieces_annexB hne hn] at hnals
  have hmap : nals = units.map Prod.snd := by
    apply ByteVec.map_bytes_injective
    rw [hnals, List.map_map]
    rfl
  rw [hsplit, hmap, List.map_map]
  congr 1
  exact List.map_congr_left fun u _ => newNal_eq_headed _ _ _ _

/-- A parameter set and a slice of an H.264 stream, the slice beginning with zeros behind its
header and ending in a one. -/
theorem splitAnnexBNals_annexB_sps_idr :
    let sps : ByteVec := ⟨[0x67, 0x42], by decide⟩
    let idr : ByteVec := ⟨[0x65, 0x00, 0x00, 0x00, 0x02], by decide⟩
    splitAnnexBNals ⟨annexB [(.four, sps), (.three, idr)], by decide⟩ .h264 40 true [] =
      [⟨sps, 40, false, false, true, false⟩, ⟨idr, 40, true, false, false, false⟩] := by
  intro sps idr
  exact splitAnnexBNals_annexB [(.four, sps), (.three, idr)] (List.cons_ne_nil _ _)
    (by
      intro u hu
      rcases List.mem_cons.mp hu with rfl | hu
      · exact ⟨by decide, by decide, by decide⟩
      · rw [List.mem_singleton.mp hu]
        exact ⟨by decide, by decide, by decide⟩) _ .h264 40 true []

end Eye
