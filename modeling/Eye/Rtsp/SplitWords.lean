import Mathlib.Algebra.Group.Nat.Defs
import Eye.Rtsp.CodePositions

/-!
# The splitter on 32-bit indices

`splitAnnexBNals32` is the splitter with the indices, lengths and reads that the code has: `none`
where it would read outside the data, where an index or an offset would wrap, or where the scan
takes more than `fuel` turns. `splitAnnexBNals32_eq` says that none of this happens and that the
slices are the segments.
-/

namespace Eye

/-- `a + b`, if it does not wrap. -/
def add32 (a b : UInt32) : Option UInt32 :=
  if a.toNat + b.toNat < 2 ^ 32 then some (a + b) else none

/-- `a - b`, if it does not wrap. -/
def sub32 (a b : UInt32) : Option UInt32 := if b ≤ a then some (a - b) else none

/-- `p[0] == b₀ && p[1] == b₁ && …` -/
def readsAs (data : List UInt8) : ℕ → List UInt8 → Option Bool
  | _, [] => some true
  | p, b :: bs => (data[p]?).bind fun x => if x = b then readsAs data (p + 1) bs else some false

/-- `start_code_len` of the bytes from index `p` up to `stop`. -/
def startCodeLen32 (data : List UInt8) (p stop : ℕ) : Option UInt32 :=
  (if p + 3 ≤ stop then readsAs data p [0, 0, 1] else some false).bind fun three =>
    if three then some 3
    else
      (if p + 4 ≤ stop then readsAs data p [0, 0, 0, 1] else some false).map fun four =>
        if four then 4 else 0

/-- The scan from index `i` on: the entries of `nal_offsets` and `nal_sc_lens`. -/
def scanStartCodes32 (data : List UInt8) (len : UInt32) :
    ℕ → UInt32 → Option (List (UInt32 × UInt32))
  | 0, i => if i < len then none else some []
  | fuel + 1, i =>
    if i < len then
      (startCodeLen32 data i.toNat len.toNat).bind fun scLen =>
        if 0 < scLen then
          (add32 i scLen).bind fun i =>
            (scanStartCodes32 data len fuel i).map fun codes => (i, scLen) :: codes
        else (add32 i 1).bind fun i => scanStartCodes32 data len fuel i
    else some []

/-- `assign(data + start, data + stop)` -/
def copy32 (data : List UInt8) (start stop : UInt32) : Option (List UInt8) :=
  if start ≤ stop ∧ stop.toNat ≤ data.length then some (sliceOf data (start.toNat, stop.toNat))
  else none

/-- The loop over the start codes. -/
def nals32 (data : List UInt8) (len : UInt32) : List (UInt32 × UInt32) → Option (List (List UInt8))
  | [] => some []
  | (start, _) :: codes =>
    (match codes with
      | [] => some len
      | (offset, scLen) :: _ => sub32 offset scLen).bind fun stop =>
        if stop ≤ start then nals32 data len codes
        else
          (copy32 data start stop).bind fun nal =>
            (nals32 data len codes).map fun nals => nal :: nals

/-- `split_annex_b_nals`: the bytes of the NAL units. -/
def splitAnnexBNals32 (data : ByteVec) (fuel : ℕ) : Option (List (List UInt8)) :=
  let len := UInt32.ofNat data.size
  if len = 0 then some []
  else
    (scanStartCodes32 data.bytes len fuel 0).bind fun codes =>
      match codes with
      | [] => (copy32 data.bytes 0 len).map fun nal => [nal]
      | codes => nals32 data.bytes len codes

/-! ## It does not wrap, and it reads what is there -/

variable {data : List UInt8}

theorem toNat_ofNat32 {n : ℕ} (h : n < 2 ^ 32) : (UInt32.ofNat n).toNat = n := by
  rw [UInt32.toNat_ofNat', Nat.mod_eq_of_lt h]

theorem add32_ofNat {a b : ℕ} (h : a + b < 2 ^ 32) :
    add32 (UInt32.ofNat a) (UInt32.ofNat b) = some (UInt32.ofNat (a + b)) := by
  unfold add32
  rw [toNat_ofNat32 (by omega), toNat_ofNat32 (by omega), if_pos h, UInt32.ofNat_add]

theorem sub32_ofNat {a b : ℕ} (ha : a < 2 ^ 32) (h : b ≤ a) :
    sub32 (UInt32.ofNat a) (UInt32.ofNat b) = some (UInt32.ofNat (a - b)) := by
  have hle : UInt32.ofNat b ≤ UInt32.ofNat a := by
    rw [UInt32.le_iff_toNat_le, toNat_ofNat32 ha, toNat_ofNat32 (by omega)]
    exact h
  unfold sub32
  rw [if_pos hle]
  congr 1
  apply UInt32.toNat_inj.mp
  rw [UInt32.toNat_sub_of_le _ _ hle, toNat_ofNat32 ha, toNat_ofNat32 (by omega),
    toNat_ofNat32 (by omega)]

theorem readsAs_eq {p : ℕ} {bs : List UInt8} (h : p + bs.length ≤ data.length) :
    readsAs data p bs = some (decide (bs <+: data.drop p)) := by
  induction bs generalizing p with
  | nil => simp [readsAs]
  | cons b bs ih =>
    rw [List.length_cons] at h
    have hlt : p < data.length := by omega
    unfold readsAs
    rw [List.getElem?_eq_getElem hlt, Option.bind_some, List.drop_eq_getElem_cons hlt]
    by_cases hb : data[p] = b
    · rw [if_pos hb, ih (by omega)]
      congr 2
      rw [List.cons_prefix_cons, eq_iff_iff, and_iff_right hb.symm]
    · rw [if_neg hb, eq_comm, Option.some.injEq, decide_eq_false_iff_not, List.cons_prefix_cons]
      rintro ⟨h, -⟩
      exact hb h.symm

theorem guarded_eq {p : ℕ} (hp : p ≤ data.length) (bs : List UInt8) :
    (if p + bs.length ≤ data.length then readsAs data p bs else some false) =
      some (decide (bs <+: data.drop p)) := by
  split_ifs with h
  · exact readsAs_eq h
  · rw [eq_comm, Option.some.injEq, decide_eq_false_iff_not]
    intro hprefix
    have hle := hprefix.length_le
    rw [List.length_drop] at hle
    omega

theorem startCodeLen32_eq {p : ℕ} (hp : p ≤ data.length) :
    startCodeLen32 data p data.length = some (UInt32.ofNat (startCodeLen (data.drop p))) := by
  have h3 := guarded_eq hp [0, 0, 1]
  have h4 := guarded_eq hp [0, 0, 0, 1]
  rw [List.length_cons, List.length_cons, List.length_cons, List.length_nil] at h3
  rw [List.length_cons, List.length_cons, List.length_cons, List.length_cons,
    List.length_nil] at h4
  unfold startCodeLen32
  rw [h3, Option.bind_some, startCodeLen_eq, h4, Option.map_some]
  by_cases hc3 : [0, 0, 1] <+: data.drop p
  · rw [if_pos hc3, if_pos (decide_eq_true hc3)]
    rfl
  · rw [if_neg hc3, if_neg (by simpa using hc3)]
    by_cases hc4 : [0, 0, 0, 1] <+: data.drop p
    · rw [if_pos hc4, if_pos (decide_eq_true hc4)]
      rfl
    · rw [if_neg hc4, if_neg (by simpa using hc4)]
      rfl

/-! ## The scan -/

/-- An entry of the scan, as the code stores it. -/
def StartCode.words (c : StartCode) : UInt32 × UInt32 :=
  (UInt32.ofNat c.offset, UInt32.ofNat c.scLen)

theorem scanStartCodes32_eq (hlen : data.length < 2 ^ 32) {fuel i : ℕ} (hi : i ≤ data.length)
    (hfuel : data.length ≤ i + fuel) :
    scanStartCodes32 data (UInt32.ofNat data.length) fuel (UInt32.ofNat i) =
      some ((scanStartCodes data i).map StartCode.words) := by
  have hlt : ∀ {a b : ℕ}, a < 2 ^ 32 → b < 2 ^ 32 →
      (UInt32.ofNat a < UInt32.ofNat b ↔ a < b) := by
    intro a b ha hb
    rw [UInt32.lt_iff_toNat_lt, toNat_ofNat32 ha, toNat_ofNat32 hb]
  induction fuel generalizing i with
  | zero =>
    unfold scanStartCodes32
    rw [if_neg (by rw [hlt (by omega) hlen]; omega), scanStartCodes_of_le (by omega)]
    rfl
  | succ fuel ih =>
    unfold scanStartCodes32
    rcases Nat.lt_or_ge i data.length with h | h
    · have hle := startCodeLen_le (data.drop i)
      rw [List.length_drop] at hle
      rw [if_pos ((hlt (by omega) hlen).mpr h), toNat_ofNat32 (by omega), toNat_ofNat32 hlen,
        startCodeLen32_eq (by omega), Option.bind_some]
      have hzero : (0 : UInt32) < UInt32.ofNat (startCodeLen (data.drop i)) ↔
          0 < startCodeLen (data.drop i) := hlt (a := 0) (by omega) (by omega)
      by_cases hpos : 0 < startCodeLen (data.drop i)
      · rw [if_pos (hzero.mpr hpos), add32_ofNat (by omega), Option.bind_some,
          ih (by omega) (by omega), scanStartCodes_code h hpos]
        rfl
      · have hone : add32 (UInt32.ofNat i) 1 = some (UInt32.ofNat (i + 1)) :=
          add32_ofNat (a := i) (b := 1) (by omega)
        rw [if_neg (mt hzero.mp hpos), hone, Option.bind_some, ih (by omega) (by omega),
          scanStartCodes_next h (by omega)]
    · rw [if_neg (by rw [hlt (by omega) hlen]; omega), scanStartCodes_of_le h]
      rfl

/-! ## The slices -/

theorem copy32_eq (hlen : data.length < 2 ^ 32) {start stop : ℕ} (h : start ≤ stop)
    (hstop : stop ≤ data.length) :
    copy32 data (UInt32.ofNat start) (UInt32.ofNat stop) = some (sliceOf data (start, stop)) := by
  have hle : UInt32.ofNat start ≤ UInt32.ofNat stop := by
    rw [UInt32.le_iff_toNat_le, toNat_ofNat32 (by omega), toNat_ofNat32 (by omega)]
    exact h
  unfold copy32
  rw [toNat_ofNat32 (by omega), toNat_ofNat32 (by omega), if_pos ⟨hle, hstop⟩]

theorem nals32_eq (hlen : data.length < 2 ^ 32) {codes : List StartCode}
    (hrange : ∀ r ∈ codeRanges data.length codes, r.1 ≤ r.2 ∧ r.2 ≤ data.length)
    (hunder : ∀ c ∈ codes, c.scLen ≤ c.offset) :
    nals32 data (UInt32.ofNat data.length) (codes.map StartCode.words) =
      some ((nalRanges data.length codes).map (sliceOf data)) := by
  induction codes with
  | nil => rfl
  | cons c codes ih =>
    have hhead := hrange (c.offset, nalStop data.length codes) List.mem_cons_self
    have htail := ih (fun r hr => hrange r (List.mem_cons_of_mem _ hr))
      fun c' hc' => hunder c' (List.mem_cons_of_mem _ hc')
    have hstop : (match codes.map StartCode.words with
        | [] => some (UInt32.ofNat data.length)
        | (offset, scLen) :: _ => sub32 offset scLen) =
          some (UInt32.ofNat (nalStop data.length codes)) := by
      cases codes with
      | nil => rfl
      | cons c' codes =>
        have hnext := hrange (c'.offset, nalStop data.length codes)
          (List.mem_cons_of_mem _ List.mem_cons_self)
        dsimp only at hnext
        exact sub32_ofNat (by omega) (hunder c' (List.mem_cons_of_mem _ List.mem_cons_self))
    dsimp only at hhead
    have hle : UInt32.ofNat (nalStop data.length codes) ≤ UInt32.ofNat c.offset ↔
        nalStop data.length codes ≤ c.offset := by
      rw [UInt32.le_iff_toNat_le, toNat_ofNat32 (by omega), toNat_ofNat32 (by omega)]
    rw [List.map_cons, show c.words = (UInt32.ofNat c.offset, UInt32.ofNat c.scLen) from rfl]
    unfold nals32 nalRanges
    rw [hstop, Option.bind_some, htail]
    by_cases hempty : nalStop data.length codes ≤ c.offset
    · rw [if_pos (hle.mpr hempty), if_pos hempty]
    · rw [if_neg (mt hle.mp hempty), if_neg hempty, copy32_eq hlen hhead.1 hhead.2]
      rfl

/-- The 32-bit splitter takes at most as many turns as there are bytes, and emits the segments. -/
theorem splitAnnexBNals32_eq (data : ByteVec) (hne : data.size ≠ 0) :
    splitAnnexBNals32 data data.size = some (segments data.bytes) := by
  have hlen : data.bytes.length < 2 ^ 32 := data.size_lt
  have hscans := scans_scanStartCodes data.bytes 0 (Nat.zero_le _)
  have hscan : scanStartCodes32 data.bytes (UInt32.ofNat data.size) data.size 0 =
      some ((scanStartCodes data.bytes 0).map StartCode.words) :=
    scanStartCodes32_eq hlen (i := 0) (Nat.zero_le _) (Nat.le_of_eq (Nat.zero_add _).symm)
  have hzero : UInt32.ofNat data.size ≠ 0 := by
    intro h
    have := congrArg UInt32.toNat h
    rw [toNat_ofNat32 (n := data.size) data.size_lt] at this
    exact hne this
  unfold splitAnnexBNals32
  dsimp only
  rw [if_neg hzero, hscan, Option.bind_some, segments_eq]
  unfold nalPieces
  by_cases hcodes : scanStartCodes data.bytes 0 = []
  · have hcopy : copy32 data.bytes 0 (UInt32.ofNat data.size) =
        some (sliceOf data.bytes (0, data.size)) :=
      @copy32_eq _ hlen 0 _ (Nat.zero_le _) (Nat.le_refl _)
    rw [if_pos ((scanStartCodes_eq_nil _).mp hcodes), hcodes, List.map_nil]
    dsimp only
    rw [hcopy]
    unfold sliceOf
    rw [List.drop_zero, Nat.sub_zero, Option.map_some]
    exact congrArg (fun l => some [l]) List.take_length
  · have hnals := nals32_eq hlen hscans.inBounds hscans.noUnderflow
    rw [if_neg (mt (scanStartCodes_eq_nil _).mpr hcodes), ← map_nalRanges, ← hnals]
    cases hc : scanStartCodes data.bytes 0 with
    | nil => exact absurd hc hcodes
    | cons c codes => rfl

/-- **The splitter cuts at the start codes.** For any bytes, well formed or not, it emits the
segments; none of them contains `00 00 01`, they lie within the data one behind the other, and the
32-bit code reads only the data, wraps nowhere and ends. -/
theorem splitAnnexBNals_segments (data : ByteVec) (hne : data.size ≠ 0) (codec : CodecType)
    (timestamp : UInt64) (isIdr : Bool) (out : List ParsedNal) :
    (∃ nals : List ByteVec, nals.map ByteVec.bytes = segments data.bytes ∧
      splitAnnexBNals data codec timestamp isIdr out =
        out ++ nals.map fun nal => newNal nal codec timestamp isIdr) ∧
    (∀ nal ∈ segments data.bytes, ¬ [0, 0, 1] <:+: nal) ∧
    (∀ r ∈ segmentRanges data.bytes (positions data.bytes), r.1 ≤ r.2 ∧ r.2 ≤ data.size) ∧
    (segmentRanges data.bytes (positions data.bytes)).Pairwise (fun r r' => r.2 ≤ r'.1) ∧
    splitAnnexBNals32 data data.size = some (segments data.bytes) := by
  refine ⟨?_, fun _ h => noCode_of_mem_segments h, segmentRanges_le,
    pairwise_segmentRanges (pairwise_positionsFrom _ _), splitAnnexBNals32_eq data hne⟩
  rw [segments_eq]
  exact splitAnnexBNals_eq data codec timestamp isIdr out fun h => hne (by simp [ByteVec.size, h])

/-- Bytes before the first start code, a run of four zeros, two start codes in a row, and a start
code that is cut off. -/
def ragged : ByteVec := ⟨[9, 0, 0, 0, 0, 1, 7, 0, 0, 1, 0, 0, 1, 8, 0, 0], by decide⟩

theorem splitAnnexBNals_segments_ragged :
    positions ragged.bytes = [3, 7, 10] ∧ segments ragged.bytes = [[7], [8, 0, 0]] ∧
      splitAnnexBNals32 ragged ragged.size = some [[7], [8, 0, 0]] := by
  have hsegments : segments ragged.bytes = [[7], [8, 0, 0]] := by decide
  obtain ⟨-, -, -, -, hsplit⟩ :=
    splitAnnexBNals_segments ragged (by decide) .h264 40 false []
  exact ⟨by decide, hsegments, hsplit.trans (congrArg some hsegments)⟩

end Eye
