import Mathlib.Data.List.Range
import Eye.Rtsp.NalSplit

/-!
# Where the splitter cuts

`positions` are the indices at which `00 00 01` occurs in a byte string, and `segments` what stands
between them: from three bytes behind an occurrence to the next one, or to the zero in front of it.
`splitAnnexBNals_segments` says that the splitter emits the segments that are not empty, for any
bytes, and that it gets there by reads within the string and offsets that do not wrap.

The scan finds every occurrence because it is always at a place that the four-byte code has been
tested for (`Settled`): an occurrence behind a zero has been found one byte earlier.
-/

namespace Eye

open Delimiter

/-- `00 00 01` occurs at that index. -/
def IsCodeAt (data : List UInt8) (p : ℕ) : Prop := [0, 0, 1] <+: data.drop p

instance (data : List UInt8) (p : ℕ) : Decidable (IsCodeAt data p) :=
  inferInstanceAs (Decidable (_ <+: _))

/-- The occurrences of `00 00 01` from index `i` on. -/
def positionsFrom (data : List UInt8) (i : ℕ) : List ℕ :=
  (List.range' i (data.length - i)).filter fun p => IsCodeAt data p

/-- The occurrences of `00 00 01`. -/
def positions (data : List UInt8) : List ℕ := positionsFrom data 0

/-- The byte in front of an index is zero. -/
def zeroBefore (data : List UInt8) (p : ℕ) : Bool := 0 < p && data[p - 1]? == some 0

/-- Where the segment in front of the occurrences `ps` ends. -/
def segmentEnd (data : List UInt8) : List ℕ → ℕ
  | [] => data.length
  | p :: _ => if zeroBefore data p then p - 1 else p

/-- First and past-the-end index of the segment behind each occurrence. -/
def segmentRanges (data : List UInt8) : List ℕ → List (ℕ × ℕ)
  | [] => []
  | p :: ps => (p + 3, segmentEnd data ps) :: segmentRanges data ps

/-- What stands behind each occurrence, where there is something; the whole if there is no
occurrence. -/
def segments (data : List UInt8) : List (List UInt8) :=
  if positions data = [] then [data]
  else ((segmentRanges data (positions data)).filter fun r => r.1 < r.2).map (sliceOf data)

/-! ## Occurrences -/

theorem isCodeAt_iff {data : List UInt8} {p : ℕ} :
    IsCodeAt data p ↔ data[p]? = some 0 ∧ data[p + 1]? = some 0 ∧ data[p + 2]? = some 1 := by
  unfold IsCodeAt
  rw [← three_byte_code]
  simp only [List.getElem?_drop, Nat.add_zero]
  constructor
  · rintro ⟨-, h⟩
    exact h
  · rintro ⟨h0, h1, h2⟩
    have hlt := (List.getElem?_eq_some_iff.mp h2).1
    refine ⟨?_, h0, h1, h2⟩
    rw [List.length_drop]
    omega

theorem isFourAt_iff {data : List UInt8} {p : ℕ} :
    [0, 0, 0, 1] <+: data.drop p ↔ data[p]? = some 0 ∧ IsCodeAt data (p + 1) := by
  rw [isCodeAt_iff, ← four_byte_code]
  simp only [List.getElem?_drop, Nat.add_zero, Nat.add_assoc, Nat.reduceAdd]
  constructor
  · rintro ⟨-, h⟩
    exact h
  · rintro ⟨h0, h1, h2, h3⟩
    have hlt := (List.getElem?_eq_some_iff.mp h3).1
    refine ⟨?_, h0, h1, h2, h3⟩
    rw [List.length_drop]
    omega

theorem startCodeLen_drop (data : List UInt8) (i : ℕ) :
    startCodeLen (data.drop i) =
      if IsCodeAt data i then 3 else if [0, 0, 0, 1] <+: data.drop i then 4 else 0 :=
  startCodeLen_eq _

theorem IsCodeAt.disjoint {data : List UInt8} {p q : ℕ} (hp : IsCodeAt data p) (hlt : p < q)
    (hle : q < p + 3) : ¬ IsCodeAt data q := by
  intro hq
  rw [isCodeAt_iff] at hp hq
  obtain ⟨h0, h1, h2⟩ := hp
  obtain ⟨k0, k1, k2⟩ := hq
  obtain rfl | rfl : q = p + 1 ∨ q = p + 2 := by omega
  · rw [h2] at k1
    cases k1
  · rw [h2] at k0
    cases k0

theorem IsCodeAt.lt {data : List UInt8} {p : ℕ} (hp : IsCodeAt data p) : p + 2 < data.length :=
  (List.getElem?_eq_some_iff.mp (isCodeAt_iff.mp hp).2.2).1

theorem positionsFrom_of_le {data : List UInt8} {i : ℕ} (h : data.length ≤ i) :
    positionsFrom data i = [] := by
  unfold positionsFrom
  rw [Nat.sub_eq_zero_of_le h]
  rfl

theorem positionsFrom_cons {data : List UInt8} {i : ℕ} (h : IsCodeAt data i) :
    positionsFrom data i = i :: positionsFrom data (i + 1) := by
  have hlt := h.lt
  unfold positionsFrom
  rw [show data.length - i = data.length - (i + 1) + 1 by omega, List.range'_succ,
    List.filter_cons_of_pos (by simpa using h)]

theorem positionsFrom_succ {data : List UInt8} {i : ℕ} (h : ¬ IsCodeAt data i) :
    positionsFrom data i = positionsFrom data (i + 1) := by
  rcases Nat.lt_or_ge i data.length with hlt | hge
  · unfold positionsFrom
    rw [show data.length - i = data.length - (i + 1) + 1 by omega, List.range'_succ,
      List.filter_cons_of_neg (by simpa using h)]
  · rw [positionsFrom_of_le hge, positionsFrom_of_le (by omega)]

/-- Behind an occurrence the next one is at least three bytes on. -/
theorem positionsFrom_code {data : List UInt8} {i : ℕ} (h : IsCodeAt data i) :
    positionsFrom data i = i :: positionsFrom data (i + 3) := by
  rw [positionsFrom_cons h, positionsFrom_succ (h.disjoint (by omega) (by omega)),
    positionsFrom_succ (h.disjoint (by omega) (by omega))]

theorem mem_positionsFrom {data : List UInt8} {i p : ℕ} :
    p ∈ positionsFrom data i ↔ i ≤ p ∧ IsCodeAt data p := by
  unfold positionsFrom
  rw [List.mem_filter, List.mem_range'_1, decide_eq_true_iff]
  constructor
  · rintro ⟨⟨hle, -⟩, h⟩
    exact ⟨hle, h⟩
  · rintro ⟨hle, h⟩
    have := h.lt
    exact ⟨⟨hle, by omega⟩, h⟩

theorem pairwise_positionsFrom (data : List UInt8) (i : ℕ) :
    (positionsFrom data i).Pairwise (· < ·) :=
  List.Pairwise.filter _ List.pairwise_lt_range'

/-! ## The scan -/

/-- The entry that the scan makes for an occurrence. -/
def codeAt (data : List UInt8) (p : ℕ) : StartCode :=
  ⟨p + 3, if zeroBefore data p then 4 else 3⟩

/-- No occurrence at this index that should have been found one byte earlier. -/
def Settled (data : List UInt8) (i : ℕ) : Prop := IsCodeAt data i → zeroBefore data i = false

theorem zeroBefore_succ {data : List UInt8} {i : ℕ} :
    zeroBefore data (i + 1) = (data[i]? == some 0) := by
  unfold zeroBefore
  simp

theorem settled_of_code {data : List UInt8} {p : ℕ} (h : IsCodeAt data p) :
    Settled data (p + 3) := by
  intro _
  rw [zeroBefore_succ, (isCodeAt_iff.mp h).2.2]
  rfl

/-- The scan finds the occurrences, all of them and in order. -/
theorem scanStartCodes_eq (data : List UInt8) (i : ℕ) (hs : Settled data i) :
    scanStartCodes data i = (positionsFrom data i).map (codeAt data) := by
  generalize hm : data.length - i = m
  induction m using Nat.strongRecOn generalizing i with
  | ind m ih =>
    rcases Nat.lt_or_ge i data.length with hlt | hge
    · by_cases h3 : IsCodeAt data i
      · have hlen : startCodeLen (data.drop i) = 3 := by
          rw [startCodeLen_drop, if_pos h3]
        rw [scanStartCodes_code hlt (by omega), hlen, positionsFrom_code h3,
          ih (data.length - (i + 3)) (by omega) (i + 3) (settled_of_code h3) rfl, List.map_cons]
        congr 1
        unfold codeAt
        rw [hs h3]
        rfl
      · by_cases h4 : [0, 0, 0, 1] <+: data.drop i
        · obtain ⟨hzero, hcode⟩ := isFourAt_iff.mp h4
          have hlen : startCodeLen (data.drop i) = 4 := by
            rw [startCodeLen_drop, if_neg h3, if_pos h4]
          rw [scanStartCodes_code hlt (by omega), hlen, positionsFrom_succ h3,
            positionsFrom_code hcode,
            ih (data.length - (i + 4)) (by omega) (i + 4) (settled_of_code hcode) rfl,
            List.map_cons]
          congr 1
          unfold codeAt
          rw [zeroBefore_succ, hzero]
          rfl
        · have hlen : startCodeLen (data.drop i) = 0 := startCodeLen_eq_zero.mpr ⟨h3, h4⟩
          have hsettled : Settled data (i + 1) := by
            intro hcode
            rw [zeroBefore_succ]
            by_contra hzero
            apply h4
            exact isFourAt_iff.mpr ⟨by simpa using hzero, hcode⟩
          rw [scanStartCodes_next hlt hlen, positionsFrom_succ h3]
          exact ih (data.length - (i + 1)) (by omega) (i + 1) hsettled rfl
    · rw [scanStartCodes_of_le hge, positionsFrom_of_le hge]
      rfl

/-! ## The segments -/

theorem nalStop_codeAt (data : List UInt8) (ps : List ℕ) :
    nalStop data.length (ps.map (codeAt data)) = segmentEnd data ps := by
  cases ps with
  | nil => rfl
  | cons p ps =>
    show p + 3 - (if zeroBefore data p then 4 else 3) = if zeroBefore data p then p - 1 else p
    split_ifs <;> omega

theorem codeRanges_codeAt (data : List UInt8) (ps : List ℕ) :
    codeRanges data.length (ps.map (codeAt data)) = segmentRanges data ps := by
  induction ps with
  | nil => rfl
  | cons p ps ih =>
    unfold segmentRanges
    rw [List.map_cons, codeRanges, ih, nalStop_codeAt]
    rfl

theorem scanStartCodes_zero (data : List UInt8) :
    scanStartCodes data 0 = (positions data).map (codeAt data) :=
  scanStartCodes_eq data 0 fun _ => rfl

theorem segments_eq (data : List UInt8) : segments data = nalPieces data := by
  have hnil : positions data = [] ↔ (pieces startCodeLen data).2 = [] := by
    rw [← scanStartCodes_eq_nil, scanStartCodes_zero, List.map_eq_nil_iff]
  unfold segments nalPieces
  rw [← map_nalRanges, scanStartCodes_zero, nalRanges_eq_filter, codeRanges_codeAt]
  simp only [hnil]

/-- Each range stands behind one of the occurrences and ends before the next. -/
theorem mem_segmentRanges {data : List UInt8} {ps : List ℕ} {r : ℕ × ℕ} :
    r ∈ segmentRanges data ps ↔
      ∃ before p after, ps = before ++ p :: after ∧ r = (p + 3, segmentEnd data after) := by
  induction ps with
  | nil =>
    simp [segmentRanges]
  | cons q ps ih =>
    unfold segmentRanges
    rw [List.mem_cons, ih]
    constructor
    · rintro (rfl | ⟨before, p, after, rfl, rfl⟩)
      · exact ⟨[], q, ps, rfl, rfl⟩
      · exact ⟨q :: before, p, after, rfl, rfl⟩
    · rintro ⟨before, p, after, hps, rfl⟩
      cases before with
      | nil =>
        cases hps
        exact .inl rfl
      | cons b before =>
        cases hps
        exact .inr ⟨before, p, after, rfl, rfl⟩

theorem segmentEnd_le {data : List UInt8} {ps : List ℕ} (h : ps.Pairwise (· < ·)) {q : ℕ}
    (hq : q ∈ ps) : segmentEnd data ps ≤ q := by
  cases ps with
  | nil => simp at hq
  | cons p ps =>
    have hle : p ≤ q := by
      rcases List.mem_cons.mp hq with rfl | hq
      · exact Nat.le_refl _
      · exact Nat.le_of_lt ((List.pairwise_cons.mp h).1 q hq)
    show (if zeroBefore data p then p - 1 else p) ≤ q
    split_ifs <;> omega

theorem pairwise_segmentRanges {data : List UInt8} {ps : List ℕ} (h : ps.Pairwise (· < ·)) :
    (segmentRanges data ps).Pairwise fun r r' => r.2 ≤ r'.1 := by
  induction ps with
  | nil => exact List.Pairwise.nil
  | cons p ps ih =>
    have htail := (List.pairwise_cons.mp h).2
    refine List.pairwise_cons.mpr ⟨?_, ih htail⟩
    intro r hr
    obtain ⟨before, q, after, rfl, rfl⟩ := mem_segmentRanges.mp hr
    have hle : segmentEnd data (before ++ q :: after) ≤ q := segmentEnd_le htail (by simp)
    dsimp only
    omega

theorem noCode_of_mem_segmentRanges {data : List UInt8} {r : ℕ × ℕ}
    (hr : r ∈ segmentRanges data (positions data)) : ¬ [0, 0, 1] <:+: sliceOf data r := by
  rintro ⟨pre, post, hinfix⟩
  obtain ⟨before, p, after, hps, rfl⟩ := mem_segmentRanges.mp hr
  have hlen : pre.length + 3 ≤ segmentEnd data after - (p + 3) := by
    have := congrArg List.length hinfix
    unfold sliceOf at this
    rw [List.length_take, List.length_append, List.length_append] at this
    simp only [List.length_cons, List.length_nil] at this
    omega
  have hcode : IsCodeAt data (p + 3 + pre.length) := by
    have hdrop := congrArg (List.drop pre.length) hinfix
    unfold sliceOf at hdrop
    rw [List.append_assoc, List.drop_left, List.drop_take, List.drop_drop] at hdrop
    have hpre : [0, 0, 1] <+: [0, 0, 1] ++ post := List.prefix_append _ _
    rw [hdrop] at hpre
    exact hpre.trans (List.take_prefix _ _)
  -- so it is among the occurrences behind `p`, and the range ends before it
  have hmem : p + 3 + pre.length ∈ positions data :=
    mem_positionsFrom.mpr ⟨Nat.zero_le _, hcode⟩
  have hsorted := pairwise_positionsFrom data 0
  rw [show positionsFrom data 0 = before ++ p :: after from hps, List.pairwise_append,
    List.pairwise_cons] at hsorted
  obtain ⟨-, ⟨-, hafter⟩, hbefore⟩ := hsorted
  rw [hps, List.mem_append, List.mem_cons] at hmem
  rcases hmem with hmem | hmem | hmem
  · have := hbefore _ hmem p List.mem_cons_self
    omega
  · omega
  · have hle : segmentEnd data after ≤ p + 3 + pre.length := segmentEnd_le hafter hmem
    omega

theorem noCode_of_positions_nil {data : List UInt8} (h : positions data = []) :
    ¬ [0, 0, 1] <:+: data := by
  rintro ⟨pre, post, rfl⟩
  have hcode : IsCodeAt (pre ++ [0, 0, 1] ++ post) pre.length := by
    unfold IsCodeAt
    rw [List.append_assoc, List.drop_left]
    exact List.prefix_append _ _
  have hmem : pre.length ∈ positions (pre ++ [0, 0, 1] ++ post) :=
    mem_positionsFrom.mpr ⟨Nat.zero_le _, hcode⟩
  rw [h] at hmem
  simp at hmem

theorem noCode_of_mem_segments {data nal : List UInt8} (h : nal ∈ segments data) :
    ¬ [0, 0, 1] <:+: nal := by
  unfold segments at h
  split_ifs at h with hnil
  · rw [List.mem_singleton.mp h]
    exact noCode_of_positions_nil hnil
  · obtain ⟨r, hr, rfl⟩ := List.mem_map.mp h
    exact noCode_of_mem_segmentRanges (List.mem_filter.mp hr).1

theorem segmentRanges_le {data : List UInt8} :
    ∀ r ∈ segmentRanges data (positions data), r.1 ≤ r.2 ∧ r.2 ≤ data.length := by
  have h := (scans_scanStartCodes data 0 (Nat.zero_le _)).inBounds
  rw [scanStartCodes_zero, codeRanges_codeAt] at h
  exact h

end Eye
