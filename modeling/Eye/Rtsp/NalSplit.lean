import Eye.Lib.Delimiter
import Eye.Rtsp.NalParser

/-!
# What the splitter computes

`splitAnnexBNals_eq`: the splitter emits the pieces that the input is cut into at its start codes,
but for the empty ones, in order; an input without start code is one NAL unit. The pieces are
those of `Delimiter.pieces startCodeLen`, so everything about the scan follows from the rules of
`Delimiter`, without indices.
-/

namespace Eye

open Delimiter

/-! ## Start codes -/

theorem startCodeLen_le (p : List UInt8) : startCodeLen p ≤ p.length := by
  unfold startCodeLen
  split_ifs <;> omega

theorem three_byte_code {p : List UInt8} :
    (3 ≤ p.length ∧ p[0]? = some 0 ∧ p[1]? = some 0 ∧ p[2]? = some 1) ↔ [0, 0, 1] <+: p := by
  constructor
  · rintro ⟨hlen, h0, h1, h2⟩
    obtain _ | ⟨a, _ | ⟨b, _ | ⟨c, p⟩⟩⟩ := p
    · cases h0
    · cases h1
    · cases h2
    · cases h0
      cases h1
      cases h2
      exact ⟨p, rfl⟩
  · rintro ⟨q, rfl⟩
    exact ⟨by simp, rfl, rfl, rfl⟩

theorem four_byte_code {p : List UInt8} :
    (4 ≤ p.length ∧ p[0]? = some 0 ∧ p[1]? = some 0 ∧ p[2]? = some 0 ∧ p[3]? = some 1) ↔
      [0, 0, 0, 1] <+: p := by
  constructor
  · rintro ⟨hlen, h0, h1, h2, h3⟩
    obtain _ | ⟨a, _ | ⟨b, _ | ⟨c, _ | ⟨d, p⟩⟩⟩⟩ := p
    · cases h0
    · cases h1
    · cases h2
    · cases h3
    · cases h0
      cases h1
      cases h2
      cases h3
      exact ⟨p, rfl⟩
  · rintro ⟨q, rfl⟩
    exact ⟨by simp, rfl, rfl, rfl, rfl⟩

theorem startCodeLen_eq (p : List UInt8) :
    startCodeLen p = if [0, 0, 1] <+: p then 3 else if [0, 0, 0, 1] <+: p then 4 else 0 := by
  unfold startCodeLen
  simp only [three_byte_code, four_byte_code]

theorem startCodeLen_eq_zero {p : List UInt8} :
    startCodeLen p = 0 ↔ ¬ [0, 0, 1] <+: p ∧ ¬ [0, 0, 0, 1] <+: p := by
  rw [startCodeLen_eq]
  split_ifs with h3 h4
  · exact ⟨fun h => absurd h (by decide), fun h => absurd h3 h.1⟩
  · exact ⟨fun h => absurd h (by decide), fun h => absurd h4 h.2⟩
  · exact ⟨fun _ => ⟨h3, h4⟩, fun _ => rfl⟩

@[simp] theorem startCodeLen_three (p : List UInt8) : startCodeLen (0 :: 0 :: 1 :: p) = 3 := by
  rw [startCodeLen_eq, if_pos ⟨p, rfl⟩]

@[simp] theorem startCodeLen_four (p : List UInt8) : startCodeLen (0 :: 0 :: 0 :: 1 :: p) = 4 := by
  rw [startCodeLen_eq, if_neg, if_pos ⟨p, rfl⟩]
  simp [List.cons_prefix_cons]

/-! ## The scan -/

theorem scanStartCodes_of_le {data : List UInt8} {i : ℕ} (h : data.length ≤ i) :
    scanStartCodes data i = [] := by
  rw [scanStartCodes, if_neg (by omega)]

theorem scanStartCodes_code {data : List UInt8} {i : ℕ} (hi : i < data.length)
    (h : 0 < startCodeLen (data.drop i)) :
    scanStartCodes data i =
      ⟨i + startCodeLen (data.drop i), startCodeLen (data.drop i)⟩ ::
        scanStartCodes data (i + startCodeLen (data.drop i)) := by
  rw [scanStartCodes, if_pos hi, if_pos h]

theorem scanStartCodes_next {data : List UInt8} {i : ℕ} (hi : i < data.length)
    (h : startCodeLen (data.drop i) = 0) :
    scanStartCodes data i = scanStartCodes data (i + 1) := by
  rw [scanStartCodes, if_pos hi, if_neg (by omega)]

/-- The range behind each start code, empty ones included. -/
def codeRanges (len : ℕ) : List StartCode → List (ℕ × ℕ)
  | [] => []
  | c :: codes => (c.offset, nalStop len codes) :: codeRanges len codes

theorem nalRanges_eq_filter (len : ℕ) (codes : List StartCode) :
    nalRanges len codes = (codeRanges len codes).filter fun r => r.1 < r.2 := by
  induction codes with
  | nil => rfl
  | cons c codes ih =>
    unfold nalRanges codeRanges
    rw [List.filter_cons]
    split_ifs with h1 h2 h2
    · simp at h2
      omega
    · exact ih
    · rw [ih]
    · simp at h2
      omega

/-- The bytes of a range. -/
def sliceOf (data : List UInt8) (r : ℕ × ℕ) : List UInt8 := (data.drop r.1).take (r.2 - r.1)

/-- What the scan from `i` on finds: the first piece of the rest of the data reaches up to the first
start code, the ranges behind the start codes are the other pieces, and they are in bounds. -/
structure Scans (data : List UInt8) (i : ℕ) (codes : List StartCode) : Prop where
  le_stop : i ≤ nalStop data.length codes
  stop_le : nalStop data.length codes ≤ data.length
  first : sliceOf data (i, nalStop data.length codes) = (pieces startCodeLen (data.drop i)).1
  rest : (codeRanges data.length codes).map (sliceOf data) = (pieces startCodeLen (data.drop i)).2
  inBounds : ∀ r ∈ codeRanges data.length codes, r.1 ≤ r.2 ∧ r.2 ≤ data.length
  noUnderflow : ∀ c ∈ codes, c.scLen ≤ c.offset

theorem scans_end (data : List UInt8) : Scans data data.length [] where
  le_stop := Nat.le_refl _
  stop_le := Nat.le_refl _
  first := by
    unfold sliceOf nalStop
    rw [List.drop_length, pieces_nil, List.take_nil]
  rest := by
    rw [List.drop_length, pieces_nil]
    rfl
  inBounds _ hr := absurd hr List.not_mem_nil
  noUnderflow _ hc := absurd hc List.not_mem_nil

theorem Scans.code {data : List UInt8} {i : ℕ} {codes : List StartCode} (hi : i < data.length)
    (hpos : 0 < startCodeLen (data.drop i))
    (h : Scans data (i + startCodeLen (data.drop i)) codes) :
    Scans data i (⟨i + startCodeLen (data.drop i), startCodeLen (data.drop i)⟩ :: codes) := by
  have hle := startCodeLen_le (data.drop i)
  rw [List.length_drop] at hle
  have hp : pieces startCodeLen (data.drop i) = ([],
      (pieces startCodeLen ((data.drop i).drop (startCodeLen (data.drop i)))).1 ::
        (pieces startCodeLen ((data.drop i).drop (startCodeLen (data.drop i)))).2) := pieces_drop
    (by rw [ne_eq, List.drop_eq_nil_iff]; omega) hpos
  have hstop : nalStop data.length
      (⟨i + startCodeLen (data.drop i), startCodeLen (data.drop i)⟩ :: codes) = i :=
    Nat.add_sub_cancel i _
  rw [List.drop_drop] at hp
  refine ⟨hstop.ge, hstop.trans_le hi.le, ?_, ?_, ?_, ?_⟩
  · rw [hstop, hp]
    unfold sliceOf
    rw [Nat.sub_self, List.take_zero]
  · rw [hp]
    unfold codeRanges
    rw [List.map_cons, h.first, h.rest]
  · intro r hr
    rcases List.mem_cons.mp hr with rfl | hr
    · exact ⟨h.le_stop, h.stop_le⟩
    · exact h.inBounds r hr
  · intro c hc
    rcases List.mem_cons.mp hc with rfl | hc
    · exact Nat.le_add_left _ _
    · exact h.noUnderflow c hc

theorem Scans.next {data : List UInt8} {i : ℕ} {codes : List StartCode} (hi : i < data.length)
    (hzero : startCodeLen (data.drop i) = 0) (h : Scans data (i + 1) codes) :
    Scans data i codes := by
  have hcons : data.drop i = data[i] :: data.drop (i + 1) := List.drop_eq_getElem_cons hi
  have hle := h.le_stop
  rw [hcons] at hzero
  refine ⟨by omega, h.stop_le, ?_, ?_, h.inBounds, h.noUnderflow⟩
  · have hfirst := h.first
    unfold sliceOf at hfirst ⊢
    rw [hcons, pieces_cons hzero, ← hfirst]
    rw [show nalStop data.length codes - i = nalStop data.length codes - (i + 1) + 1 by omega,
      List.take_succ_cons]
  · rw [hcons, pieces_cons hzero]
    exact h.rest

/-- The scan from any index finds the pieces. -/
theorem scans_scanStartCodes (data : List UInt8) (i : ℕ) (hi : i ≤ data.length) :
    Scans data i (scanStartCodes data i) := by
  generalize hm : data.length - i = m
  induction m using Nat.strongRecOn generalizing i with
  | ind m ih =>
    rcases Nat.lt_or_ge i data.length with hlt | hge
    · have hle := startCodeLen_le (data.drop i)
      rw [List.length_drop] at hle
      by_cases hpos : 0 < startCodeLen (data.drop i)
      · rw [scanStartCodes_code hlt hpos]
        exact (ih (data.length - (i + startCodeLen (data.drop i))) (by omega) _ (by omega) rfl).code
          hlt hpos
      · rw [scanStartCodes_next hlt (by omega)]
        exact (ih (data.length - (i + 1)) (by omega) _ (by omega) rfl).next hlt (by omega)
    · obtain rfl : i = data.length := by omega
      rw [scanStartCodes_of_le (Nat.le_refl _)]
      exact scans_end data

/-! ## The splitter -/

/-- The NAL units of a byte string: the non-empty pieces behind its start codes, or the whole. -/
def nalPieces (data : List UInt8) : List (List UInt8) :=
  if (pieces startCodeLen data).2 = [] then [data]
  else (pieces startCodeLen data).2.filter fun p => !p.isEmpty

theorem sliceOf_isEmpty {data : List UInt8} {r : ℕ × ℕ} (h : r.1 ≤ r.2 ∧ r.2 ≤ data.length) :
    (!(sliceOf data r).isEmpty) = decide (r.1 < r.2) := by
  have hlen : (sliceOf data r).length = r.2 - r.1 := by
    unfold sliceOf
    rw [List.length_take, List.length_drop]
    omega
  by_cases hlt : r.1 < r.2
  · rw [decide_eq_true hlt, Bool.not_eq_true', List.isEmpty_eq_false_iff, ← List.length_pos_iff]
    omega
  · rw [decide_eq_false hlt, Bool.not_eq_false', List.isEmpty_iff, ← List.length_eq_zero_iff]
    omega

/-- The ranges the splitter keeps hold the non-empty pieces behind the start codes. -/
theorem map_nalRanges (data : List UInt8) :
    (nalRanges data.length (scanStartCodes data 0)).map (sliceOf data) =
      (pieces startCodeLen data).2.filter fun p => !p.isEmpty := by
  have h := scans_scanStartCodes data 0 (Nat.zero_le _)
  have hrest := h.rest
  rw [List.drop_zero] at hrest
  rw [nalRanges_eq_filter, ← hrest, List.filter_map]
  congr 1
  apply List.filter_congr
  intro r hr
  exact (sliceOf_isEmpty (h.inBounds r hr)).symm

theorem scanStartCodes_eq_nil (data : List UInt8) :
    scanStartCodes data 0 = [] ↔ (pieces startCodeLen data).2 = [] := by
  have hrest := (scans_scanStartCodes data 0 (Nat.zero_le _)).rest
  rw [List.drop_zero] at hrest
  rw [← hrest, List.map_eq_nil_iff]
  cases scanStartCodes data 0 with
  | nil => exact ⟨fun _ => rfl, fun _ => rfl⟩
  | cons c codes =>
    constructor
    · intro h
      exact absurd h (List.cons_ne_nil _ _)
    · intro h
      exact absurd h (List.cons_ne_nil _ _)

/-- **The splitter emits the pieces.** -/
theorem splitAnnexBNals_eq (data : ByteVec) (codec : CodecType) (timestamp : UInt64) (isIdr : Bool)
    (out : List ParsedNal) (hne : data.bytes ≠ []) :
    ∃ nals : List ByteVec, nals.map ByteVec.bytes = nalPieces data.bytes ∧
      splitAnnexBNals data codec timestamp isIdr out =
        out ++ nals.map fun nal => newNal nal codec timestamp isIdr := by
  have hsize : data.size ≠ 0 := fun h0 => hne (List.length_eq_zero_iff.mp h0)
  unfold splitAnnexBNals nalPieces
  rw [if_neg hsize]
  by_cases hcodes : scanStartCodes data.bytes 0 = []
  · rw [if_pos ((scanStartCodes_eq_nil _).mp hcodes), hcodes]
    refine ⟨[data.slice 0 data.size], ?_, rfl⟩
    rw [List.map_singleton, ByteVec.bytes_slice, List.drop_zero, Nat.sub_zero]
    exact congrArg (fun l => [l]) List.take_length
  · rw [if_neg (mt (scanStartCodes_eq_nil _).mpr hcodes), ← map_nalRanges]
    refine ⟨(nalRanges data.size (scanStartCodes data.bytes 0)).map fun r => data.slice r.1 r.2,
      ?_, ?_⟩
    · rw [List.map_map]
      rfl
    · rw [List.map_map]
      cases hc : scanStartCodes data.bytes 0 with
      | nil => exact absurd hc hcodes
      | cons c codes => rfl

end Eye
