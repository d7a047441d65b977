import Eye.Rtsp.AnnexB

/-!
# Zero bytes between NAL units

Annex B allows any number of zero bytes in front of a start code and behind the last NAL unit. The
splitter knows start codes of three and four bytes only, so a start code takes three zeros at most
with it; what is left of the padding stays at the end of the NAL unit in front of it.

`splitAnnexBNals_padded_iff`: the padding does no harm exactly if it stands in front of the first
start code or fits the four-byte code.
-/

namespace Eye

open Delimiter

/-- A NAL unit behind its start code, and that behind zero bytes. -/
structure PaddedUnit where
  padding : ℕ
  form : StartCodeForm
  nal : ByteVec

/-- The same unit without the zero bytes. -/
def PaddedUnit.bare (u : PaddedUnit) : StartCodeForm × ByteVec := (u.form, u.nal)

def PaddedUnit.bytes (u : PaddedUnit) : List UInt8 :=
  List.replicate u.padding 0 ++ (u.form.bytes ++ u.nal.bytes)

/-- A byte stream with padding, `trailing` zero bytes of it behind the last NAL unit. -/
def padded (units : List PaddedUnit) (trailing : ℕ) : List UInt8 :=
  units.flatMap PaddedUnit.bytes ++ List.replicate trailing 0

/-- The zero bytes in front of a unit that no start code takes with it. -/
def PaddedUnit.excess (u : PaddedUnit) : ℕ := u.padding + u.form.bytes.length - 4

/-- The zero bytes that stay behind a NAL unit when `units` come next. -/
def stays (units : List PaddedUnit) (trailing : ℕ) : ℕ :=
  match units with
  | [] => trailing
  | u :: _ => u.excess

/-- Between two NAL units at most one zero byte in front of a three-byte start code and none in
front of a four-byte one, and none behind the last. -/
def FitsBetween : List PaddedUnit → ℕ → Prop
  | [], trailing => trailing = 0
  | u :: units, trailing => u.padding + u.form.bytes.length ≤ 4 ∧ FitsBetween units trailing

/-- The padding does no harm; in front of the first start code it never does. -/
def Harmless : List PaddedUnit → ℕ → Prop
  | [], trailing => trailing = 0
  | _ :: units, trailing => FitsBetween units trailing

/-- What the splitter cuts out. -/
def cutNals : List PaddedUnit → ℕ → List (List UInt8)
  | [], _ => []
  | u :: units, trailing =>
    (u.nal.bytes ++ List.replicate (stays units trailing) 0) :: cutNals units trailing

/-! ## Zeros -/

theorem startCodeLen_replicate (n : ℕ) : startCodeLen (List.replicate n (0 : UInt8)) = 0 := by
  rw [startCodeLen_eq_zero]
  constructor
  · intro h
    have := h.subset (List.mem_cons_of_mem _ (List.mem_cons_of_mem _ List.mem_cons_self))
    simp at this
  · intro h
    have := h.subset (show (1 : UInt8) ∈ [0, 0, 0, 1] by decide)
    simp at this

theorem pieces_zeros {b : List UInt8}
    (h : ∀ m, startCodeLen (List.replicate (m + 1) 0 ++ b) = 0) (n : ℕ) :
    pieces startCodeLen (List.replicate n 0 ++ b) =
      (List.replicate n 0 ++ (pieces startCodeLen b).1, (pieces startCodeLen b).2) := by
  apply pieces_append
  intro s hs hsuf
  obtain ⟨-, heq⟩ := List.suffix_replicate_iff.mp hsuf
  obtain ⟨m, hm⟩ := Nat.exists_eq_succ_of_ne_zero (mt List.length_eq_zero_iff.mp hs)
  rw [heq, hm]
  exact h m

/-- Of a run of zeros in front of a start code the last three belong to it. -/
theorem pieces_zeros_four (n : ℕ) (b : List UInt8) :
    pieces startCodeLen (List.replicate n 0 ++ (0 :: 0 :: 0 :: 1 :: b)) =
      (List.replicate n 0, (pieces startCodeLen b).1 :: (pieces startCodeLen b).2) := by
  have hcode : pieces startCodeLen (0 :: 0 :: 0 :: 1 :: b) =
      ([], (pieces startCodeLen b).1 :: (pieces startCodeLen b).2) :=
    pieces_code (d := [0, 0, 0, 1]) (by simp) (startCodeLen_four b)
  rw [pieces_zeros, hcode, List.append_nil]
  intro m
  have hzeros : List.replicate (m + 1) (0 : UInt8) ++ (0 :: 0 :: 0 :: 1 :: b) =
      0 :: 0 :: 0 :: 0 :: (List.replicate m 0 ++ (1 :: b)) := by
    calc List.replicate (m + 1) (0 : UInt8) ++ (List.replicate 3 0 ++ (1 :: b))
        = List.replicate (m + 1 + 3) 0 ++ (1 :: b) := by
          rw [← List.append_assoc, List.replicate_append_replicate]
      _ = _ := rfl
  rw [hzeros, startCodeLen_eq_zero]
  constructor
  · simp [List.cons_prefix_cons]
  · simp [List.cons_prefix_cons]

/-- The padding in front of a start code, but for its excess, goes with it. -/
theorem pieces_padding (u : PaddedUnit) (b : List UInt8) :
    pieces startCodeLen (List.replicate u.padding 0 ++ (u.form.bytes ++ b)) =
      (List.replicate u.excess 0, (pieces startCodeLen b).1 :: (pieces startCodeLen b).2) := by
  obtain ⟨padding, form, nal⟩ := u
  cases form with
  | four => exact pieces_zeros_four padding b
  | three =>
    cases padding with
    | zero => exact pieces_code (d := [0, 0, 1]) (by simp) (startCodeLen_three b)
    | succ n =>
      rw [List.replicate_succ', List.append_assoc]
      exact pieces_zeros_four n b

theorem pieces_trailing (n : ℕ) :
    pieces startCodeLen (List.replicate n (0 : UInt8)) = (List.replicate n 0, []) := by
  have h := pieces_zeros (b := []) (fun m => by
    rw [List.append_nil]
    exact startCodeLen_replicate (m + 1)) n
  rw [List.append_nil, pieces_nil, List.append_nil] at h
  exact h

/-! ## The splitter on a padded stream -/

/-- Cut at its start codes, a padded stream gives the units with the zeros that stay. -/
theorem pieces_padded {units : List PaddedUnit} (hn : ∀ u ∈ units, IsNal u.nal.bytes)
    (trailing : ℕ) :
    pieces startCodeLen (padded units trailing) =
      (List.replicate (stays units trailing) 0, cutNals units trailing) := by
  induction units with
  | nil => exact pieces_trailing trailing
  | cons u units ih =>
    have htail := ih fun v hv => hn v (List.mem_cons_of_mem _ hv)
    have hnal : pieces startCodeLen (u.nal.bytes ++ padded units trailing) =
        (u.nal.bytes ++ (pieces startCodeLen (padded units trailing)).1,
          (pieces startCodeLen (padded units trailing)).2) :=
      pieces_append fun s hs hsuf => startCodeLen_suffix (hn u List.mem_cons_self) hs hsuf _
    have hcons : padded (u :: units) trailing = List.replicate u.padding 0 ++
        (u.form.bytes ++ (u.nal.bytes ++ padded units trailing)) := by
      unfold padded
      rw [List.flatMap_cons]
      unfold PaddedUnit.bytes
      simp only [List.append_assoc]
    rw [hcons, pieces_padding, hnal, htail]
    rfl

theorem cutNals_ne_nil {units : List PaddedUnit} (hn : ∀ u ∈ units, IsNal u.nal.bytes)
    {trailing : ℕ} : ∀ nal ∈ cutNals units trailing, nal ≠ [] := by
  induction units with
  | nil =>
    intro nal h
    simp [cutNals] at h
  | cons u units ih =>
    intro nal h
    rcases List.mem_cons.mp h with rfl | h
    · exact List.append_ne_nil_of_left_ne_nil (hn u List.mem_cons_self).ne_nil _
    · exact ih (fun v hv => hn v (List.mem_cons_of_mem _ hv)) nal h

theorem nalPieces_padded {units : List PaddedUnit} (hne : units ≠ [])
    (hn : ∀ u ∈ units, IsNal u.nal.bytes) (trailing : ℕ) :
    nalPieces (padded units trailing) = cutNals units trailing := by
  have hcut : cutNals units trailing ≠ [] := by
    cases units with
    | nil => exact absurd rfl hne
    | cons u units => exact List.cons_ne_nil _ _
  unfold nalPieces
  rw [pieces_padded hn, if_neg hcut, List.filter_eq_self]
  intro nal h
  rw [Bool.not_eq_true', List.isEmpty_eq_false_iff]
  exact cutNals_ne_nil hn nal h

theorem excess_eq_zero (u : PaddedUnit) :
    u.excess = 0 ↔ u.padding + u.form.bytes.length ≤ 4 := Nat.sub_eq_zero_iff_le

theorem cutNals_eq_iff (u : PaddedUnit) (units : List PaddedUnit) (trailing : ℕ) :
    cutNals (u :: units) trailing = (u :: units).map (fun u => u.nal.bytes) ↔
      FitsBetween units trailing := by
  have hstays : ∀ (v : PaddedUnit) n, v.nal.bytes ++ List.replicate n 0 = v.nal.bytes ↔ n = 0 := by
    intro v n
    rw [List.append_right_eq_self, List.replicate_eq_nil_iff]
  induction units generalizing u with
  | nil =>
    simp only [cutNals, stays, List.map_cons, List.map_nil, List.cons.injEq, and_true, hstays,
      FitsBetween]
  | cons v units ih =>
    have hhead : u.nal.bytes ++ List.replicate v.excess 0 = u.nal.bytes ↔
        v.padding + v.form.bytes.length ≤ 4 := (hstays u v.excess).trans (excess_eq_zero v)
    show (u.nal.bytes ++ List.replicate v.excess 0) :: cutNals (v :: units) trailing =
      u.nal.bytes :: (v :: units).map (fun u => u.nal.bytes) ↔ _ ∧ FitsBetween units trailing
    rw [List.cons.injEq]
    exact and_congr hhead (ih v)

/-! ## The exact condition -/

theorem length_bare_le (units : List PaddedUnit) (trailing : ℕ) :
    (annexB (units.map PaddedUnit.bare)).length ≤ (padded units trailing).length := by
  induction units with
  | nil => exact Nat.zero_le _
  | cons u units ih =>
    unfold annexB padded PaddedUnit.bytes PaddedUnit.bare at ih ⊢
    simp only [List.map_cons, List.flatMap_cons, List.length_append, List.length_replicate] at ih ⊢
    omega

/-- The stream without the padding. -/
def unpadded (units : List PaddedUnit) (trailing : ℕ)
    (hlen : (padded units trailing).length < 2 ^ 32) : ByteVec :=
  ⟨annexB (units.map PaddedUnit.bare), Nat.lt_of_le_of_lt (length_bare_le units trailing) hlen⟩

/-- The padding changes nothing, and none of it enters a NAL unit. -/
def PaddingIgnored (units : List PaddedUnit) (trailing : ℕ)
    (hlen : (padded units trailing).length < 2 ^ 32) (codec : CodecType) (timestamp : UInt64)
    (isIdr : Bool) : Prop :=
  splitAnnexBNals ⟨padded units trailing, hlen⟩ codec timestamp isIdr [] =
      splitAnnexBNals (unpadded units trailing hlen) codec timestamp isIdr [] ∧
    (splitAnnexBNals ⟨padded units trailing, hlen⟩ codec timestamp isIdr []).map ParsedNal.data =
      units.map PaddedUnit.nal

/-- **When padding does no harm.** For every list of NAL units with any number of zero bytes in
front of each start code and behind the last, the splitter ignores the zero bytes exactly if, but
for those in front of the first start code, they fit the start codes. -/
theorem splitAnnexBNals_padded_iff {units : List PaddedUnit} {trailing : ℕ}
    (hn : ∀ u ∈ units, IsNal u.nal.bytes) (hlen : (padded units trailing).length < 2 ^ 32)
    (codec : CodecType) (timestamp : UInt64) (isIdr : Bool) :
    PaddingIgnored units trailing hlen codec timestamp isIdr ↔ Harmless units trailing := by
  unfold PaddingIgnored
  cases units with
  | nil =>
    -- there is no start code to find
    cases trailing with
    | zero => exact ⟨fun _ => rfl, fun _ => ⟨rfl, rfl⟩⟩
    | succ n =>
      constructor
      · rintro ⟨-, h⟩
        obtain ⟨nals, hnals, -, hdata⟩ := split_eq_of_data ⟨padded [] (n + 1), hlen⟩
          (List.cons_ne_nil _ _) codec timestamp isIdr
        rw [hdata] at h
        rw [h] at hnals
        unfold nalPieces at hnals
        rw [pieces_padded hn] at hnals
        exact absurd hnals.symm (List.cons_ne_nil _ _)
      · intro h
        cases h
  | cons u units =>
    have hbytes : padded (u :: units) trailing ≠ [] := by
      have := u.form.bytes_ne_nil
      simp [padded, PaddedUnit.bytes, this]
    have hbare : ∀ v ∈ (u :: units).map PaddedUnit.bare, IsNal v.2.bytes := by
      intro v hv
      obtain ⟨w, hw, rfl⟩ := List.mem_map.mp hv
      exact hn w hw
    have hsplit := splitAnnexBNals_annexB ((u :: units).map PaddedUnit.bare) (by simp) hbare
      (unpadded (u :: units) trailing hlen).size_lt codec timestamp isIdr []
    rw [List.nil_append, List.map_map] at hsplit
    obtain ⟨nals, hnals, hpadded, hdata⟩ :=
      split_eq_of_data ⟨padded (u :: units) trailing, hlen⟩ hbytes codec timestamp isIdr
    rw [nalPieces_padded (List.cons_ne_nil _ _) hn] at hnals
    show _ ↔ FitsBetween units trailing
    rw [← cutNals_eq_iff u, ← hnals, hdata]
    constructor
    · rintro ⟨-, rfl⟩
      rw [List.map_map]
      rfl
    · intro h
      have heq : nals = (u :: units).map PaddedUnit.nal := by
        apply ByteVec.map_bytes_injective
        rw [h, List.map_map]
        rfl
      refine ⟨?_, heq⟩
      rw [hpadded, heq, List.map_map]
      exact hsplit.symm

/-- A long run of zeros in front of the first NAL unit and one more zero than needed in front of the
second. -/
def fittingUnits : List PaddedUnit :=
  [⟨5, .four, ⟨[0x67, 0x4d], by decide⟩⟩, ⟨1, .three, ⟨[0x65, 0x88, 0x84], by decide⟩⟩]

theorem splitAnnexBNals_padded_iff_fitting :
    PaddingIgnored fittingUnits 0 (by decide) .h264 40 true := by
  have hn : ∀ u ∈ fittingUnits, IsNal u.nal.bytes := by
    intro u hu
    rcases List.mem_cons.mp hu with rfl | hu
    · exact ⟨by decide, by decide, by decide⟩
    · rw [List.mem_singleton.mp hu]
      exact ⟨by decide, by decide, by decide⟩
  exact (splitAnnexBNals_padded_iff hn (by decide) .h264 40 true).mpr ⟨by decide, rfl⟩

/-- A zero byte behind the last NAL unit enters it. -/
theorem trailing_zero_enters :
    ¬ ∀ (units : List PaddedUnit) (trailing : ℕ) (hlen : (padded units trailing).length < 2 ^ 32),
      (∀ u ∈ units, IsNal u.nal.bytes) →
        PaddingIgnored units trailing hlen .h264 40 true := by
  intro h
  have hn : ∀ u ∈ [(⟨0, .four, ⟨[0x65, 0x88], by decide⟩⟩ : PaddedUnit)], IsNal u.nal.bytes := by
    intro u hu
    rw [List.mem_singleton.mp hu]
    exact ⟨by decide, by decide, by decide⟩
  exact absurd (h _ 1 (by decide) hn).2 (by decide +kernel)

end Eye
