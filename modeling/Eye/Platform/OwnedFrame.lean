import Eye.Platform.FetchFrame
import Eye.Stream.SameBytes

/-!
# The constructor of `StreamFrame` on pointers and on bytes

`FetchState.newStreamFrame` follows the pointers of the constructor, `StreamFrame.new` only says
which bytes each pack has. `newStreamFrame_denotes` connects them: given packs whose pointers can be
read, the constructor succeeds, and its own pointers lead to the packs of `StreamFrame.new`.
-/

namespace Eye

/-- A pack with a pointer stands for one with bytes; `read` gives what a pointer leads to. -/
structure RawPack.Denotes (read : BytePtr → ℕ → Option (List UInt8)) (raw : RawPack)
    (pk : FramePack) : Prop where
  len_eq : raw.len = pk.len
  naluType_eq : raw.naluType = pk.naluType
  null_iff : raw.data = .null ↔ pk.data = none
  read_eq : ∀ data ∈ pk.data, read raw.data raw.len.toNat = some data.bytes

/-- The packs in use stand for those of a frame with bytes. -/
structure RawFrame.Denotes (read : BytePtr → ℕ → Option (List UInt8)) (frame : RawFrame)
    (fd : FrameData) : Prop where
  packCount_eq : frame.packCount.toNat = fd.packCount
  packs : ∀ (i : ℕ) (pk : FramePack), fd.used[i]? = some pk →
    ∃ raw : RawPack, frame.packs[i]? = some raw ∧ raw.Denotes read pk

/-- The `len` bytes that a pointer into the copies of a frame leads to. -/
def OwningFrame.read (frame : OwningFrame) (ptr : BytePtr) (len : ℕ) : Option (List UInt8) :=
  match ptr with
  | .own i =>
    (frame.packData[i]?).bind fun bytes =>
      if len ≤ bytes.length then some (bytes.take len) else none
  | .null | .driver _ _ _ => none

namespace FetchState

open RecorderConsumer

variable {s : FetchState} {raw : RawPack} {pk : FramePack} {frame : RawFrame} {fd : FrameData}

/-- What the constructor makes of the pack with index `i`. -/
def ownRaw (i : ℕ) (raw : RawPack) : RawPack :=
  { raw with data := if raw.data ≠ .null ∧ 0 < raw.len then .own i else .null }

theorem own_data_isSome : pk.own.data.isSome = true ↔ pk.data.isSome = true ∧ 0 < pk.len := by
  unfold FramePack.own
  split_ifs with h
  · simp [h]
  · simpa using h

theorem own_of_present (h : pk.data.isSome = true ∧ 0 < pk.len) : pk.own = pk := by
  unfold FramePack.own
  rw [if_pos h]

theorem present_iff (h : raw.Denotes s.read pk) :
    (raw.data ≠ .null ∧ 0 < raw.len) ↔ (pk.data.isSome = true ∧ 0 < pk.len) := by
  rw [h.len_eq, ne_eq, h.null_iff, ← ne_eq, Option.ne_none_iff_isSome]

theorem ownPack_denotes (h : raw.Denotes s.read pk) (i : ℕ) :
    s.ownPack i raw = some (ownRaw i raw, packBytes pk.own) := by
  unfold ownPack ownRaw
  by_cases hpresent : raw.data ≠ .null ∧ 0 < raw.len
  · have hpk := (present_iff h).mp hpresent
    obtain ⟨data, hd⟩ := Option.isSome_iff_exists.mp hpk.1
    rw [if_pos hpresent, if_pos hpresent, h.read_eq data hd, own_of_present hpk]
    unfold packBytes
    rw [hd]
    rfl
  · have hnone : pk.own.data = none := by
      rw [← Option.not_isSome_iff_eq_none, own_data_isSome, ← present_iff h]
      exact hpresent
    rw [if_neg hpresent, if_neg hpresent]
    unfold packBytes
    rw [hnone]
    rfl

/-- The pack that the constructor makes stands for the one with a copy. -/
theorem ownRaw_denotes (h : raw.Denotes s.read pk) {f : OwningFrame} {i : ℕ}
    (hcopy : f.packData[i]? = some (packBytes pk.own)) :
    (ownRaw i raw).Denotes f.read pk.own := by
  have hlen : (ownRaw i raw).len = pk.own.len := h.len_eq.trans (FramePack.own_len pk).symm
  have hnalu : pk.own.naluType = pk.naluType := by
    unfold FramePack.own
    split_ifs <;> rfl
  have hnull : (ownRaw i raw).data = .null ↔ pk.own.data = none := by
    rw [← Option.not_isSome_iff_eq_none, own_data_isSome, ← present_iff h]
    unfold ownRaw
    dsimp only
    split_ifs with hpresent
    · simp [hpresent]
    · simp [hpresent]
  refine ⟨hlen, h.naluType_eq.trans hnalu.symm, hnull, ?_⟩
  intro data hd
  have hown : (ownRaw i raw).data = .own i := by
    have hne : (ownRaw i raw).data ≠ .null := fun he => by
      rw [hnull.mp he] at hd
      cases hd
    unfold ownRaw at hne ⊢
    dsimp only at hne ⊢
    split_ifs at hne ⊢
    · rfl
    · exact absurd rfl hne
  have hbytes : packBytes pk.own = data.bytes := by
    unfold packBytes
    rw [Option.mem_def.mp hd]
    rfl
  have hsize : data.bytes.length = pk.own.len.toNat := pk.own.readable data hd
  rw [hown, hlen]
  unfold OwningFrame.read
  dsimp only
  rw [hcopy, Option.bind_some, hbytes, ← hsize, if_pos (Nat.le_refl _), List.take_length]

/-- **The constructor.** It succeeds on packs that can be read, and its frame stands for that of
`StreamFrame.new`. -/
theorem newStreamFrame_denotes (h : frame.Denotes s.read fd) (channel : VencChannel)
    (type : StreamType) (codec : CodecType) (ts : UInt64) :
    ∃ f, s.newStreamFrame channel type codec frame = some f ∧ f.channel = channel ∧
      f.type = type ∧ f.codecType = codec ∧
      f.frameData.Denotes f.read (StreamFrame.new channel type codec ts fd).data := by
  have hbody : ∀ j, 0 ≤ j → j < 0 + fd.used.length → ∀ raw, frame.packs[j]? = some raw →
      s.ownPack j raw = some (((frame.packs[j]?).map (ownRaw j)).getD ⟨.null, 0, .other⟩,
        ((fd.used[j]?).map fun pk => packBytes pk.own).getD []) := by
    intro j _ hj raw hraw
    have hpk : fd.used[j]? = some fd.used[j] := List.getElem?_eq_getElem (by omega)
    obtain ⟨raw', hraw', hden⟩ := h.packs j _ hpk
    rw [hraw] at hraw'
    cases hraw'
    rw [hraw, hpk]
    exact ownPack_denotes hden j
  have hle : 0 + fd.used.length ≤ MAX_PACKS := by
    rw [FrameData.length_used, Nat.zero_add]
    exact fd.packCount_le
  obtain ⟨packs', hrun, hlist⟩ := forPacks_eq _ _ hle hbody
  rw [map_range'_getD] at hrun
  refine ⟨⟨channel, type, codec, { frame with packs := packs' },
    fd.used.map fun pk => packBytes pk.own⟩, ?_, rfl, rfl, rfl, h.packCount_eq, ?_⟩
  · unfold newStreamFrame
    rw [h.packCount_eq, ← FrameData.length_used, hrun]
    rfl
  · intro i pk hpk
    rw [StreamFrame.used_new, List.getElem?_map, Option.map_eq_some_iff] at hpk
    obtain ⟨pk, hpk, rfl⟩ := hpk
    obtain ⟨raw, hraw, hden⟩ := h.packs i pk hpk
    have hi := (List.getElem?_eq_some_iff.mp hpk).1
    refine ⟨ownRaw i raw, ?_, ownRaw_denotes hden (by rw [List.getElem?_map, hpk]; rfl)⟩
    dsimp only
    rw [← Vector.getElem?_toList, hlist, List.take_zero, List.nil_append,
      List.getElem?_append_left (by simpa using hi), List.getElem?_map,
      List.getElem?_range' hi]
    simp [hraw]

end FetchState

end Eye
