import Eye.Rtsp.PackGrouping
import Eye.Stream.RecorderAccounts

/-!
# Reading a recording

The recorder writes the bytes of a frame one pack after the other, and nothing between two frames.
If every pack is delimited, as those of the encoder are, a reader who splits the file finds the NAL
units that `RtspServer` finds in the same frames: `recording_replays`. What the recorder gave up is
missing as whole frames; nothing of a frame that was written is lost, and no NAL unit reaches from
one frame into the next.
-/

namespace Eye

namespace RecorderConsumer

open Delimiter

/-- The frames that `on_frame` is given. -/
def framesOf : Action → List StreamFrame
  | .onFrame frame => [frame]
  | .act _ => []

/-- What `on_frame` makes of a frame. -/
def entryOf (frame : StreamFrame) : WriteEntry := ⟨frame.bytes, frame.isIdr⟩

variable {n : ℕ} {r r' : RecorderConsumer}

theorem packBytes_eq (pk : FramePack) : packBytes pk = pk.bytes := by
  unfold packBytes FramePack.bytes
  cases pk.data <;> rfl

theorem assemble_eq_entryOf {frame : StreamFrame} {entry : WriteEntry}
    (h : assemble frame = some entry) : entry = entryOf frame := by
  rw [assemble_eq h]
  unfold entryOf StreamFrame.bytes
  rw [funext packBytes_eq]

theorem accepts_of_run {as : List Action} (h : (machine n).run r as = some r') :
    as.flatMap accepts = (as.flatMap framesOf).map entryOf := by
  induction as generalizing r with
  | nil => rfl
  | cons a as ih =>
    rw [Machine.run_cons, Option.bind_eq_some_iff] at h
    obtain ⟨r₁, h₁, h⟩ := h
    rw [List.flatMap_cons, List.flatMap_cons, List.map_append, ih h]
    congr 1
    cases a with
    | onFrame frame =>
      obtain ⟨entry, he, -⟩ := Option.bind_eq_some_iff.mp h₁
      rw [accepts, he, assemble_eq_entryOf he]
      rfl
    | act b => rfl

theorem written_of_run {as : List Action} (hrun : (machine n).run (new n) as = some r) :
    ∃ written : List StreamFrame, written.Sublist (as.flatMap framesOf) ∧
      written.length = r.worker.consumed ∧ r.file = written.flatMap StreamFrame.bytes := by
  have haccounts := (inv_of_run hrun).toAccounts
  have hentered := entered_of_run (inv_new n) hrun
  have hsub : (r.worker.returned.map Prod.fst).Sublist ((as.flatMap framesOf).map entryOf) := by
    have horder := (((List.sublist_append_left _ _).trans (List.sublist_append_left _ _)).trans
      haccounts.order).map Prod.fst
    rw [hentered, List.map_append, List.zipIdx_map_fst, accepts_of_run hrun] at horder
    exact horder
  obtain ⟨written, hwritten, heq⟩ := List.sublist_map_iff.mp hsub
  refine ⟨written, hwritten, ?_, ?_⟩
  · rw [haccounts.consumed_eq, ← List.length_map (f := entryOf), ← heq, List.length_map]
  · calc r.file = (r.worker.returned.map Prod.fst).flatMap WriteEntry.data := by
          rw [haccounts.file_eq, List.flatMap_map]
      _ = (written.map entryOf).flatMap WriteEntry.data := by rw [heq]
      _ = written.flatMap StreamFrame.bytes := by
          rw [List.flatMap_map]
          rfl

/-! ## What a reader finds -/

/-- The NAL units that `RtspServer` finds in these frames, as one reader stamps them. -/
def nalsOf (codec : CodecType) (timestamp : UInt64) (frames : List StreamFrame) : List ParsedNal :=
  (frames.flatMap (RtspServer.frameNals codec)).map fun nal => { nal with timestamp := timestamp }

/-- The time and the flag of a frame do not decide what is found in its packs. -/
theorem nalsOf_eq {frames : List StreamFrame} (hframes : ∀ frame ∈ frames, frame.Delimited)
    (codec : CodecType) (ts : UInt64) (isIdr : Bool) :
    nalsOf codec ts frames =
      (frames.flatMap fun frame => frame.data.used).flatMap
        (RtspServer.packNals codec ts isIdr) := by
  unfold nalsOf
  induction frames with
  | nil => rfl
  | cons frame frames ih =>
    obtain ⟨-, nals, hnals, hsplit⟩ := RtspServer.flatMap_packNals_eq
      (hframes frame List.mem_cons_self) codec frame.timestamp frame.isIdr
    obtain ⟨-, nals', hnals', hsplit'⟩ := RtspServer.flatMap_packNals_eq
      (hframes frame List.mem_cons_self) codec ts isIdr
    have hsame : nals = nals' := ByteVec.map_bytes_injective (hnals.trans hnals'.symm)
    rw [List.flatMap_cons, List.map_append, ih fun f hf => hframes f (List.mem_cons_of_mem _ hf),
      List.flatMap_cons, List.flatMap_append, hsplit', ← RtspServer.flatMap_packNals, hsplit, hsame,
      List.map_map]
    rfl

/-- The bytes of delimited frames, one behind the other, are split as each by itself. -/
theorem splitAnnexBNals_frames {frames : List StreamFrame}
    (hframes : ∀ frame ∈ frames, frame.Delimited) {stream : ByteVec}
    (hstream : stream.bytes = frames.flatMap StreamFrame.bytes) (codec : CodecType) (ts : UInt64)
    (isIdr : Bool) : splitAnnexBNals stream codec ts isIdr [] = nalsOf codec ts frames := by
  have hpacks : ∀ pk ∈ frames.flatMap fun frame => frame.data.used, Delimited pk.bytes := by
    intro pk hpk
    obtain ⟨frame, hframe, hpk⟩ := List.mem_flatMap.mp hpk
    exact hframes frame hframe pk hpk
  have hbytes : stream.bytes =
      (frames.flatMap fun frame => frame.data.used).flatMap FramePack.bytes := by
    rw [hstream, List.flatMap_assoc]
    rfl
  obtain ⟨hfirst, nals, hnals, hsplit⟩ := RtspServer.flatMap_packNals_eq hpacks codec ts isIdr
  rw [nalsOf_eq hframes codec ts isIdr, hsplit]
  rw [← hbytes] at hfirst hnals
  by_cases hne : stream.bytes = []
  · have hnone : nals = [] := by
      rw [hne, pieces_nil] at hnals
      exact List.map_eq_nil_iff.mp hnals
    rw [hnone]
    exact if_pos (List.length_eq_zero_iff.mpr hne)
  · obtain ⟨found, hfound, hfoundsplit, -⟩ := split_eq_of_data stream hne codec ts isIdr
    have hall : found = nals := by
      apply ByteVec.map_bytes_injective
      rw [hfound, hnals]
      unfold nalPieces
      rw [if_neg (pieces_snd_ne_nil hne hfirst)]
    rw [hfoundsplit, hall]

/-- **A recording replays the frames in it.** In every run the file holds the bytes of as many of
the frames given to `on_frame` as were counted as written, in the order they were given in. Where
these are delimited and the file is no longer than the splitter can say, the splitter finds in it
the NAL units that `RtspServer` finds in these frames, all, in order and with the same flags. -/
theorem recording_replays {as : List Action} (hrun : (machine n).run (new n) as = some r) :
    ∃ written : List StreamFrame, written.Sublist (as.flatMap framesOf) ∧
      written.length = r.worker.consumed ∧ r.file = written.flatMap StreamFrame.bytes ∧
      ((∀ frame ∈ written, frame.Delimited) →
        ∀ (hlen : r.file.length < 2 ^ 32) (codec : CodecType) (ts : UInt64) (isIdr : Bool),
          splitAnnexBNals ⟨r.file, hlen⟩ codec ts isIdr [] = nalsOf codec ts written) := by
  obtain ⟨written, hsub, hcount, hfile⟩ := written_of_run hrun
  refine ⟨written, hsub, hcount, hfile, ?_⟩
  intro hframes hlen codec ts isIdr
  exact splitAnnexBNals_frames hframes hfile codec ts isIdr

/-- A slice behind a start code. -/
def slicePack (b : UInt8) : FramePack := RtspServer.packOf ⟨[0, 0, 1, 0x41, b], by simp⟩

/-- A frame of two slices. -/
def twoSlices (b : UInt8) : StreamFrame := RtspServer.frameOf (Vector.replicate _ (slicePack b)) 2

theorem twoSlices_delimited {b : UInt8} (hb : b ≠ 0) : (twoSlices b).Delimited := by
  intro pk hpk
  have hused : (twoSlices b).data.used = [slicePack b, slicePack b] := rfl
  rw [hused] at hpk
  obtain rfl : pk = slicePack b := by simpa using hpk
  have hlast : [0, 0, 1, 0x41, b].getLast? = some b := rfl
  constructor
  · show 0 < startCodeLen [0, 0, 1, 0x41, b]
    rw [startCodeLen, if_pos ⟨Nat.le_add_left _ _, rfl, rfl, rfl⟩]
    decide
  · show [0, 0, 1, 0x41, b].getLast? ≠ some 0
    rw [hlast]
    exact fun h => hb (Option.some.inj h)

/-- A first frame is written; a second one gives way to a third. -/
def thirdComes : List Action :=
  [.onFrame (twoSlices 7), .act .notifyOne, .act .work, .act .work, .act .work, .act .work,
    .act (.finish true), .onFrame (twoSlices 8), .onFrame (twoSlices 9)]

theorem recording_replays_thirdComes :
    ∃ r, (machine 1).run (new 1) thirdComes = some r ∧
      r.file = [0, 0, 1, 0x41, 7, 0, 0, 1, 0x41, 7] ∧
      ∃ h written, written.Sublist (thirdComes.flatMap framesOf) ∧ written.length = 1 ∧
        splitAnnexBNals ⟨r.file, h⟩ .h264 0 false [] = nalsOf .h264 0 written := by
  have h : ∀ r, (machine 1).run (new 1) thirdComes = some r → r.worker.consumed = 1 →
      ∀ h : r.file.length < 2 ^ 32, ∃ written : List StreamFrame,
        written.Sublist (thirdComes.flatMap framesOf) ∧ written.length = 1 ∧
          splitAnnexBNals ⟨r.file, h⟩ .h264 0 false [] = nalsOf .h264 0 written := by
    intro r hrun hone hlen
    have hframes : ∀ frame ∈ thirdComes.flatMap framesOf, frame.Delimited := by
      intro frame hframe
      have hgiven : thirdComes.flatMap framesOf = [twoSlices 7, twoSlices 8, twoSlices 9] := rfl
      rw [hgiven] at hframe
      have hcases : frame = twoSlices 7 ∨ frame = twoSlices 8 ∨ frame = twoSlices 9 := by
        simpa using hframe
      rcases hcases with rfl | rfl | rfl <;> exact twoSlices_delimited (by decide)
    obtain ⟨written, hsub, hcount, -, hsplit⟩ := recording_replays hrun
    have hdelimited : ∀ frame ∈ written, frame.Delimited :=
      fun frame hframe => hframes frame (hsub.subset hframe)
    exact ⟨written, hsub, hcount.trans hone, hsplit hdelimited hlen .h264 0 false⟩
  have hlen : [0, 0, 1, 0x41, 7, 0, 0, 1, 0x41, 7].length < 2 ^ 32 := by decide
  obtain ⟨written, hwritten⟩ := h _ rfl rfl hlen
  exact ⟨_, rfl, rfl, hlen, written, hwritten⟩

end RecorderConsumer

end Eye
