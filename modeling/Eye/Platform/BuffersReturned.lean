import Mathlib.Data.List.Nodup
import Eye.Platform.FetchFrame

/-!
# Encoder buffers are returned

`buffers_returned`: whatever the driver and malloc answer, every turn of the loop ends with no
stream held and no array allocated, what was got or allocated has been given back exactly once,
nothing is used after that, and the frames that are pushed own what they point to.

`Turn` lists the calls that one turn can make, `turn_cases` is the inversion, and the rest is about
lists of such turns.
-/

namespace Eye

/-- The frame has the packs of the stream, and each of its pointers is null or leads to its own
copy, which is what stood behind the pack's offset in the driver's buffer. -/
structure OwningFrame.OwnCopies (packs : List DriverPack) (frame : OwningFrame) : Prop where
  packData_eq : frame.packData = packs.map fun p => p.bytes.drop p.offset.toNat
  length_used : frame.frameData.used.length = packs.length
  pointers : ∀ (i : ℕ) (pk : RawPack), frame.frameData.used[i]? = some pk →
    ∃ copy, frame.packData[i]? = some copy ∧ pk.len.toNat = copy.length ∧
      (pk.data = .own i ∨ pk.data = .null ∧ copy = [])

namespace FetchState

variable {channel : VencChannel} {type : StreamType} {codec : CodecType} {s : FetchState}
  {a : ArrayId} {packs : List DriverPack} {frame : RawFrame}

/-- The bytes of a pack behind its offset. -/
def payload (p : DriverPack) : List UInt8 := p.bytes.drop p.offset.toNat

theorem length_payload {p : DriverPack} (h : p.offset ≤ p.len) :
    (p.len - p.offset).toNat = (payload p).length := by
  unfold payload
  rw [List.length_drop, p.readable, UInt32.toNat_sub_of_le _ _ h]

theorem payload_eq_nil {p : DriverPack} (h : p.offset ≤ p.len) (hpos : ¬ 0 < p.len - p.offset) :
    payload p = [] := by
  apply List.length_eq_zero_iff.mp
  rw [← length_payload h]
  rw [UInt32.lt_iff_toNat_lt] at hpos
  have : (0 : UInt32).toNat = 0 := rfl
  omega

/-! ## The frame -/

theorem fillFrame_eq (hstream : s.currentStream = ⟨some a, UInt32.ofNat packs.length⟩)
    (harray : s.arrays.lookup a = some (descriptors a packs)) (hle : packs.length ≤ MAX_PACKS) :
    ∃ frame', s.fillFrame codec frame = some frame' ∧
      frame'.packCount.toNat = packs.length ∧
      frame'.used = (descriptors a packs).map (framePack codec) := by
  have hcount : (UInt32.ofNat packs.length).toNat = packs.length := by
    have : MAX_PACKS = 16 := rfl
    rw [UInt32.toNat_ofNat', Nat.mod_eq_of_lt (by omega)]
  have hlen : (descriptors a packs).length = packs.length := List.length_mapIdx
  have hbody : ∀ j, 0 ≤ j → j < 0 + packs.length → ∀ pk, frame.packs[j]? = some pk →
      ((descriptors a packs)[j]?).map (fun p => (framePack codec p, ())) =
        some ((((descriptors a packs)[j]?).map (framePack codec)).getD ⟨.null, 0, .other⟩, ()) := by
    intro j _ hj pk _
    rw [List.getElem?_eq_getElem (by omega)]
    rfl
  obtain ⟨packs', hrun, hlist⟩ := forPacks_eq
    (fun i => (((descriptors a packs)[i]?).map (framePack codec)).getD ⟨.null, 0, .other⟩)
    (fun _ => ()) (by omega) hbody
  refine ⟨⟨packs', UInt32.ofNat packs.length, 0⟩, ?_, hcount, ?_⟩
  · unfold fillFrame
    rw [hstream, Option.bind_some, harray, Option.bind_some, hcount, hrun]
    rfl
  · show packs'.toList.take (UInt32.ofNat packs.length).toNat = _
    rw [hlist, hcount, ← hlen, map_range'_getD]
    simp

/-- What the constructor makes of the pack with index `i`. -/
def owned (i : ℕ) (pk : RawPack) : RawPack :=
  { pk with data := if 0 < pk.len then .own i else .null }

theorem getElem?_used {j : ℕ} (hj : j < frame.packCount.toNat) :
    frame.used[j]? = frame.packs[j]? := by
  unfold RawFrame.used
  rw [List.getElem?_take_of_lt hj, Vector.getElem?_toList]

/-- While the stream is held the constructor can copy the pack with index `i`. -/
theorem ownPack_eq (hheld : s.held.lookup a = some (packs.map DriverPack.bytes)) {i : ℕ}
    {p : DriverPack} (hp : packs[i]? = some p) (hoffset : p.offset ≤ p.len) :
    s.ownPack i (framePack codec ⟨(a, i), p.len, p.offset, p.dataType⟩) =
      some (owned i (framePack codec ⟨(a, i), p.len, p.offset, p.dataType⟩), payload p) := by
  have hlen := length_payload hoffset
  unfold ownPack owned framePack
  by_cases hpos : 0 < p.len - p.offset
  · have hread : s.read (.driver a i p.offset.toNat) (p.len - p.offset).toNat =
        some (payload p) := by
      have hle := UInt32.le_iff_toNat_le.mp hoffset
      unfold read
      dsimp only
      rw [hheld, Option.bind_some, List.getElem?_map, hp, Option.map_some, Option.bind_some,
        if_pos, hlen]
      · unfold payload
        rw [List.take_length]
      · rw [hlen, p.readable]
        unfold payload
        rw [List.length_drop, p.readable]
        omega
    simp only [hpos, if_true, ne_eq, reduceCtorEq, not_false_eq_true, and_self, hread,
      Option.map_some]
  · simp only [hpos, if_false, and_false, payload_eq_nil hoffset hpos]

theorem newStreamFrame_eq (hheld : s.held.lookup a = some (packs.map DriverPack.bytes))
    (hcount : frame.packCount.toNat = packs.length)
    (hused : frame.used = (descriptors a packs).map (framePack codec))
    (hle : packs.length ≤ MAX_PACKS) (hoffset : ∀ p ∈ packs, p.offset ≤ p.len) :
    ∃ streamFrame, s.newStreamFrame channel type codec frame = some streamFrame ∧
      streamFrame.OwnCopies packs := by
  have hget : ∀ {j p}, packs[j]? = some p →
      frame.packs[j]? = some (framePack codec ⟨(a, j), p.len, p.offset, p.dataType⟩) := by
    intro j p hp
    have hj := (List.getElem?_eq_some_iff.mp hp).1
    rw [← getElem?_used (by omega), hused, List.getElem?_map, descriptors, List.getElem?_mapIdx, hp]
    rfl
  have hbody : ∀ j, 0 ≤ j → j < 0 + packs.length → ∀ pk, frame.packs[j]? = some pk →
      s.ownPack j pk = some (((frame.packs[j]?).map (owned j)).getD ⟨.null, 0, .other⟩,
        ((packs[j]?).map payload).getD []) := by
    intro j _ hj pk hpk
    obtain ⟨p, hp⟩ : ∃ p, packs[j]? = some p := ⟨_, List.getElem?_eq_getElem (by omega)⟩
    rw [hpk, hp]
    rw [hget hp, Option.some.injEq] at hpk
    rw [← hpk]
    exact ownPack_eq hheld hp (hoffset p (List.mem_of_getElem? hp))
  obtain ⟨packs', hrun, hlist⟩ := forPacks_eq _ _ (by omega) hbody
  rw [map_range'_getD] at hrun
  refine ⟨⟨channel, type, codec, { frame with packs := packs' }, packs.map payload⟩, ?_, ?_⟩
  · unfold newStreamFrame
    rw [hcount, hrun]
    rfl
  have hused' : RawFrame.used { frame with packs := packs' } =
      (List.range' 0 packs.length).map fun i =>
        ((frame.packs[i]?).map (owned i)).getD ⟨.null, 0, .other⟩ := by
    unfold RawFrame.used
    dsimp only
    rw [hlist, hcount]
    simp
  refine ⟨rfl, ?_, ?_⟩
  · dsimp only
    rw [hused', List.length_map, List.length_range']
  · intro i pk hpk
    dsimp only at hpk ⊢
    rw [hused', List.getElem?_map, Option.map_eq_some_iff] at hpk
    obtain ⟨j, hj, rfl⟩ := hpk
    obtain ⟨hlt, rfl⟩ := List.getElem?_eq_some_iff.mp hj
    rw [List.length_range'] at hlt
    simp only [List.getElem_range', Nat.zero_add, Nat.one_mul]
    have hp : packs[i]? = some packs[i] := List.getElem?_eq_getElem hlt
    have hle := hoffset packs[i] (List.getElem_mem hlt)
    rw [hget hp, List.getElem?_map, hp]
    refine ⟨_, rfl, length_payload hle, ?_⟩
    unfold owned framePack
    dsimp only [Option.map_some, Option.getD_some]
    split_ifs with hpos
    · exact .inl rfl
    · exact .inr ⟨rfl, payload_eq_nil hle hpos⟩

theorem streamFrame_eq (hstream : s.currentStream = ⟨some a, UInt32.ofNat packs.length⟩)
    (harray : s.arrays.lookup a = some (descriptors a packs))
    (hheld : s.held.lookup a = some (packs.map DriverPack.bytes))
    (hle : packs.length ≤ MAX_PACKS) (hoffset : ∀ p ∈ packs, p.offset ≤ p.len) :
    ∃ frame' streamFrame, s.fillFrame codec frame = some frame' ∧
      s.newStreamFrame channel type codec frame' = some streamFrame ∧
      streamFrame.OwnCopies packs := by
  obtain ⟨frame', hfill, hcount, hused⟩ := fillFrame_eq hstream harray hle
  obtain ⟨streamFrame, hnew, hown⟩ := newStreamFrame_eq hheld hcount hused hle hoffset
  exact ⟨frame', streamFrame, hfill, hnew, hown⟩

/-! ## One turn -/

/-- No stream is held and no array is allocated. -/
structure Idle (s : FetchState) : Prop where
  arrays : s.arrays = []
  held : s.held = []

/-- The calls of one turn of the loop, with the next array before and after it. -/
inductive Turn (a : ArrayId) : ArrayId → List Call → Prop
  | notReady : Turn a a []
  | noPacks : Turn a a [.query]
  | notAllocated : Turn a a [.query, .malloc none]
  | notFetched : Turn a (a + 1) [.query, .malloc (some a), .getStream a none, .free a]
  | drained (packs : List DriverPack) (ok : Bool) :
      Turn a (a + 1) [.query, .malloc (some a), .getStream a (some packs), .release a ok, .free a]
  | pushed {packs : List DriverPack} {frame : OwningFrame} (ok : Bool) : frame.OwnCopies packs →
      Turn a (a + 1) [.query, .malloc (some a), .getStream a (some packs), .release a ok, .free a,
        .push frame]

section Calls

variable {cs : VencStream} {arrays : List (ArrayId × List VencPack)}
  {held : List (ArrayId × List (List UInt8))} {next : ArrayId} {log : List Call}
  {src : List VencPack} {buffers : List (List UInt8)} {cnt : UInt32} {ok : Bool}

theorem malloc_true :
    s.malloc true =
      (some s.nextArray,
        { s with
          arrays := (s.nextArray, []) :: s.arrays
          nextArray := s.nextArray + 1
          log := s.log ++ [.malloc (some s.nextArray)] }) := rfl

theorem getStream_fails :
    (⟨cs, [(a, src)], held, next, log⟩ : FetchState).getStream ⟨some a, cnt⟩ none =
      some (false, ⟨some a, cnt⟩, ⟨cs, [(a, src)], held, next, log ++ [.getStream a none]⟩) := by
  simp [getStream]

theorem getStream_succeeds :
    (⟨cs, [(a, src)], [], next, log⟩ : FetchState).getStream ⟨some a, cnt⟩ (some packs) =
      some (true, ⟨some a, UInt32.ofNat packs.length⟩,
        ⟨cs, [(a, descriptors a packs)], [(a, packs.map DriverPack.bytes)], next,
          log ++ [.getStream a (some packs)]⟩) := by
  simp [getStream]

theorem releaseStream_held :
    (⟨cs, arrays, [(a, buffers)], next, log⟩ : FetchState).releaseStream ⟨some a, cnt⟩ ok =
      some ⟨cs, arrays, [], next, log ++ [.release a ok]⟩ := by
  simp [releaseStream]

theorem free_allocated :
    (⟨cs, [(a, src)], held, next, log⟩ : FetchState).free a =
      some ⟨cs, [], held, next, log ++ [.free a]⟩ := by
  simp [free]

end Calls

theorem drain_cases (hi : s.Idle) (o : Outcomes) (curPacks : UInt32) :
    ∃ s' calls, s.query.drain o curPacks = some s' ∧ s'.Idle ∧
      Turn s.nextArray s'.nextArray (.query :: calls) ∧ s'.log = s.log ++ .query :: calls := by
  obtain ⟨cs, arrays, held, next, log⟩ := s
  obtain ⟨rfl, rfl⟩ : arrays = [] ∧ held = [] := ⟨hi.arrays, hi.held⟩
  unfold drain query
  cases o.allocated with
  | false => exact ⟨_, _, rfl, ⟨rfl, rfl⟩, .notAllocated, by simp⟩
  | true =>
    rw [malloc_true]
    dsimp only
    cases o.stream with
    | none =>
      rw [getStream_fails, Option.bind_some]
      dsimp only
      rw [if_neg Bool.false_ne_true, Option.bind_some, free_allocated]
      exact ⟨_, _, rfl, ⟨rfl, rfl⟩, .notFetched, by simp⟩
    | some packs =>
      rw [getStream_succeeds, Option.bind_some]
      dsimp only
      rw [if_pos rfl, releaseStream_held, Option.bind_some, free_allocated]
      exact ⟨_, _, rfl, ⟨rfl, rfl⟩, .drained packs o.released, by simp⟩

/-- **One turn.** It makes the calls of one `Turn` and leaves nothing held or allocated. -/
theorem turn_cases (hi : s.Idle) {o : Outcomes} (ho : o.Valid) :
    ∃ s' calls, s.turn channel type codec o = some s' ∧ s'.Idle ∧
      Turn s.nextArray s'.nextArray calls ∧ s'.log = s.log ++ calls := by
  unfold turn
  by_cases hready : o.ready = true
  swap
  · rw [if_neg hready]
    exact ⟨s, [], rfl, hi, .notReady, (List.append_nil _).symm⟩
  rw [if_pos hready]
  unfold fetchFrame
  cases hcur : o.curPacks with
  | none => exact ⟨_, _, rfl, ⟨hi.arrays, hi.held⟩, .noPacks, rfl⟩
  | some curPacks =>
    dsimp only
    by_cases hzero : curPacks = 0
    · rw [if_pos hzero]
      exact ⟨_, _, rfl, ⟨hi.arrays, hi.held⟩, .noPacks, rfl⟩
    rw [if_neg hzero]
    by_cases hmax : MAX_PACKS < curPacks.toNat
    · rw [if_pos hmax]
      obtain ⟨s', calls, hdrain, hidle, hturn, hlog⟩ := drain_cases hi o curPacks
      rw [hdrain]
      exact ⟨s', _, rfl, hidle, hturn, hlog⟩
    rw [if_neg hmax]
    obtain ⟨cs, arrays, held, next, log⟩ := s
    obtain ⟨rfl, rfl⟩ : arrays = [] ∧ held = [] := ⟨hi.arrays, hi.held⟩
    unfold query
    cases o.allocated with
    | false => exact ⟨_, _, rfl, ⟨rfl, rfl⟩, .notAllocated, by simp⟩
    | true =>
      rw [malloc_true]
      dsimp only
      cases hstream : o.stream with
      | none =>
        rw [getStream_fails, Option.bind_some]
        dsimp only
        rw [if_neg Bool.false_ne_true, free_allocated]
        exact ⟨_, _, rfl, ⟨rfl, rfl⟩, .notFetched, by simp⟩
      | some packs =>
        obtain ⟨hle, hoffset⟩ := ho curPacks packs hcur hstream
        have hpacks : packs.length ≤ MAX_PACKS := by omega
        rw [getStream_succeeds, Option.bind_some]
        dsimp only
        rw [if_pos rfl]
        -- the stream is held and the array allocated until `releaseFrame`
        generalize hlog : log ++ [Call.query] ++ [Call.malloc (some next)] ++
          [Call.getStream next (some packs)] = log₁
        have hfill : ∀ t : FetchState,
            t = ⟨⟨some next, UInt32.ofNat packs.length⟩, [(next, descriptors next packs)],
              [(next, packs.map DriverPack.bytes)], next + 1, log₁⟩ →
            ∃ frame streamFrame, t.fillFrame codec o.frame = some frame ∧
              t.newStreamFrame channel type codec frame = some streamFrame ∧
              streamFrame.OwnCopies packs := by
          rintro t rfl
          apply streamFrame_eq rfl _ _ hpacks hoffset
          · simp
          · simp
        obtain ⟨frame, streamFrame, hframe, hnew, hown⟩ := hfill _ rfl
        rw [hframe, Option.map_some, Option.bind_some]
        dsimp only
        rw [hnew, Option.bind_some]
        unfold releaseFrame
        dsimp only
        rw [releaseStream_held, Option.bind_some, free_allocated]
        refine ⟨_, _, rfl, ⟨rfl, rfl⟩, .pushed o.released hown, ?_⟩
        simp [← hlog]

/-! ## Whole runs -/

/-- The arrays that malloc has returned, in order. -/
def allocations (log : List Call) : List ArrayId :=
  log.filterMap fun
    | .malloc result => result
    | _ => none

/-- The arrays that have been freed, in order. -/
def frees (log : List Call) : List ArrayId :=
  log.filterMap fun
    | .free array => some array
    | _ => none

/-- The streams that the driver has got back, whether it said so or not. -/
def releases (log : List Call) : List ArrayId :=
  log.filterMap fun
    | .release array _ => some array
    | _ => none

/-- The calls before the next query. -/
def untilQuery (log : List Call) : List Call :=
  log.takeWhile fun
    | .query => false
    | _ => true

/-- The calls of a number of turns. -/
inductive Turns : ArrayId → List Call → Prop
  | nil : Turns 0 []
  | snoc {a a' : ArrayId} {log calls : List Call} : Turns a log → Turn a a' calls →
      Turns a' (log ++ calls)

theorem turns_of_run {os : List Outcomes} (hi : s.Idle) (ht : Turns s.nextArray s.log)
    (ho : ∀ o ∈ os, o.Valid) :
    ∃ s', s.run channel type codec os = some s' ∧ s'.Idle ∧ Turns s'.nextArray s'.log := by
  induction os generalizing s with
  | nil => exact ⟨s, rfl, hi, ht⟩
  | cons o os ih =>
    obtain ⟨s₁, calls, h₁, hi₁, hturn, hlog⟩ :
        ∃ s₁ calls, s.turn channel type codec o = some s₁ ∧ s₁.Idle ∧
          Turn s.nextArray s₁.nextArray calls ∧ s₁.log = s.log ++ calls :=
      turn_cases hi (ho o List.mem_cons_self)
    have ht₁ : Turns s₁.nextArray s₁.log := by
      rw [hlog]
      exact ht.snoc hturn
    obtain ⟨s', hrun, hi', ht'⟩ := ih hi₁ ht₁ fun o ho' => ho o (List.mem_cons_of_mem _ ho')
    refine ⟨s', ?_, hi', ht'⟩
    unfold run at hrun ⊢
    rw [List.foldlM_cons, h₁]
    exact hrun

theorem Turn.arrays {a' : ArrayId} {calls : List Call} (h : Turn a a' calls) :
    (allocations calls = [] ∧ frees calls = [] ∧ a' = a) ∨
      (allocations calls = [a] ∧ frees calls = [a] ∧ a' = a + 1) := by
  cases h with
  | notReady | noPacks | notAllocated => exact .inl ⟨rfl, rfl, rfl⟩
  | notFetched | drained | pushed => exact .inr ⟨rfl, rfl, rfl⟩

/-- What has been freed is what has been allocated, and no array was allocated twice. -/
theorem Turns.frees_eq {n : ArrayId} {log : List Call} (h : Turns n log) :
    frees log = allocations log ∧ (allocations log).Nodup ∧ ∀ a ∈ allocations log, a < n := by
  induction h with
  | nil => exact ⟨rfl, List.nodup_nil, fun _ h => absurd h List.not_mem_nil⟩
  | @snoc a a' log calls hts ht ih =>
    obtain ⟨heq, hnodup, hlt⟩ := ih
    have hfrees : frees (log ++ calls) = frees log ++ frees calls := List.filterMap_append
    have hallocs : allocations (log ++ calls) = allocations log ++ allocations calls :=
      List.filterMap_append
    rw [hfrees, hallocs, heq]
    rcases ht.arrays with ⟨ha, hf, rfl⟩ | ⟨ha, hf, rfl⟩
    · rw [ha, hf, List.append_nil]
      exact ⟨rfl, hnodup, hlt⟩
    · rw [ha, hf]
      refine ⟨rfl, ?_, ?_⟩
      · apply List.nodup_append.mpr
        refine ⟨hnodup, List.nodup_singleton _, ?_⟩
        intro b hb c hc
        rw [List.mem_singleton.mp hc]
        exact Nat.ne_of_lt (hlt b hb)
      · intro b hb
        rcases List.mem_append.mp hb with hb | hb
        · exact Nat.lt_succ_of_lt (hlt b hb)
        · rw [List.mem_singleton.mp hb]
          exact Nat.lt_succ_self a

theorem Turn.releases_eq {a' b : ArrayId} {calls pre post : List Call} (h : Turn a a' calls)
    (hget : calls = pre ++ .getStream b (some packs) :: post) :
    releases (untilQuery post) = [b] := by
  cases h with
  | notReady | noPacks | notAllocated | notFetched => simp [List.cons_eq_append_iff] at hget
  | drained | pushed =>
    simp [List.cons_eq_append_iff] at hget
    obtain ⟨-, ⟨rfl, -⟩, rfl⟩ := hget
    rfl

theorem Turn.push {a' : ArrayId} {calls pre post : List Call} {frame : OwningFrame}
    (h : Turn a a' calls) (hpush : calls = pre ++ .push frame :: post) :
    ∃ pre' packs mid, pre = pre' ++ .getStream a (some packs) :: mid ∧ Call.query ∉ mid ∧
      frame.OwnCopies packs := by
  cases h with
  | notReady | noPacks | notAllocated | notFetched | drained =>
    simp [List.cons_eq_append_iff] at hpush
  | @pushed packs _ ok hown =>
    simp [List.cons_eq_append_iff] at hpush
    obtain ⟨rfl, rfl, -⟩ := hpush
    exact ⟨[.query, .malloc (some a)], packs, [.release a ok, .free a], rfl, by simp, hown⟩

theorem Turn.untilQuery_eq {a' : ArrayId} {calls : List Call} (h : Turn a a' calls) :
    untilQuery calls = [] := by
  cases h <;> rfl

theorem untilQuery_append (post : List Call) {calls : List Call} (h : untilQuery calls = []) :
    untilQuery (post ++ calls) = untilQuery post := by
  unfold untilQuery at h ⊢
  rw [List.takeWhile_append, h, List.append_nil]
  split_ifs with hall
  · exact ((List.takeWhile_prefix _).eq_of_length hall).symm
  · rfl

theorem append_split {α : Type} {l₁ l₂ pre post : List α} {x : α}
    (h : l₁ ++ l₂ = pre ++ x :: post) :
    (∃ post₁, l₁ = pre ++ x :: post₁ ∧ post = post₁ ++ l₂) ∨
      ∃ pre₂, pre = l₁ ++ pre₂ ∧ l₂ = pre₂ ++ x :: post := by
  rcases List.append_eq_append_iff.mp h with ⟨as, rfl, hl⟩ | ⟨bs, rfl, hl⟩
  · exact .inr ⟨as, rfl, hl⟩
  · cases bs with
    | nil => exact .inr ⟨[], by simp, by simpa using hl.symm⟩
    | cons y ys =>
      obtain ⟨rfl, rfl⟩ := List.cons.inj hl
      exact .inl ⟨ys, rfl, rfl⟩

/-- Every stream got is released exactly once before the next query. -/
theorem Turns.releases_eq {n b : ArrayId} {log pre post : List Call} (h : Turns n log)
    (hget : log = pre ++ .getStream b (some packs) :: post) :
    releases (untilQuery post) = [b] := by
  induction h generalizing pre post with
  | nil => simp at hget
  | @snoc a a' log calls hts ht ih =>
    rcases append_split hget with ⟨post₁, hlog, rfl⟩ | ⟨pre₂, -, hcalls⟩
    · rw [untilQuery_append _ ht.untilQuery_eq]
      exact ih hlog
    · exact ht.releases_eq hcalls

theorem Turns.push {n : ArrayId} {log pre post : List Call} {frame : OwningFrame} (h : Turns n log)
    (hpush : log = pre ++ .push frame :: post) :
    ∃ pre' a packs mid, pre = pre' ++ .getStream a (some packs) :: mid ∧ Call.query ∉ mid ∧
      frame.OwnCopies packs := by
  induction h generalizing pre post with
  | nil => simp at hpush
  | @snoc a a' log calls hts ht ih =>
    rcases append_split hpush with ⟨post₁, hlog, rfl⟩ | ⟨pre₂, rfl, hcalls⟩
    · exact ih hlog
    · obtain ⟨pre', packs, mid, rfl, hmid, hown⟩ := ht.push hcalls
      exact ⟨log ++ pre', a, packs, mid, by simp, hmid, hown⟩

/-- **Encoder buffers are returned.** Whatever the driver and malloc answer in however many turns,
the loop does nothing undefined, and at its head no stream is held and no array is allocated; every
array has been freed exactly once, every stream got was released exactly once before the next query,
and every frame pushed owns a copy of the packs got last. -/
theorem buffers_returned (channel : VencChannel) (type : StreamType) (codec : CodecType)
    (currentStream : VencStream) {os : List Outcomes} (ho : ∀ o ∈ os, o.Valid) :
    ∃ s, (initial currentStream).run channel type codec os = some s ∧
      s.held = [] ∧ s.arrays = [] ∧
      frees s.log = allocations s.log ∧ (allocations s.log).Nodup ∧
      (∀ pre a packs post, s.log = pre ++ .getStream a (some packs) :: post →
        releases (untilQuery post) = [a]) ∧
      ∀ pre frame post, s.log = pre ++ .push frame :: post →
        ∃ pre' a packs mid, pre = pre' ++ .getStream a (some packs) :: mid ∧ Call.query ∉ mid ∧
          frame.OwnCopies packs := by
  obtain ⟨s, hrun, hi, ht⟩ := turns_of_run (s := initial currentStream) ⟨rfl, rfl⟩ .nil ho
  obtain ⟨hfrees, hnodup, -⟩ := ht.frees_eq
  refine ⟨s, hrun, hi.held, hi.arrays, hfrees, hnodup, ?_, ?_⟩
  · intro pre a packs post h
    exact ht.releases_eq h
  · intro pre frame post h
    exact ht.push h

/-- A pack of an H.264 stream whose first byte is to be skipped. -/
def idrPack : DriverPack := ⟨[0, 9, 9], 3, 1, 5, rfl⟩

/-- The stack before the frame is filled. -/
def stackFrame : RawFrame := ⟨Vector.replicate _ ⟨.driver 7 7 7, 7, .other⟩, 7, 7⟩

/-- The channel is ready with `curPacks` packs. -/
def outcomes (curPacks : UInt32) (allocated : Bool) (stream : Option (List DriverPack)) :
    Outcomes :=
  ⟨true, some curPacks, allocated, stream, false, stackFrame⟩

/-- An oversized frame, a failing malloc, a timeout of the driver and a good frame, whose release
fails. -/
def fourTurns : List Outcomes :=
  [outcomes 17 true (some [idrPack]), outcomes 1 false none, outcomes 1 true none,
    outcomes 1 true (some [idrPack])]

theorem buffers_returned_fourTurns :
    ∃ s, (initial ⟨some 5, 5⟩).run .chn0 .videoMain .h264 fourTurns = some s ∧
      s.held = [] ∧ s.arrays = [] ∧ allocations s.log = [0, 1, 2] ∧ frees s.log = [0, 1, 2] ∧
      releases s.log = [0, 2] := by
  have hidr : ∀ p ∈ [idrPack], p.offset ≤ p.len := by decide
  have hvalid : ∀ o ∈ fourTurns, o.Valid := by
    intro o ho curPacks packs hcur hpacks
    simp only [fourTurns, List.mem_cons, List.not_mem_nil, or_false] at ho
    rcases ho with rfl | rfl | rfl | rfl
    · cases hcur
      cases hpacks
      exact ⟨by decide, hidr⟩
    · cases hpacks
    · cases hpacks
    · cases hcur
      cases hpacks
      exact ⟨by decide, hidr⟩
  obtain ⟨s, hrun, hheld, harrays, hfrees, -⟩ :=
    buffers_returned .chn0 .videoMain .h264 ⟨some 5, 5⟩ hvalid
  have hlog : ((initial ⟨some 5, 5⟩).run .chn0 .videoMain .h264 fourTurns).map
      (fun s => (allocations s.log, releases s.log)) = some ([0, 1, 2], [0, 2]) := by
    decide +kernel
  rw [hrun, Option.map_some, Option.some.injEq, Prod.mk.injEq] at hlog
  exact ⟨s, hrun, hheld, harrays, hlog.1, hfrees.trans hlog.1, hlog.2⟩

end FetchState

end Eye
