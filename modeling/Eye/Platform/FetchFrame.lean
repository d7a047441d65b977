import Mathlib.Data.List.Basic
import Eye.Core.CommonTypes

/-!
# Fetching a frame

The loop of `StreamFetcher::run` with `fetchFrame`, `releaseFrame` and the constructor of
`StreamFrame`. `Outcomes` says what select, malloc and the driver answer in one turn of the loop;
`FetchState` keeps the pack arrays that are allocated, the streams that the driver has handed out
and not got back, and a log of the calls.

Pointers are explicit. A function is `none` where the code would free an array that is not
allocated, release a stream that is not held, read from a buffer that the driver has taken back, or
write behind the end of `packs`.
-/

namespace Eye

/-- The address of an array that malloc has returned; no two calls return the same. -/
abbrev ArrayId := ℕ

/-- A pointer to bytes: into the buffer of a pack, of the stream that was fetched into an array, or
to the copy of a pack that a frame owns. -/
inductive BytePtr
  | null
  | driver (array : ArrayId) (pack : ℕ) (offset : ℕ)
  | own (pack : ℕ)
  deriving DecidableEq

/-- `ot_venc_pack`: `addr` is the start of the driver's buffer for that pack, `dataType` the value
of its enumeration. -/
structure VencPack where
  addr : ArrayId × ℕ
  len : UInt32
  offset : UInt32
  dataType : UInt32

/-- `ot_venc_stream` -/
structure VencStream where
  pack : Option ArrayId
  packCnt : UInt32

/-- `FramePack`, with its pointer. -/
structure RawPack where
  data : BytePtr
  len : UInt32
  naluType : NaluType

/-- `FrameData`, with its pointers. -/
structure RawFrame where
  packs : Vector RawPack MAX_PACKS
  packCount : UInt32
  seq : UInt32

/-- The packs in use. -/
def RawFrame.used (frame : RawFrame) : List RawPack :=
  frame.packs.toList.take frame.packCount.toNat

/-- `StreamFrame`, with its pointers. -/
structure OwningFrame where
  channel : VencChannel
  type : StreamType
  codecType : CodecType
  frameData : RawFrame
  packData : List (List UInt8)

/-- A pack as the driver fetches it, with the bytes at its address. -/
structure DriverPack where
  bytes : List UInt8
  len : UInt32
  offset : UInt32
  dataType : UInt32
  readable : bytes.length = len.toNat

/-- The answers in one turn of the loop: whether select finds the channel ready, `cur_packs` if
`ss_mpi_venc_query_status` succeeds, whether malloc does, the packs if `ss_mpi_venc_get_stream`
succeeds, whether `ss_mpi_venc_release_stream` does. `frame` is what lies on the stack. -/
structure Outcomes where
  ready : Bool
  curPacks : Option UInt32
  allocated : Bool
  stream : Option (List DriverPack)
  released : Bool
  frame : RawFrame

/-- What the driver promises: no more packs than it was given room for, and offsets within the
packs. -/
def Outcomes.Valid (o : Outcomes) : Prop :=
  ∀ curPacks packs, o.curPacks = some curPacks → o.stream = some packs →
    packs.length ≤ curPacks.toNat ∧ ∀ p ∈ packs, p.offset ≤ p.len

/-- The calls of the loop: to the driver, to malloc and free, and to `StreamDistributor::push`. -/
inductive Call
  | query
  | malloc (result : Option ArrayId)
  | getStream (array : ArrayId) (result : Option (List DriverPack))
  | release (array : ArrayId) (ok : Bool)
  | free (array : ArrayId)
  | push (frame : OwningFrame)

/-- `currentStream` is `current_stream_`, a stream in `held` is named by the array it was fetched
into and comes with the bytes of its buffers. -/
structure FetchState where
  currentStream : VencStream
  arrays : List (ArrayId × List VencPack)
  held : List (ArrayId × List (List UInt8))
  nextArray : ArrayId
  log : List Call

namespace FetchState

/-- Before the first turn; `current_stream_` has not been initialised. -/
def initial (currentStream : VencStream) : FetchState := ⟨currentStream, [], [], 0, []⟩

def query (s : FetchState) : FetchState := { s with log := s.log ++ [.query] }

def malloc (s : FetchState) (ok : Bool) : Option ArrayId × FetchState :=
  if ok then
    (some s.nextArray,
      { s with
        arrays := (s.nextArray, []) :: s.arrays
        nextArray := s.nextArray + 1
        log := s.log ++ [.malloc (some s.nextArray)] })
  else (none, { s with log := s.log ++ [.malloc none] })

def free (s : FetchState) (array : ArrayId) : Option FetchState :=
  if array ∈ s.arrays.map Prod.fst then
    some { s with
      arrays := s.arrays.filter fun e => e.1 ≠ array
      log := s.log ++ [.free array] }
  else none

/-- What `ss_mpi_venc_get_stream` writes into the array. -/
def descriptors (array : ArrayId) (packs : List DriverPack) : List VencPack :=
  packs.mapIdx fun i p => ⟨(array, i), p.len, p.offset, p.dataType⟩

/-- `ss_mpi_venc_get_stream`: whether it succeeds, and the stream with its `pack_cnt`. -/
def getStream (s : FetchState) (stream : VencStream) (result : Option (List DriverPack)) :
    Option (Bool × VencStream × FetchState) :=
  stream.pack.bind fun array =>
    if array ∈ s.arrays.map Prod.fst then
      match result with
      | none => some (false, stream, { s with log := s.log ++ [.getStream array none] })
      | some packs =>
        some (true, { stream with packCnt := UInt32.ofNat packs.length },
          { s with
            arrays := s.arrays.map fun e =>
              if e.1 = array then (array, descriptors array packs) else e
            held := (array, packs.map DriverPack.bytes) :: s.held
            log := s.log ++ [.getStream array (some packs)] })
    else none

/-- `ss_mpi_venc_release_stream` -/
def releaseStream (s : FetchState) (stream : VencStream) (ok : Bool) : Option FetchState :=
  stream.pack.bind fun array =>
    if array ∈ s.held.map Prod.fst then
      some { s with
        held := s.held.filter fun e => e.1 ≠ array
        log := s.log ++ [.release array ok] }
    else none

/-- The `len` bytes that a pointer leads to. -/
def read (s : FetchState) (ptr : BytePtr) (len : ℕ) : Option (List UInt8) :=
  match ptr with
  | .driver array pack offset =>
    (s.held.lookup array).bind fun buffers =>
      (buffers[pack]?).bind fun bytes =>
        if offset + len ≤ bytes.length then some ((bytes.drop offset).take len) else none
  | .null | .own _ => none

/-- A loop that replaces `packs[i]` for `count` indices from `i` on and gathers what its body
returns. -/
def forPacks {β : Type} (body : ℕ → RawPack → Option (RawPack × β)) :
    ℕ → ℕ → Vector RawPack MAX_PACKS → Option (Vector RawPack MAX_PACKS × List β)
  | 0, _, packs => some (packs, [])
  | count + 1, i, packs =>
    if h : i < MAX_PACKS then
      (body i packs[i]).bind fun r =>
        (forPacks body count (i + 1) (packs.set i r.1)).map fun r' => (r'.1, r.2 :: r'.2)
    else none

/-- The value of `NaluType` for a pack, which MJPEG leaves at `OTHER`. -/
def naluType (codec : CodecType) (dataType : UInt32) : NaluType :=
  match codec with
  | .h264 =>
    if dataType = 5 then .idrSlice
    else if dataType = 1 then .pSlice
    else if dataType = 0 then .bSlice
    else .other
  | .h265 =>
    if dataType = 19 then .idrSlice
    else if dataType = 1 then .pSlice
    else if dataType = 0 then .bSlice
    else .other
  | .mjpeg => .other

/-- The body of the loop of `fetchFrame`. -/
def framePack (codec : CodecType) (src : VencPack) : RawPack where
  data := .driver src.addr.1 src.addr.2 src.offset.toNat
  len := src.len - src.offset
  naluType := naluType codec src.dataType

/-- The rest of `fetchFrame`, when the stream is there. -/
def fillFrame (s : FetchState) (codec : CodecType) (frame : RawFrame) : Option RawFrame :=
  s.currentStream.pack.bind fun array =>
    (s.arrays.lookup array).bind fun src =>
      (forPacks (fun i _ => (src[i]?).map fun p => (framePack codec p, ()))
        s.currentStream.packCnt.toNat 0 frame.packs).map fun r =>
          ⟨r.1, s.currentStream.packCnt, 0⟩

/-- What `fetchFrame` does with a stream of too many packs. -/
def drain (s : FetchState) (o : Outcomes) (curPacks : UInt32) : Option FetchState :=
  match s.malloc o.allocated with
  | (none, s) => some s
  | (some array, s) =>
    (s.getStream ⟨some array, curPacks⟩ o.stream).bind fun r =>
      (if r.1 then r.2.2.releaseStream r.2.1 o.released else some r.2.2).bind fun s =>
        s.free array

/-- `StreamFetcher::fetchFrame`, with the frame if it returns 0. -/
def fetchFrame (s : FetchState) (codec : CodecType) (o : Outcomes) :
    Option (Option RawFrame × FetchState) :=
  let s := s.query
  match o.curPacks with
  | none => some (none, s)
  | some curPacks =>
    if curPacks = 0 then some (none, s)
    else if MAX_PACKS < curPacks.toNat then (s.drain o curPacks).map fun s => (none, s)
    else
      match s.malloc o.allocated with
      | (none, s) => some (none, { s with currentStream := { s.currentStream with pack := none } })
      | (some array, s) =>
        (s.getStream ⟨some array, curPacks⟩ o.stream).bind fun r =>
          let s := { r.2.2 with currentStream := r.2.1 }
          if r.1 then (s.fillFrame codec o.frame).map fun frame => (some frame, s)
          else (s.free array).map fun s =>
            (none, { s with currentStream := { s.currentStream with pack := none } })

/-- `StreamFetcher::releaseFrame` -/
def releaseFrame (s : FetchState) (ok : Bool) : Option FetchState :=
  match s.currentStream.pack with
  | none => some s
  | some array =>
    (s.releaseStream s.currentStream ok).bind fun s =>
      (s.free array).map fun s =>
        { s with currentStream := { s.currentStream with pack := none } }

/-- The body of the loop in the constructor of `StreamFrame`. -/
def ownPack (s : FetchState) (i : ℕ) (pk : RawPack) : Option (RawPack × List UInt8) :=
  if pk.data ≠ .null ∧ 0 < pk.len then
    (s.read pk.data pk.len.toNat).map fun copy => ({ pk with data := .own i }, copy)
  else some ({ pk with data := .null }, [])

/-- `StreamFrame::StreamFrame` -/
def newStreamFrame (s : FetchState) (channel : VencChannel) (type : StreamType) (codec : CodecType)
    (frame : RawFrame) : Option OwningFrame :=
  (forPacks s.ownPack frame.packCount.toNat 0 frame.packs).map fun r =>
    ⟨channel, type, codec, { frame with packs := r.1 }, r.2⟩

/-- One turn of the loop of `StreamFetcher::run`. -/
def turn (channel : VencChannel) (type : StreamType) (codec : CodecType) (s : FetchState)
    (o : Outcomes) : Option FetchState :=
  if o.ready then
    (s.fetchFrame codec o).bind fun r =>
      match r.1 with
      | none => some r.2
      | some frame =>
        (r.2.newStreamFrame channel type codec frame).bind fun streamFrame =>
          (r.2.releaseFrame o.released).map fun s => { s with log := s.log ++ [.push streamFrame] }
  else some s

/-- `StreamFetcher::run`: as many turns as `running_` lasts. -/
def run (channel : VencChannel) (type : StreamType) (codec : CodecType) (s : FetchState)
    (os : List Outcomes) : Option FetchState :=
  os.foldlM (turn channel type codec) s

/-! ## The loops over the packs -/

theorem take_set_succ {α : Type} {l : List α} {i : ℕ} (h : i < l.length) (x : α) :
    (l.set i x).take (i + 1) = l.take i ++ [x] := by
  rw [List.take_add_one, List.take_set_of_le (Nat.le_refl i), List.getElem?_set_self h]
  rfl

/-- A loop whose body succeeds on every index replaces these packs and no others. -/
theorem forPacks_eq {β : Type} {body : ℕ → RawPack → Option (RawPack × β)} (f : ℕ → RawPack)
    (g : ℕ → β) {count i : ℕ} {packs : Vector RawPack MAX_PACKS} (hle : i + count ≤ MAX_PACKS)
    (hbody : ∀ j, i ≤ j → j < i + count → ∀ pk, packs[j]? = some pk →
      body j pk = some (f j, g j)) :
    ∃ packs', forPacks body count i packs = some (packs', (List.range' i count).map g) ∧
      packs'.toList = packs.toList.take i ++ (List.range' i count).map f ++
        packs.toList.drop (i + count) := by
  induction count generalizing i packs with
  | zero =>
    refine ⟨packs, rfl, ?_⟩
    simp
  | succ count ih =>
    have hi : i < MAX_PACKS := by omega
    have hlen : i < packs.toList.length := by simpa using hi
    have hnext : ∀ j, i + 1 ≤ j → j < i + 1 + count → ∀ pk, (packs.set i (f i))[j]? = some pk →
        body j pk = some (f j, g j) := by
      intro j hj hlt pk hpk
      have hne : i ≠ j := by omega
      rw [Vector.getElem?_set_ne hi hne] at hpk
      exact hbody j (by omega) (by omega) pk hpk
    obtain ⟨packs', hrun, hlist⟩ := ih (by omega) hnext
    refine ⟨packs', ?_, ?_⟩
    · rw [forPacks, dif_pos hi, hbody i (by omega) (by omega) packs[i] (by simp [hi]),
        Option.bind_some, hrun]
      rfl
    · rw [hlist, Vector.toList_set, take_set_succ hlen, List.drop_set_of_lt (by omega),
        List.range'_succ, List.map_cons]
      simp [Nat.add_assoc, Nat.add_comm 1]

theorem map_range'_getD {α β : Type} (l : List α) (f : α → β) (b : β) :
    (List.range' 0 l.length).map (fun i => ((l[i]?).map f).getD b) = l.map f := by
  apply List.ext_getElem
  · simp
  · intro i _ hi
    rw [List.length_map] at hi
    simp [List.getElem?_eq_getElem hi]

end FetchState

end Eye
