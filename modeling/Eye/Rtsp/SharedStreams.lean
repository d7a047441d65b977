import Eye.Lib.SharedMap
import Eye.Rtsp.Sessions

/-!
# Queues and caches behind shared pointers

`RtspServer` keeps the queue and the parameter-set cache of a stream behind a `shared_ptr` each. The
subsession of the stream holds them too, the sources it creates hold the queue, and so does
`on_frame` while it runs. So a queue can outlive its entry in the map: `remove_stream` and `stop`
drop it while sources still read from it, and `add_stream` makes another one for the same stream.

`SharedServer` is the server with its pointers; `value` forgets them, which gives the server of
`Sessions`, whose maps hold queues and caches themselves. `shared_run` says that this is faithful:
every run with pointers is a run by value, in which the holders of a dropped queue take no part.
`cut_off` says what becomes of such a queue.

The maps are not guarded, so the owner's calls do not overlap with the lookups of `on_frame`; they
may come between its lookups and its push.
-/

namespace Eye

namespace RtspFrameQueue

variable {ν : Type}

theorem mem_nals_pushAccessUnit {q : RtspFrameQueue ν} {nals : List ν} {nal : ν}
    (h : nal ∈ (q.pushAccessUnit nals).nals) : nal ∈ q.nals ∨ nal ∈ nals := by
  have hdrop : ∀ (n : ℕ) (units : List (RtspAccessUnit ν)),
      (dropWhileFull n units).Sublist units := by
    intro n units
    induction units with
    | nil => exact .slnil
    | cons u rest ih =>
      rw [dropWhileFull_cons]
      split_ifs
      · exact ih.cons _
      · exact List.Sublist.refl _
  unfold pushAccessUnit at h
  split_ifs at h
  · exact .inl h
  · have h : nal ∈ (dropWhileFull q.maxQueueSize q.queue ++ [nals]).flatten := h
    rw [List.flatten_append, List.flatten_singleton] at h
    exact (List.mem_append.mp h).imp_left fun hm => (hdrop _ _).flatten.subset hm

theorem mem_nals_popNalUnit {q : RtspFrameQueue ν} {nal : ν} (h : nal ∈ q.popNalUnit.2.nals) :
    nal ∈ q.nals := by
  have hskip : ∀ units : List (RtspAccessUnit ν),
      (skipEmpty units).flatten = units.flatten := by
    intro units
    induction units with
    | nil => rfl
    | cons u rest ih =>
      unfold skipEmpty
      split_ifs with hu
      · rw [ih, List.isEmpty_iff.mp hu]
        rfl
      · rfl
  unfold nals
  rw [← hskip]
  unfold popNalUnit at h
  split at h
  · rename_i first nals rest hunits
    rw [hunits, List.flatten_cons]
    split_ifs at h with hnals
    · exact List.mem_append_right _ h
    · have h : nal ∈ (nals :: rest).flatten := h
      rw [List.flatten_cons] at h
      exact (List.mem_append.mp h).elim
        (fun hm => List.mem_append_left _ (List.mem_cons_of_mem _ hm))
        fun hm => List.mem_append_right _ hm
  · exact h

end RtspFrameQueue

namespace LiveServer

/-! ## The server by value -/

def mapQueue (w : LiveServer) (t : StreamType)
    (f : RtspFrameQueue RtspNalUnit → RtspFrameQueue RtspNalUnit) : LiveServer :=
  { w with
    server :=
      { w.server with
        frameQueues := Function.update w.server.frameQueues t ((w.server.frameQueues t).map f) } }

/-- The NAL units that `on_frame` makes of a frame, if its stream is registered. -/
def unitsOf (w : LiveServer) (frame : StreamFrame) : List RtspNalUnit :=
  match w.server.streamCodecs frame.type with
  | none => []
  | some codec =>
    (RtspServer.frameNals codec frame).map (RtspServer.nalUnit frame.timestamp)

/-- The parameter sets of a frame are stored. -/
def cacheFrame (w : LiveServer) (frame : StreamFrame) : LiveServer :=
  match w.server.streamCodecs frame.type with
  | none => w
  | some codec =>
    { w with
      server :=
        { w.server with
          parameterSets := Function.update w.server.parameterSets frame.type
            ((w.server.parameterSets frame.type).map fun cache =>
              RtspServer.cacheAfter cache (RtspServer.frameNals codec frame)) } }

/-- What happens to the maps: a call of the owner, a frame whose parameter sets are stored, a frame
whose NAL units are pushed, a source that comes, goes or pops. -/
inductive MapEvent
  | call (c : Call)
  | cache (frame : StreamFrame)
  | push (frame : StreamFrame)
  | registerSource (t : StreamType) (s : SourceId)
  | unregisterSource (t : StreamType) (s : SourceId)
  | popNalUnit (t : StreamType)

def mapStep (w : LiveServer) : MapEvent → Option LiveServer
  | .call c => w.step c
  | .cache frame => some (w.cacheFrame frame)
  | .push frame => some (w.mapQueue frame.type fun q => q.pushAccessUnit (w.unitsOf frame))
  | .registerSource t s => some (w.mapQueue t fun q => q.registerSource s)
  | .unregisterSource t s => some (w.mapQueue t fun q => q.unregisterSource s)
  | .popNalUnit t => some (w.mapQueue t fun q => q.popNalUnit.2)

/-- The server by value. -/
def mapMachine : Machine LiveServer MapEvent where
  init w := w = new
  step := mapStep

end LiveServer

/-! ## The server with its pointers -/

/-- The pointers that `RtspServerMediaSubsession::createNew` is given, with the labels of the
stream. -/
structure SharedSubsession where
  streamType : StreamType
  codecType : CodecType
  frameQueue : ℕ
  paramCache : ℕ

/-- The pointer that `RtspStreamSource::createNew` is given. -/
structure SharedSource where
  streamType : StreamType
  frameQueue : ℕ

/-- `on_frame` behind its loops: the queue it has looked up, the NAL units it has gathered, and
whether it has seen an active source. -/
structure SharedCall where
  frame : StreamFrame
  frameQueue : ℕ
  accessUnitNals : List RtspNalUnit
  active : Bool

/-- `RtspServer` and live555's sessions, as in `LiveServer`, with shared pointers; the subsession of
every session that has been created, the sources, and the calls of `on_frame` that are behind their
loops. -/
structure SharedServer where
  rtspServer : Bool
  env : Bool
  scheduler : Bool
  running : Bool
  sessions : StreamType → Option SessionId
  frameQueues : SharedMap StreamType (RtspFrameQueue RtspNalUnit)
  parameterSets : SharedMap StreamType ParameterSetCache
  streamCodecs : StreamType → Option CodecType
  config : RtspConfig
  table : List (String × SessionId)
  created : ℕ
  destroyed : List SessionId
  stopping : Bool
  subsessions : SessionId → Option SharedSubsession
  sources : SourceId → Option SharedSource
  nextSource : SourceId
  calls : List SharedCall

namespace SharedServer

/-- `RtspServer::RtspServer` -/
def new : SharedServer where
  rtspServer := false
  env := false
  scheduler := false
  running := false
  sessions _ := none
  frameQueues := .empty
  parameterSets := .empty
  streamCodecs _ := none
  config := ⟨8554, 5, true, 1⟩
  table := []
  created := 0
  destroyed := []
  stopping := false
  subsessions _ := none
  sources _ := none
  nextSource := 0
  calls := []

/-- `RtspServer::start` -/
def start (w : SharedServer) (port : UInt16) (outcome : StartOutcome) : SharedServer :=
  if w.running then w
  else
    let w := { w with config := { w.config with port := port } }
    match outcome with
    | .noScheduler => { w with scheduler := false }
    | .noEnvironment => { w with scheduler := false, env := false }
    | .noServer => { w with scheduler := false, env := false, rtspServer := false }
    | .started =>
      { w with scheduler := true, env := true, rtspServer := true, running := true, table := [] }

/-- `RtspServer::add_stream` once the session is there: it goes to live555 and into the maps, and
the subsession gets the same pointers as the maps. -/
def insertStream (w : SharedServer) (type : StreamType) (name : String) (codec : CodecType) :
    SharedServer :=
  let sms := w.created
  let queue := w.frameQueues.heap.length
  let cache := w.parameterSets.heap.length
  { w with
    created := w.created + 1
    subsessions := Function.update w.subsessions sms (some ⟨type, codec, queue, cache⟩)
    table := (w.table.filter fun e => e.1 ≠ name) ++ [(name, sms)]
    destroyed := w.destroyed ++ (w.table.filter fun e => e.1 = name).map Prod.snd
    sessions := Function.update w.sessions type (some sms)
    frameQueues := w.frameQueues.alloc type (.new w.config.frameQueueSize)
    parameterSets := w.parameterSets.alloc type .empty
    streamCodecs := Function.update w.streamCodecs type (some codec) }

/-- `RtspServer::add_stream` -/
def addStream (w : SharedServer) (type : StreamType) (name : String) (created : Bool) :
    SharedServer :=
  if w.rtspServer = false then w
  else if (w.sessions type).isSome then w
  else
    match RtspServer.streamCodec type with
    | none => w
    | some codec => if created = false then w else w.insertStream type name codec

/-- `RtspServer::remove_stream` -/
def removeStream (w : SharedServer) (type : StreamType) : SharedServer :=
  match w.sessions type with
  | none => w
  | some sms =>
    { w with
      destroyed := w.destroyed ++ [sms]
      sessions := Function.update w.sessions type none
      frameQueues := w.frameQueues.erase type
      parameterSets := w.parameterSets.erase type
      streamCodecs := Function.update w.streamCodecs type none }

/-- `RtspServer::stop` up to the loss of the four maps. -/
def stopStreams (w : SharedServer) : SharedServer :=
  if w.running = false then w
  else
    { w with
      running := false
      destroyed := w.destroyed ++ StreamType.all.filterMap w.sessions
      sessions := fun _ => none
      frameQueues := w.frameQueues.clear
      parameterSets := w.parameterSets.clear
      streamCodecs := fun _ => none
      stopping := true }

/-- The rest of `RtspServer::stop`. -/
def stopServer (w : SharedServer) : SharedServer :=
  let w :=
    if w.rtspServer then { w with table := [], destroyed := w.destroyed ++ w.table.map Prod.snd }
    else w
  { w with rtspServer := false, env := false, scheduler := false, stopping := false }

def call (w : SharedServer) : LiveServer.Call → Option SharedServer
  | .start port outcome => if w.stopping then none else some (w.start port outcome)
  | .addStream type name created =>
    if w.stopping then none else some (w.addStream type name created)
  | .removeStream type => if w.stopping then none else some (w.removeStream type)
  | .stop => if w.stopping then none else some w.stopStreams
  | .stopServer => if w.stopping then some w.stopServer else none

/-- `on_frame` up to the end of its loops. The pointers are copied, so they stay valid whatever
becomes of the maps. -/
def onFrame (w : SharedServer) (frame : StreamFrame) : SharedServer :=
  if w.running = false then w
  else
    match w.streamCodecs frame.type, w.frameQueues.find frame.type,
        w.parameterSets.find frame.type with
    | some codec, some (queue, _), some (paramCache, cache) =>
      let g := RtspServer.gather codec cache frame
      { w with
        parameterSets := w.parameterSets.modify paramCache fun _ => g.cache
        calls := w.calls ++ [⟨frame, queue, g.accessUnitNals, false⟩] }
    | _, _, _ => w

/-- The `i`-th call of `on_frame` goes on: `has_active_sources`, then `push_access_unit`. -/
def onFrameStep (w : SharedServer) (i : ℕ) : Option SharedServer :=
  (w.calls[i]?).bind fun call =>
    if call.active then
      some { w with
        frameQueues := w.frameQueues.modify call.frameQueue fun q =>
          q.pushAccessUnit call.accessUnitNals
        calls := w.calls.eraseIdx i }
    else
      (w.frameQueues.heap[call.frameQueue]?).map fun queue =>
        if queue.hasActiveSources && !call.accessUnitNals.isEmpty then
          { w with calls := w.calls.set i { call with active := true } }
        else { w with calls := w.calls.eraseIdx i }

/-- `createNewStreamSource` of a session that has not been destroyed, up to the constructor of the
source. -/
def createNewStreamSource (w : SharedServer) (sms : SessionId) : Option SharedServer :=
  if sms ∈ w.destroyed then none
  else
    (w.subsessions sms).map fun sub =>
      { w with
        sources := Function.update w.sources w.nextSource (some ⟨sub.streamType, sub.frameQueue⟩)
        nextSource := w.nextSource + 1
        frameQueues := w.frameQueues.modify sub.frameQueue fun q => q.registerSource w.nextSource }

/-- `RtspStreamSource::~RtspStreamSource` -/
def destroySource (w : SharedServer) (s : SourceId) : Option SharedServer :=
  (w.sources s).map fun src =>
    { w with
      sources := Function.update w.sources s none
      frameQueues := w.frameQueues.modify src.frameQueue fun q => q.unregisterSource s }

/-- The pop of `deliver_frame`. -/
def popNalUnit (w : SharedServer) (s : SourceId) : Option SharedServer :=
  (w.sources s).map fun src =>
    { w with frameQueues := w.frameQueues.modify src.frameQueue fun q => q.popNalUnit.2 }

/-- What the owner, the workers and the event thread do. -/
inductive Action
  | call (c : LiveServer.Call)
  | onFrame (frame : StreamFrame)
  | onFrameStep (i : ℕ)
  | createNewStreamSource (sms : SessionId)
  | destroySource (s : SourceId)
  | popNalUnit (s : SourceId)

def step (w : SharedServer) : Action → Option SharedServer
  | .call c => w.call c
  | .onFrame frame => some (w.onFrame frame)
  | .onFrameStep i => w.onFrameStep i
  | .createNewStreamSource sms => w.createNewStreamSource sms
  | .destroySource s => w.destroySource s
  | .popNalUnit s => w.popNalUnit s

/-- The server with its pointers. -/
def machine : Machine SharedServer Action where
  init w := w = new
  step := step

/-! ## What is seen by value -/

/-- The server without the pointers. -/
def value (w : SharedServer) : LiveServer where
  server :=
    { rtspServer := w.rtspServer
      env := w.env
      scheduler := w.scheduler
      running := w.running
      sessions := w.sessions
      frameQueues := w.frameQueues.value
      parameterSets := w.parameterSets.value
      streamCodecs := w.streamCodecs
      config := w.config }
  table := w.table
  created := w.created
  destroyed := w.destroyed
  stopping := w.stopping

/-- The queue is the one that the map has for the stream. -/
def Current (w : SharedServer) (t : StreamType) (queue : ℕ) : Prop :=
  w.frameQueues.ptr t = some queue

instance (w : SharedServer) (t : StreamType) (queue : ℕ) : Decidable (w.Current t queue) :=
  inferInstanceAs (Decidable (_ = _))

/-- What happens to the maps in a step. A call or a source takes part as long as its queue is the
current one. -/
def mapEvents (w : SharedServer) : Action → List LiveServer.MapEvent
  | .call c => [.call c]
  | .onFrame frame => if w.running then [.cache frame] else []
  | .onFrameStep i =>
    match w.calls[i]? with
    | none => []
    | some call =>
      if call.active ∧ w.Current call.frame.type call.frameQueue then [.push call.frame] else []
  | .createNewStreamSource sms =>
    match w.subsessions sms with
    | none => []
    | some sub => [.registerSource sub.streamType w.nextSource]
  | .destroySource s =>
    match w.sources s with
    | none => []
    | some src =>
      if w.Current src.streamType src.frameQueue then [.unregisterSource src.streamType s] else []
  | .popNalUnit s =>
    match w.sources s with
    | none => []
    | some src =>
      if w.Current src.streamType src.frameQueue then [.popNalUnit src.streamType] else []

variable {w w' : SharedServer} {t : StreamType} {a : Action}

theorem value_start (port : UInt16) (outcome : StartOutcome) :
    (w.start port outcome).value = w.value.start port outcome := by
  unfold start LiveServer.start RtspServer.start
  cases hr : w.running with
  | true =>
    have hrunning : w.value.server.running = true := hr
    rw [hrunning, if_pos rfl, if_pos rfl, if_neg fun h => nomatch h.1]
  | false =>
    have hrunning : w.value.server.running = false := hr
    rw [hrunning, if_neg Bool.false_ne_true, if_neg Bool.false_ne_true]
    cases outcome <;> simp [value]

theorem value_addStream (type : StreamType) (name : String) (created : Bool) :
    (w.addStream type name created).value = (w.value.addStream type name created).2 := by
  unfold addStream LiveServer.addStream
  by_cases hnull : w.rtspServer = false
  · rw [if_pos hnull, if_pos (show w.value.server.rtspServer = false from hnull)]
  rw [if_neg hnull, if_neg (show ¬ w.value.server.rtspServer = false from hnull)]
  by_cases hreg : (w.sessions type).isSome = true
  · rw [if_pos hreg, if_pos (show (w.value.server.sessions type).isSome = true from hreg)]
  rw [if_neg hreg, if_neg (show ¬ (w.value.server.sessions type).isSome = true from hreg)]
  cases RtspServer.streamCodec type with
  | none => rfl
  | some codec =>
    dsimp only
    split_ifs
    · rfl
    · unfold value insertStream LiveServer.addServerMediaSession
        LiveServer.removeServerMediaSession RtspServer.insertStream
      dsimp only
      rw [SharedMap.value_alloc, SharedMap.value_alloc]

theorem value_removeStream (type : StreamType) :
    (w.removeStream type).value = w.value.removeStream type := by
  unfold removeStream LiveServer.removeStream
  show _ = match w.sessions type with | none => w.value | some sms => _
  cases w.sessions type with
  | none => rfl
  | some sms =>
    unfold value LiveServer.closeSession RtspServer.eraseStream
    dsimp only
    rw [SharedMap.value_erase, SharedMap.value_erase]

theorem value_stopStreams : w.stopStreams.value = w.value.stopStreams := by
  unfold stopStreams
  cases hr : w.running with
  | false =>
    have hrunning : w.value.server.running = false := hr
    unfold LiveServer.stopStreams
    rw [if_pos rfl, if_pos hrunning]
  | true =>
    rw [if_neg Bool.noConfusion, LiveServer.stopStreams_of_running (w := w.value) hr]
    rfl

theorem value_stopServer : w.stopServer.value = w.value.stopServer := by
  unfold stopServer LiveServer.stopServer
  cases hserver : w.rtspServer with
  | false =>
    have hvalue : ¬ w.value.server.rtspServer = true := by
      rw [value, hserver]
      exact Bool.noConfusion
    rw [if_neg Bool.noConfusion, if_neg hvalue]
    rfl
  | true =>
    rw [if_pos rfl, if_pos (show w.value.server.rtspServer = true from hserver)]
    rfl

theorem value_call {c : LiveServer.Call} (h : w.call c = some w') :
    w.value.step c = some w'.value := by
  have hstopping : w.value.stopping = w.stopping := rfl
  unfold call at h
  unfold LiveServer.step
  rw [hstopping]
  cases c with
  | start port outcome =>
    dsimp only at h ⊢
    split_ifs at h ⊢
    cases h
    rw [value_start]
  | addStream type name created =>
    dsimp only at h ⊢
    split_ifs at h ⊢
    cases h
    rw [value_addStream]
  | removeStream type =>
    dsimp only at h ⊢
    split_ifs at h ⊢
    cases h
    rw [value_removeStream]
  | stop =>
    dsimp only at h ⊢
    split_ifs at h ⊢
    cases h
    rw [value_stopStreams]
  | stopServer =>
    dsimp only at h ⊢
    split_ifs at h ⊢
    cases h
    rw [value_stopServer]

/-! ## The invariant -/

/-- The maps have the pointers of that subsession, under its type. -/
structure Registered (w : SharedServer) (t : StreamType) (sub : SharedSubsession) : Prop where
  streamType_eq : sub.streamType = t
  codec : w.streamCodecs t = some sub.codecType
  queue : w.frameQueues.ptr t = some sub.frameQueue
  cache : w.parameterSets.ptr t = some sub.paramCache

/-- The stream is in none of the maps. -/
structure Unregistered (w : SharedServer) (t : StreamType) : Prop where
  codec : w.streamCodecs t = none
  queue : w.frameQueues.ptr t = none
  cache : w.parameterSets.ptr t = none

/-- A call holds a queue that was made for its stream, and what it has gathered are the NAL units
of its frame. -/
structure CallFits (w : SharedServer) (call : SharedCall) : Prop where
  held : w.frameQueues.Held call.frame.type call.frameQueue
  nals : ∃ codec, RtspServer.streamCodec call.frame.type = some codec ∧
    call.accessUnitNals = (RtspServer.frameNals codec call.frame).map
      (RtspServer.nalUnit call.frame.timestamp)

/-- The four maps have the same keys, a session that has not been destroyed is registered, and what
is held was made for the stream of its holder. -/
structure Inv (w : SharedServer) : Prop where
  registered : ∀ t sms, w.sessions t = some sms →
    ∃ sub, w.subsessions sms = some sub ∧ w.Registered t sub
  unregistered : ∀ t, w.sessions t = none → w.Unregistered t
  codec : ∀ t codec, w.streamCodecs t = some codec → RtspServer.streamCodec t = some codec
  alive : ∀ sms sub, w.subsessions sms = some sub → sms ∉ w.destroyed →
    w.sessions sub.streamType = some sms
  fresh : ∀ sms, w.created ≤ sms → w.subsessions sms = none
  sources : ∀ s src, w.sources s = some src → w.frameQueues.Held src.streamType src.frameQueue
  calls : ∀ call ∈ w.calls, w.CallFits call

theorem inv_new : new.Inv where
  registered _ _ h := nomatch h
  unregistered _ _ := ⟨rfl, rfl, rfl⟩
  codec _ _ h := nomatch h
  alive _ _ h := nomatch h
  fresh _ _ := rfl
  sources _ _ h := nomatch h
  calls _ h := absurd h List.not_mem_nil

theorem CallFits.mono {call : SharedCall} (h : w.CallFits call)
    (hm : w.frameQueues.Extends w'.frameQueues) : w'.CallFits call :=
  ⟨h.held.mono hm, h.nals⟩

theorem Inv.keep (hi : w.Inv) (hsessions : w'.sessions = w.sessions)
    (hqueues : w'.frameQueues.ptr = w.frameQueues.ptr)
    (hcaches : w'.parameterSets.ptr = w.parameterSets.ptr)
    (hcodecs : w'.streamCodecs = w.streamCodecs) (hsubsessions : w'.subsessions = w.subsessions)
    (hcreated : w'.created = w.created) (hdestroyed : w.destroyed ⊆ w'.destroyed)
    (hsources : ∀ s src, w'.sources s = some src →
      w'.frameQueues.Held src.streamType src.frameQueue)
    (hcalls : ∀ call ∈ w'.calls, w'.CallFits call) : w'.Inv where
  registered t sms h := by
    rw [hsessions] at h
    rw [hsubsessions]
    obtain ⟨sub, hsub, hr⟩ := hi.registered t sms h
    exact ⟨sub, hsub, hr.streamType_eq, hcodecs ▸ hr.codec, hqueues ▸ hr.queue, hcaches ▸ hr.cache⟩
  unregistered t h := by
    rw [hsessions] at h
    have hu := hi.unregistered t h
    exact ⟨hcodecs ▸ hu.codec, hqueues ▸ hu.queue, hcaches ▸ hu.cache⟩
  codec t codec h := hi.codec t codec (hcodecs ▸ h)
  alive sms sub h hd := by
    rw [hsubsessions] at h
    rw [hsessions]
    exact hi.alive sms sub h fun hold => hd (hdestroyed hold)
  fresh sms h := by
    rw [hcreated] at h
    rw [hsubsessions]
    exact hi.fresh sms h
  sources := hsources
  calls := hcalls

theorem Inv.start (hi : w.Inv) (port : UInt16) (outcome : StartOutcome) :
    (w.start port outcome).Inv := by
  unfold SharedServer.start
  split_ifs
  · exact hi
  · cases outcome <;>
      exact hi.keep rfl rfl rfl rfl rfl rfl (List.Subset.refl _) hi.sources
        fun call h => ⟨(hi.calls call h).held, (hi.calls call h).nals⟩

theorem Inv.stopServer (hi : w.Inv) : w.stopServer.Inv := by
  unfold SharedServer.stopServer
  dsimp only
  split_ifs
  · exact hi.keep rfl rfl rfl rfl rfl rfl (List.subset_append_left _ _) hi.sources
      fun call h => ⟨(hi.calls call h).held, (hi.calls call h).nals⟩
  · exact hi.keep rfl rfl rfl rfl rfl rfl (List.Subset.refl _) hi.sources
      fun call h => ⟨(hi.calls call h).held, (hi.calls call h).nals⟩

theorem Inv.insertStream (hi : w.Inv) {type : StreamType} {codec : CodecType}
    (hnew : w.sessions type = none) (hcodec : RtspServer.streamCodec type = some codec)
    (name : String) : (w.insertStream type name codec).Inv := by
  unfold SharedServer.insertStream
  refine ⟨?_, ?_, ?_, ?_, ?_, ?_, ?_⟩
  · intro t sms h
    dsimp only at h ⊢
    rw [Function.update_apply] at h
    split_ifs at h with ht
    · cases h
      subst ht
      exact ⟨_, Function.update_self .., rfl, Function.update_self .., Function.update_self ..,
        Function.update_self ..⟩
    · obtain ⟨sub, hsub, hr⟩ := hi.registered t sms h
      have hne : sms ≠ w.created := by
        rintro rfl
        rw [hi.fresh _ (Nat.le_refl _)] at hsub
        cases hsub
      exact ⟨sub, (Function.update_of_ne hne ..).trans hsub, hr.streamType_eq,
        (Function.update_of_ne ht ..).trans hr.codec, (Function.update_of_ne ht ..).trans hr.queue,
        (Function.update_of_ne ht ..).trans hr.cache⟩
  · intro t h
    dsimp only at h
    rw [Function.update_apply] at h
    split_ifs at h with ht
    have hu := hi.unregistered t h
    exact ⟨(Function.update_of_ne ht ..).trans hu.codec,
      (Function.update_of_ne ht ..).trans hu.queue, (Function.update_of_ne ht ..).trans hu.cache⟩
  · intro t codec' h
    dsimp only at h
    rw [Function.update_apply] at h
    split_ifs at h with ht
    · cases h
      rw [ht, hcodec]
    · exact hi.codec t codec' h
  · intro sms sub h hd
    dsimp only at h hd ⊢
    rw [Function.update_apply] at h
    split_ifs at h with hsms
    · cases h
      rw [hsms]
      exact Function.update_self ..
    · have hold := hi.alive sms sub h fun hmem => hd (List.mem_append_left _ hmem)
      have hne : sub.streamType ≠ type := by
        intro he
        rw [he, hnew] at hold
        cases hold
      exact (Function.update_of_ne hne ..).trans hold
  · intro sms h
    have hlt : w.created < sms := h
    dsimp only
    rw [Function.update_of_ne (Nat.ne_of_gt hlt)]
    exact hi.fresh sms (Nat.le_of_lt hlt)
  · intro s src h
    exact (hi.sources s src h).mono SharedMap.extends_alloc
  · intro call h
    exact (hi.calls call h).mono SharedMap.extends_alloc

theorem addStream_cases (w : SharedServer) (type : StreamType) (name : String) (created : Bool) :
    w.addStream type name created = w ∨
      ∃ codec, w.sessions type = none ∧ RtspServer.streamCodec type = some codec ∧
        w.addStream type name created = w.insertStream type name codec := by
  unfold addStream
  by_cases hnull : w.rtspServer = false
  · exact .inl (if_pos hnull)
  rw [if_neg hnull]
  cases hreg : w.sessions type with
  | some sms => exact .inl (if_pos rfl)
  | none =>
    rw [if_neg (by simp)]
    cases RtspServer.streamCodec type with
    | none => exact .inl rfl
    | some codec =>
      dsimp only
      split_ifs
      · exact .inl rfl
      · exact .inr ⟨codec, rfl, rfl, rfl⟩

theorem Inv.addStream (hi : w.Inv) (type : StreamType) (name : String) (created : Bool) :
    (w.addStream type name created).Inv := by
  rcases addStream_cases w type name created with h | ⟨codec, hnew, hcodec, h⟩ <;> rw [h]
  · exact hi
  · exact hi.insertStream hnew hcodec name

theorem Inv.removeStream (hi : w.Inv) (type : StreamType) : (w.removeStream type).Inv := by
  unfold SharedServer.removeStream
  cases hsession : w.sessions type with
  | none => exact hi
  | some old =>
    refine ⟨?_, ?_, ?_, ?_, hi.fresh, ?_, ?_⟩
    · intro t sms h
      dsimp only at h ⊢
      rw [Function.update_apply] at h
      split_ifs at h with ht
      obtain ⟨sub, hsub, hr⟩ := hi.registered t sms h
      exact ⟨sub, hsub, hr.streamType_eq, (Function.update_of_ne ht ..).trans hr.codec,
        (Function.update_of_ne ht ..).trans hr.queue, (Function.update_of_ne ht ..).trans hr.cache⟩
    · intro t h
      dsimp only at h
      by_cases ht : t = type
      · subst ht
        exact ⟨Function.update_self .., Function.update_self .., Function.update_self ..⟩
      · rw [Function.update_of_ne ht] at h
        have hu := hi.unregistered t h
        exact ⟨(Function.update_of_ne ht ..).trans hu.codec,
          (Function.update_of_ne ht ..).trans hu.queue,
          (Function.update_of_ne ht ..).trans hu.cache⟩
    · intro t codec h
      dsimp only at h
      rw [Function.update_apply] at h
      split_ifs at h
      exact hi.codec t codec h
    · intro sms sub h hd
      dsimp only at h hd ⊢
      have hold := hi.alive sms sub h fun hmem => hd (List.mem_append_left _ hmem)
      have hne : sub.streamType ≠ type := by
        intro he
        rw [he, hsession] at hold
        cases hold
        exact hd (List.mem_append_right _ (List.mem_singleton.mpr rfl))
      exact (Function.update_of_ne hne ..).trans hold
    · intro s src h
      exact (hi.sources s src h).mono SharedMap.extends_erase
    · intro call h
      exact (hi.calls call h).mono SharedMap.extends_erase

theorem Inv.stopStreams (hi : w.Inv) : w.stopStreams.Inv := by
  unfold SharedServer.stopStreams
  split_ifs
  · exact hi
  · refine ⟨fun _ _ h => (nomatch h), fun _ _ => ⟨rfl, rfl, rfl⟩, fun _ _ h => (nomatch h), ?_,
      hi.fresh, ?_, ?_⟩
    · intro sms sub h hd
      have hold := hi.alive sms sub h fun hmem => hd (List.mem_append_left _ hmem)
      refine absurd (List.mem_append_right _ ?_) hd
      exact List.mem_filterMap.mpr ⟨sub.streamType, StreamType.mem_all _, hold⟩
    · intro s src h
      exact (hi.sources s src h).mono SharedMap.extends_clear
    · intro call h
      exact (hi.calls call h).mono SharedMap.extends_clear

theorem Inv.call (hi : w.Inv) {c : LiveServer.Call} (h : w.call c = some w') : w'.Inv := by
  unfold SharedServer.call at h
  cases c with
  | start port outcome =>
    dsimp only at h
    split_ifs at h
    cases h
    exact hi.start port outcome
  | addStream type name created =>
    dsimp only at h
    split_ifs at h
    cases h
    exact hi.addStream type name created
  | removeStream type =>
    dsimp only at h
    split_ifs at h
    cases h
    exact hi.removeStream type
  | stop =>
    dsimp only at h
    split_ifs at h
    cases h
    exact hi.stopStreams
  | stopServer =>
    dsimp only at h
    split_ifs at h
    cases h
    exact hi.stopServer

/-! ## The steps of the workers and the event thread -/

variable {queue i : ℕ} {f : RtspFrameQueue RtspNalUnit → RtspFrameQueue RtspNalUnit} {s : SourceId}
  {sms : SessionId} {frame : StreamFrame} {call : SharedCall}

theorem Inv.exists_registered (hi : w.Inv)
    (h : ¬ w.Unregistered t) : ∃ sub, w.Registered t sub := by
  cases hsession : w.sessions t with
  | none => exact absurd (hi.unregistered t hsession) h
  | some sms =>
    obtain ⟨sub, -, hr⟩ := hi.registered t sms hsession
    exact ⟨sub, hr⟩

theorem value_of_current (h : w' = { w with
    frameQueues := w.frameQueues.modify queue f
    sources := w'.sources, nextSource := w'.nextSource, calls := w'.calls })
    (hcurrent : w.Current t queue) : w'.value = w.value.mapQueue t f := by
  rw [h]
  unfold value LiveServer.mapQueue
  dsimp only
  rw [SharedMap.value_modify_of_ptr hcurrent]

theorem value_of_not_current (h : w' = { w with
    frameQueues := w.frameQueues.modify queue f
    sources := w'.sources, nextSource := w'.nextSource, calls := w'.calls })
    (hheld : w.frameQueues.Held t queue) (hnot : ¬ w.Current t queue) : w'.value = w.value := by
  rw [h]
  unfold value
  dsimp only
  rw [SharedMap.value_modify_of_cut (hheld.cut hnot)]

theorem Inv.modify (hi : w.Inv) (h : w' = { w with
    frameQueues := w.frameQueues.modify queue f
    sources := w'.sources, nextSource := w'.nextSource, calls := w'.calls })
    (hsources : ∀ s src, w'.sources s = some src →
      w.frameQueues.Held src.streamType src.frameQueue)
    (hcalls : ∀ call ∈ w'.calls, w.CallFits call) : w'.Inv := by
  have hextends : w.frameQueues.Extends w'.frameQueues := by
    rw [h]
    exact SharedMap.extends_modify
  have hkeep : w'.sessions = w.sessions ∧ w'.frameQueues.ptr = w.frameQueues.ptr ∧
      w'.parameterSets = w.parameterSets ∧ w'.streamCodecs = w.streamCodecs ∧
      w'.subsessions = w.subsessions ∧ w'.created = w.created ∧ w'.destroyed = w.destroyed := by
    rw [h]
    exact ⟨rfl, rfl, rfl, rfl, rfl, rfl, rfl⟩
  obtain ⟨h1, h2, h3, h4, h5, h6, h7⟩ := hkeep
  exact hi.keep h1 h2 (congrArg SharedMap.ptr h3) h4 h5 h6 (h7 ▸ List.Subset.refl _)
    (fun s src hs => (hsources s src hs).mono hextends)
    fun call hc => (hcalls call hc).mono hextends

/-- The invariant holds afterwards, and by value these events have happened. -/
def Simulates (w : SharedServer) (es : List LiveServer.MapEvent) (w' : SharedServer) : Prop :=
  w'.Inv ∧ LiveServer.mapMachine.run w.value es = some w'.value

theorem simulates_nil (hi : w'.Inv) (h : w'.value = w.value) : w.Simulates [] w' :=
  ⟨hi, congrArg some h.symm⟩

theorem simulates_singleton {e : LiveServer.MapEvent} (hi : w'.Inv)
    (h : w.value.mapStep e = some w'.value) : w.Simulates [e] w' := by
  refine ⟨hi, ?_⟩
  rw [Machine.run_cons]
  exact (congrArg (fun o => o.bind fun v => LiveServer.mapMachine.run v []) h).trans rfl

theorem Inv.simulates_onFrame (hi : w.Inv) (hr : w.running = true) (frame : StreamFrame) :
    w.Simulates [.cache frame] (w.onFrame frame) := by
  unfold onFrame
  rw [if_neg (by rw [hr]; exact Bool.noConfusion)]
  cases hcodec : w.streamCodecs frame.type with
  | none =>
    have hcache : w.value.cacheFrame frame = w.value := by
      unfold LiveServer.cacheFrame
      rw [show w.value.server.streamCodecs frame.type = none from hcodec]
    exact simulates_singleton hi (congrArg some hcache)
  | some codec =>
    obtain ⟨sub, hsub⟩ := hi.exists_registered (t := frame.type) fun hu => by
      rw [hu.codec] at hcodec
      cases hcodec
    obtain ⟨q, hq, -⟩ := SharedMap.find_of_ptr hsub.queue
    obtain ⟨cache, hfind, hcache⟩ := SharedMap.find_of_ptr hsub.cache
    rw [hq, hfind]
    dsimp only
    rw [RtspServer.gather_eq]
    refine simulates_singleton ?_ ?_
    · refine hi.keep rfl rfl rfl rfl rfl rfl (List.Subset.refl _) hi.sources fun call hc => ?_
      rcases List.mem_append.mp hc with hc | hc
      · exact ⟨(hi.calls call hc).held, (hi.calls call hc).nals⟩
      · rw [List.mem_singleton] at hc
        rw [hc]
        exact ⟨SharedMap.held_of_ptr hsub.queue, codec, hi.codec _ _ hcodec, rfl⟩
    · refine congrArg some ?_
      unfold LiveServer.cacheFrame
      rw [show w.value.server.streamCodecs frame.type = some codec from hcodec]
      unfold value RtspServer.gathered
      dsimp only
      rw [SharedMap.value_modify_of_ptr hsub.cache, hcache]
      rfl

/-- A call whose queue is the current one has gathered what the stream has in the frame. -/
theorem Inv.nals_eq (hi : w.Inv) (hcall : w.CallFits call)
    (hcurrent : w.Current call.frame.type call.frameQueue) :
    call.accessUnitNals = w.value.unitsOf call.frame := by
  obtain ⟨sub, hsub⟩ := hi.exists_registered (t := call.frame.type) fun hu => by
    have hnone := hu.queue
    rw [show w.frameQueues.ptr call.frame.type = _ from hcurrent] at hnone
    cases hnone
  obtain ⟨codec, hcodec, hnals⟩ := hcall.nals
  have hsame : sub.codecType = codec := by
    have := hi.codec _ _ hsub.codec
    rw [hcodec] at this
    exact (Option.some.inj this).symm
  unfold LiveServer.unitsOf
  rw [show w.value.server.streamCodecs call.frame.type = some sub.codecType from hsub.codec, hsame]
  exact hnals

theorem Inv.simulates_onFrameStep (hi : w.Inv) (hcall : w.calls[i]? = some call)
    (h : w.onFrameStep i = some w') :
    w.Simulates (if call.active ∧ w.Current call.frame.type call.frameQueue then [.push call.frame]
      else []) w' := by
  have hfits := hi.calls call (List.mem_of_getElem? hcall)
  have herase : ∀ c ∈ w.calls.eraseIdx i, w.CallFits c := fun c hc =>
    hi.calls c (List.mem_of_mem_eraseIdx hc)
  unfold onFrameStep at h
  rw [hcall, Option.bind_some] at h
  cases hactive : call.active with
  | true =>
    rw [hactive, if_pos rfl] at h
    cases h
    have hinv : Inv { w with
        frameQueues := w.frameQueues.modify call.frameQueue fun q =>
          q.pushAccessUnit call.accessUnitNals
        calls := w.calls.eraseIdx i } := hi.modify rfl hi.sources herase
    split_ifs with hcurrent
    · refine simulates_singleton hinv (congrArg some ?_)
      rw [← hi.nals_eq hfits hcurrent.2]
      exact (value_of_current rfl hcurrent.2).symm
    · exact simulates_nil hinv (value_of_not_current rfl hfits.held fun hc => hcurrent ⟨rfl, hc⟩)
  | false =>
    rw [hactive, if_neg Bool.false_ne_true] at h
    rw [if_neg fun hc => nomatch hc.1]
    obtain ⟨q, -, rfl⟩ := Option.map_eq_some_iff.mp h
    split_ifs
    · refine simulates_nil (hi.keep rfl rfl rfl rfl rfl rfl (List.Subset.refl _) hi.sources ?_) rfl
      intro c hc
      rcases List.mem_or_eq_of_mem_set hc with hc | rfl
      · exact ⟨(hi.calls c hc).held, (hi.calls c hc).nals⟩
      · exact ⟨hfits.held, hfits.nals⟩
    · exact simulates_nil (hi.keep rfl rfl rfl rfl rfl rfl (List.Subset.refl _) hi.sources
        fun c hc => ⟨(herase c hc).held, (herase c hc).nals⟩) rfl

theorem Inv.registered_of_alive (hi : w.Inv) {sub : SharedSubsession}
    (hsub : w.subsessions sms = some sub) (hd : sms ∉ w.destroyed) :
    w.Registered sub.streamType sub := by
  obtain ⟨sub', hsub', hr⟩ := hi.registered _ _ (hi.alive sms sub hsub hd)
  obtain rfl : sub = sub' := Option.some.inj (hsub.symm.trans hsub')
  exact hr

theorem Inv.simulates_createNewStreamSource (hi : w.Inv) {sub : SharedSubsession}
    (hsub : w.subsessions sms = some sub) (h : w.createNewStreamSource sms = some w') :
    w.Simulates [.registerSource sub.streamType w.nextSource] w' := by
  unfold createNewStreamSource at h
  split_ifs at h with hd
  rw [hsub] at h
  cases h
  have hr := hi.registered_of_alive hsub hd
  refine simulates_singleton (hi.modify rfl ?_ hi.calls) (congrArg some ?_)
  · intro s src h
    dsimp only at h
    rw [Function.update_apply] at h
    split_ifs at h
    · cases h
      exact SharedMap.held_of_ptr hr.queue
    · exact hi.sources s src h
  · exact (value_of_current rfl hr.queue).symm

/-- A source changes its queue; the map sees it as long as it is the current one. -/
theorem Inv.simulates_source (hi : w.Inv) {src : SharedSource} (hsrc : w.sources s = some src)
    {e : LiveServer.MapEvent} (h : w' = { w with
      frameQueues := w.frameQueues.modify src.frameQueue f
      sources := w'.sources, nextSource := w'.nextSource, calls := w'.calls })
    (hsources : ∀ s src, w'.sources s = some src → w.sources s = some src)
    (hcalls : w'.calls = w.calls)
    (he : w.value.mapStep e = some (w.value.mapQueue src.streamType f)) :
    w.Simulates (if w.Current src.streamType src.frameQueue then [e] else []) w' := by
  have hinv : w'.Inv := hi.modify h (fun s src hs => hi.sources s src (hsources s src hs))
    (hcalls ▸ hi.calls)
  split_ifs with hcurrent
  · refine simulates_singleton hinv ?_
    rw [he, value_of_current h hcurrent]
  · exact simulates_nil hinv (value_of_not_current h (hi.sources s src hsrc) hcurrent)

/-- Every step is by value what `mapEvents` says. -/
theorem Inv.simulates (hi : w.Inv) (h : w.step a = some w') :
    w.Simulates (w.mapEvents a) w' := by
  cases a with
  | call c => exact simulates_singleton (hi.call h) (value_call h)
  | onFrame frame =>
    cases h
    unfold mapEvents
    dsimp only
    split_ifs with hr
    · exact hi.simulates_onFrame hr frame
    · unfold onFrame
      rw [if_pos (by simpa using hr)]
      exact simulates_nil hi rfl
  | onFrameStep i =>
    have h : w.onFrameStep i = some w' := h
    unfold mapEvents
    dsimp only
    cases hcall : w.calls[i]? with
    | none =>
      unfold onFrameStep at h
      rw [hcall] at h
      cases h
    | some call => exact hi.simulates_onFrameStep hcall h
  | createNewStreamSource sms =>
    have h : w.createNewStreamSource sms = some w' := h
    unfold mapEvents
    dsimp only
    cases hsub : w.subsessions sms with
    | none =>
      unfold createNewStreamSource at h
      rw [hsub, Option.map_none, ite_self] at h
      cases h
    | some sub => exact hi.simulates_createNewStreamSource hsub h
  | destroySource s =>
    obtain ⟨src, hsrc, rfl⟩ := Option.map_eq_some_iff.mp h
    unfold mapEvents
    dsimp only
    rw [hsrc]
    refine hi.simulates_source hsrc rfl ?_ rfl rfl
    intro r x hr
    dsimp only at hr
    rw [Function.update_apply] at hr
    split_ifs at hr
    exact hr
  | popNalUnit s =>
    obtain ⟨src, hsrc, rfl⟩ := Option.map_eq_some_iff.mp h
    unfold mapEvents
    dsimp only
    rw [hsrc]
    exact hi.simulates_source hsrc rfl (fun _ _ => id) rfl rfl

/-- **Maps of pointers are maps of values.** In every run of the owner's calls, of any number of
calls of `on_frame` and of sources, those of streams that have been removed included: by value, the
server goes through the events of `mapEvents`, where a call or a source whose queue has been dropped
takes no part. A stream is in all four maps or in none, and the subsession of its session has the
pointers of the maps. -/
theorem shared_run {as : List Action} (h : machine.run new as = some w) :
    LiveServer.mapMachine.run .new (machine.collect mapEvents new as) = some w.value ∧
      (∀ t sms, w.sessions t = some sms →
        ∃ sub, w.subsessions sms = some sub ∧ w.Registered t sub) ∧
      ∀ t, w.sessions t = none → w.Unregistered t := by
  have hrun : w.Inv ∧
      LiveServer.mapMachine.run .new (machine.collect mapEvents new as) = some w.value := by
    show w.Inv ∧ LiveServer.mapMachine.run .new ([] ++ machine.collect mapEvents new as) =
      some w.value
    have hnew : new.Inv ∧ LiveServer.mapMachine.run .new [] = some new.value := ⟨inv_new, rfl⟩
    refine Machine.keep_collect
      (J := fun es w => w.Inv ∧ LiveServer.mapMachine.run .new es = some w.value)
      (C := fun _ => True) hnew ?_ (fun _ _ => trivial) h
    intro es w a w' hw _ hs
    obtain ⟨hi, hes⟩ := hw.1.simulates hs
    refine ⟨hi, ?_⟩
    rw [Machine.run_append, hw.2]
    exact hes
  exact ⟨hrun.2, hrun.1.registered, hrun.1.unregistered⟩

/-- A stream with a source is removed while a worker is between its lookups and its push. -/
def removed : List Action :=
  [.call (.start 8554 .started), .call (.addStream .videoMain "main" true),
    .createNewStreamSource 0, .onFrame (RtspServer.onePack .videoMain .h265 40 0x26 0x01),
    .onFrameStep 0, .call (.removeStream .videoMain)]

/-- The worker pushes, the stream is added again, a frame comes for it, and the old source pops. -/
def addedAgain : List Action :=
  [.onFrameStep 0, .call (.addStream .videoMain "again" true), .createNewStreamSource 1,
    .onFrame (RtspServer.onePack .videoMain .h265 80 0x26 0x01), .onFrameStep 0, .onFrameStep 0,
    .popNalUnit 0]

/-- By value, neither the first push nor the pop has happened. -/
theorem shared_run_addedAgain :
    ∃ w, machine.run new (removed ++ addedAgain) = some w ∧
      LiveServer.mapMachine.run .new (machine.collect mapEvents new (removed ++ addedAgain)) =
        some w.value ∧
      (machine.collect mapEvents new (removed ++ addedAgain)).length = 9 := by
  obtain ⟨w, hw⟩ : ∃ w, machine.run new (removed ++ addedAgain) = some w :=
    Option.isSome_iff_exists.mp (by decide +kernel)
  exact ⟨w, hw, (shared_run hw).1, by decide +kernel⟩

/-! ## What becomes of a queue that has been dropped -/

/-- What may still come out of a queue: what it holds, and what the calls that hold it have
gathered. -/
def Leftover (w : SharedServer) (queue : ℕ) (nal : RtspNalUnit) : Prop :=
  (∃ q, w.frameQueues.heap[queue]? = some q ∧ nal ∈ q.nals) ∨
    ∃ call ∈ w.calls, call.frameQueue = queue ∧ nal ∈ call.accessUnitNals

/-- Since `w`, the queue has got no entry, no new holder and nothing that it could not have got
then. -/
structure CutSince (w : SharedServer) (queue : ℕ) (w' : SharedServer) : Prop where
  inv : w'.Inv
  cut : w'.frameQueues.Cut queue
  sources : ∀ s src, w'.sources s = some src → src.frameQueue = queue → w.sources s = some src
  leftover : ∀ nal, w'.Leftover queue nal → w.Leftover queue nal

theorem call_frame {c : LiveServer.Call} (h : w.call c = some w') :
    w'.sources = w.sources ∧ w'.calls = w.calls ∧ w.frameQueues.Extends w'.frameQueues ∧
      w.frameQueues.heap <+: w'.frameQueues.heap := by
  unfold call at h
  cases c with
  | start port outcome =>
    dsimp only at h
    split_ifs at h
    cases h
    unfold start
    split_ifs
    · exact ⟨rfl, rfl, .refl _, List.prefix_rfl⟩
    · cases outcome <;> exact ⟨rfl, rfl, .refl _, List.prefix_rfl⟩
  | addStream type name created =>
    dsimp only at h
    split_ifs at h
    cases h
    rcases addStream_cases w type name created with h | ⟨codec, -, -, h⟩ <;> rw [h]
    · exact ⟨rfl, rfl, .refl _, List.prefix_rfl⟩
    · exact ⟨rfl, rfl, SharedMap.extends_alloc, List.prefix_append _ _⟩
  | removeStream type =>
    dsimp only at h
    split_ifs at h
    cases h
    unfold removeStream
    cases w.sessions type with
    | none => exact ⟨rfl, rfl, .refl _, List.prefix_rfl⟩
    | some sms => exact ⟨rfl, rfl, SharedMap.extends_erase, List.prefix_rfl⟩
  | stop =>
    dsimp only at h
    split_ifs at h
    cases h
    unfold stopStreams
    split_ifs
    · exact ⟨rfl, rfl, .refl _, List.prefix_rfl⟩
    · exact ⟨rfl, rfl, SharedMap.extends_clear, List.prefix_rfl⟩
  | stopServer =>
    dsimp only at h
    split_ifs at h
    cases h
    unfold stopServer
    split_ifs <;> exact ⟨rfl, rfl, .refl _, List.prefix_rfl⟩

/-- What is left over before a step, if the step adds nothing to the queue and to the calls. -/
theorem leftover_of_step {nal : RtspNalUnit}
    (hqueue : ∀ q, w'.frameQueues.heap[queue]? = some q → ∀ nal ∈ q.nals, w.Leftover queue nal)
    (hcalls : ∀ c ∈ w'.calls, c.frameQueue = queue →
      ∃ c₀ ∈ w.calls, c₀.frameQueue = queue ∧ c₀.accessUnitNals = c.accessUnitNals)
    (h : w'.Leftover queue nal) : w.Leftover queue nal := by
  rcases h with ⟨q, hq, hnal⟩ | ⟨c, hc, hheld, hnal⟩
  · exact hqueue q hq nal hnal
  · obtain ⟨c₀, hc₀, hheld₀, hsame⟩ := hcalls c hc hheld
    exact .inr ⟨c₀, hc₀, hheld₀, hsame ▸ hnal⟩

/-- A change through a pointer adds nothing to the queue if it adds nothing to what is behind the
pointer. -/
theorem leftover_modify {b : ℕ} {q' : RtspFrameQueue RtspNalUnit}
    (hf : b = queue → ∀ q, w.frameQueues.heap[queue]? = some q →
      ∀ nal ∈ (f q).nals, w.Leftover queue nal)
    (h : (w.frameQueues.modify b f).heap[queue]? = some q') :
    ∀ nal ∈ q'.nals, w.Leftover queue nal := by
  intro nal hnal
  by_cases hb : b = queue
  · have hmodify : (w.frameQueues.heap[queue]?).map f = some q' := by
      rw [← h, hb]
      exact (List.getElem?_modify_eq ..).symm
    obtain ⟨q, hq, rfl⟩ := Option.map_eq_some_iff.mp hmodify
    exact hf hb q hq nal hnal
  · have hsame : (w.frameQueues.modify b f).heap[queue]? = w.frameQueues.heap[queue]? :=
      List.getElem?_modify_ne _ _ hb
    exact .inl ⟨q', hsame ▸ h, hnal⟩

variable {start : SharedServer}

theorem CutSince.onFrame (hw : start.CutSince queue w) (frame : StreamFrame) :
    (∀ nal, (w.onFrame frame).Leftover queue nal → w.Leftover queue nal) ∧
      (w.onFrame frame).frameQueues = w.frameQueues ∧
      (w.onFrame frame).sources = w.sources := by
  unfold SharedServer.onFrame
  split_ifs
  · exact ⟨fun _ => id, rfl, rfl⟩
  · split
    · rename_i codec current _ _ cache _ hqueue _
      refine ⟨fun nal => leftover_of_step (fun q hq nal hnal => .inl ⟨q, hq, hnal⟩) ?_, rfl, rfl⟩
      intro c hc hheld
      rcases List.mem_append.mp hc with hc | hc
      · exact ⟨c, hc, hheld, rfl⟩
      · rw [List.mem_singleton] at hc
        subst hc
        have hheld : current = queue := hheld
        subst hheld
        exact absurd (SharedMap.ptr_of_find hqueue) (hw.cut.ptr_ne _)
    · exact ⟨fun _ => id, rfl, rfl⟩

theorem CutSince.onFrameStep (h : w.onFrameStep i = some w') :
    (∀ nal, w'.Leftover queue nal → w.Leftover queue nal) ∧
      w.frameQueues.Extends w'.frameQueues ∧ w'.sources = w.sources := by
  obtain ⟨call, hcall, h⟩ := Option.bind_eq_some_iff.mp h
  have hmem := List.mem_of_getElem? hcall
  have herase : ∀ c ∈ w.calls.eraseIdx i, c.frameQueue = queue →
      ∃ c₀ ∈ w.calls, c₀.frameQueue = queue ∧ c₀.accessUnitNals = c.accessUnitNals :=
    fun c hc hheld => ⟨c, List.mem_of_mem_eraseIdx hc, hheld, rfl⟩
  split_ifs at h
  · cases h
    refine ⟨fun nal => leftover_of_step (fun q => leftover_modify ?_) herase,
      SharedMap.extends_modify, rfl⟩
    intro hheld q hq nal hnal
    exact (RtspFrameQueue.mem_nals_pushAccessUnit hnal).elim (fun hold => .inl ⟨q, hq, hold⟩)
      fun hnew => .inr ⟨call, hmem, hheld, hnew⟩
  · obtain ⟨q, -, rfl⟩ := Option.map_eq_some_iff.mp h
    split_ifs
    · refine ⟨fun nal => leftover_of_step (fun q hq nal hnal => .inl ⟨q, hq, hnal⟩) ?_,
        .refl _, rfl⟩
      intro c hc hheld
      rcases List.mem_or_eq_of_mem_set hc with hc | rfl
      · exact ⟨c, hc, hheld, rfl⟩
      · exact ⟨call, hmem, hheld, rfl⟩
    · exact ⟨fun nal => leftover_of_step (fun q hq nal hnal => .inl ⟨q, hq, hnal⟩) herase, .refl _,
        rfl⟩

theorem CutSince.step (hw : start.CutSince queue w) (h : w.step a = some w') :
    start.CutSince queue w' := by
  have hinv := (hw.inv.simulates h).1
  cases a with
  | call c =>
    obtain ⟨hsources, hcalls, hextends, hprefix⟩ := call_frame h
    refine ⟨hinv, hw.cut.mono hextends, fun s src hs => hw.sources s src (hsources ▸ hs), ?_⟩
    intro nal hnal
    refine hw.leftover nal (leftover_of_step (fun q hq nal hnal => .inl ⟨q, ?_, hnal⟩) ?_ hnal)
    · obtain ⟨new, hnew⟩ := hprefix
      rw [← hnew, List.getElem?_append_left hw.cut.lt] at hq
      exact hq
    · intro c hc hheld
      exact ⟨c, hcalls ▸ hc, hheld, rfl⟩
  | onFrame frame =>
    cases h
    obtain ⟨hleft, hqueues, hsources⟩ := hw.onFrame frame
    exact ⟨hinv, hqueues ▸ hw.cut, fun s src hs => hw.sources s src (hsources ▸ hs),
      fun nal hnal => hw.leftover nal (hleft nal hnal)⟩
  | onFrameStep i =>
    obtain ⟨hleft, hextends, hsources⟩ :
        (∀ nal, w'.Leftover queue nal → w.Leftover queue nal) ∧ _ ∧ _ := CutSince.onFrameStep h
    exact ⟨hinv, hw.cut.mono hextends, fun s src hs => hw.sources s src (hsources ▸ hs),
      fun nal hnal => hw.leftover nal (hleft nal hnal)⟩
  | createNewStreamSource sms =>
    have h : w.createNewStreamSource sms = some w' := h
    unfold SharedServer.createNewStreamSource at h
    split_ifs at h with hd
    obtain ⟨sub, hsub, rfl⟩ := Option.map_eq_some_iff.mp h
    have hne : sub.frameQueue ≠ queue := by
      intro he
      exact hw.cut.ptr_ne _ (he ▸ (hw.inv.registered_of_alive hsub hd).queue)
    refine ⟨hinv, hw.cut.mono SharedMap.extends_modify, ?_, ?_⟩
    · intro s src hs hheld
      dsimp only at hs
      rw [Function.update_apply] at hs
      split_ifs at hs
      · cases hs
        exact absurd hheld hne
      · exact hw.sources s src hs hheld
    · intro nal hnal
      refine hw.leftover nal (leftover_of_step (fun q => leftover_modify fun he => ?_) ?_ hnal)
      · exact absurd he hne
      · exact fun c hc hheld => ⟨c, hc, hheld, rfl⟩
  | destroySource s =>
    obtain ⟨src, -, rfl⟩ := Option.map_eq_some_iff.mp h
    refine ⟨hinv, hw.cut.mono SharedMap.extends_modify, ?_, ?_⟩
    · intro r x hr hheld
      dsimp only at hr
      rw [Function.update_apply] at hr
      split_ifs at hr
      exact hw.sources r x hr hheld
    · intro nal hnal
      refine hw.leftover nal (leftover_of_step (fun q => leftover_modify fun _ q hq nal hn => ?_) ?_
        hnal)
      · exact .inl ⟨q, hq, hn⟩
      · exact fun c hc hheld => ⟨c, hc, hheld, rfl⟩
  | popNalUnit s =>
    obtain ⟨src, -, rfl⟩ := Option.map_eq_some_iff.mp h
    refine ⟨hinv, hw.cut.mono SharedMap.extends_modify, hw.sources, ?_⟩
    intro nal hnal
    refine hw.leftover nal (leftover_of_step (fun q => leftover_modify fun _ q hq nal hn => ?_) ?_
      hnal)
    · exact .inl ⟨q, hq, RtspFrameQueue.mem_nals_popNalUnit hn⟩
    · exact fun c hc hheld => ⟨c, hc, hheld, rfl⟩

/-- **A dropped queue stays dropped.** From any reachable state on, whatever is removed, added
again, pushed and popped: a queue that was handed out and is no longer in the map never comes back
into it, no source comes to hold it, and its sources find nothing in it but what it holds and what
the calls of `on_frame` that have looked it up already still push. -/
theorem cut_off {as bs : List Action} (hstart : machine.run new as = some start)
    (hrun : machine.run start bs = some w) (hcut : start.frameQueues.Cut queue) :
    (∀ t, ¬ w.Current t queue) ∧
      (∀ s src, w.sources s = some src → src.frameQueue = queue → start.sources s = some src) ∧
      ∀ q, w.frameQueues.heap[queue]? = some q → ∀ nal ∈ q.nals, start.Leftover queue nal := by
  have hinv : start.Inv := Machine.keep_run inv_new (fun _ _ _ hi h => (hi.simulates h).1) hstart
  have h : start.CutSince queue w :=
    Machine.keep_run (J := start.CutSince queue) ⟨hinv, hcut, fun _ _ hs _ => hs, fun _ => id⟩
      (fun _ _ _ hw h => hw.step h) hrun
  exact ⟨h.cut.ptr_ne, h.sources, fun q hq nal hnal => h.leftover nal (.inl ⟨q, hq, hnal⟩)⟩

theorem cut_off_addedAgain :
    ∃ start w, machine.run new removed = some start ∧ machine.run start addedAgain = some w ∧
      ∀ t, ¬ w.Current t 0 := by
  obtain ⟨start, hstart⟩ : ∃ w, machine.run new removed = some w :=
    Option.isSome_iff_exists.mp (by decide +kernel)
  have hrun : machine.run start addedAgain = machine.run new (removed ++ addedAgain) := by
    rw [Machine.run_append, hstart, Option.bind_some]
  obtain ⟨w, hw⟩ : ∃ w, machine.run start addedAgain = some w := by
    rw [hrun]
    exact Option.isSome_iff_exists.mp (by decide +kernel)
  have hheap : (machine.run new removed).map (fun w => decide (0 < w.frameQueues.heap.length)) =
      some true := by decide +kernel
  have hptr : (machine.run new removed).map (fun w => StreamType.all.map w.frameQueues.ptr) =
      some [none, none, none, none] := by decide +kernel
  rw [hstart, Option.map_some, Option.some.injEq] at hheap hptr
  have hcut : start.frameQueues.Cut 0 := by
    refine ⟨of_decide_eq_true hheap, fun t ht => ?_⟩
    have hmem := List.mem_map_of_mem (f := start.frameQueues.ptr) (StreamType.mem_all t)
    rw [hptr, ht] at hmem
    exact absurd hmem (by decide)
  exact ⟨start, w, hstart, hw, (cut_off hstart hw hcut).1⟩

end SharedServer

end Eye
