import Eye.Lib.Machine
import Eye.Rtsp.Server

/-!
# Media sessions

`start`, `stop`, `add_stream` and `remove_stream` of `RtspServer`, together with what live555 keeps
of the sessions: the table of the media server, and which sessions have been destroyed.

`RtspServer` owns a session twice, in `sessions_` and through the table. `noDangling_iff` says when
the two stay in step: exactly as long as no session is closed through `sessions_`.
-/

namespace Eye

/-- Where `RtspServer::start` can fail. -/
inductive StartOutcome
  | noScheduler | noEnvironment | noServer | started
  deriving DecidableEq

namespace RtspServer

/-- `RtspServer::RtspServer` -/
def new : RtspServer where
  rtspServer := false
  env := false
  scheduler := false
  running := false
  sessions := fun _ => none
  frameQueues := fun _ => none
  parameterSets := fun _ => none
  streamCodecs := fun _ => none
  config := ⟨8554, 5, true, 1⟩

/-- `RtspServer::start`: the return value and the server. -/
def start (s : RtspServer) (port : UInt16) (outcome : StartOutcome) : Bool × RtspServer :=
  if s.running then (true, s)
  else
    let s := { s with config := { s.config with port := port } }
    match outcome with
    | .noScheduler => (false, { s with scheduler := false })
    | .noEnvironment => (false, { s with scheduler := false, env := false })
    | .noServer => (false, { s with scheduler := false, env := false, rtspServer := false })
    | .started =>
      (true, { s with scheduler := true, env := true, rtspServer := true, running := true })

/-- The codec `add_stream` gives a type, if it supports the type. -/
def streamCodec : StreamType → Option CodecType
  | .videoMain => some .h265
  | .videoSub => some .h264
  | _ => none

/-- The four map updates of `add_stream`. -/
def insertStream (s : RtspServer) (type : StreamType) (codec : CodecType) (sms : SessionId) :
    RtspServer :=
  { s with
    sessions := Function.update s.sessions type (some sms)
    frameQueues :=
      Function.update s.frameQueues type (some (RtspFrameQueue.new s.config.frameQueueSize))
    parameterSets := Function.update s.parameterSets type (some .empty)
    streamCodecs := Function.update s.streamCodecs type (some codec) }

theorem sessions_insertStream (s : RtspServer) (type : StreamType) (codec : CodecType)
    (sms : SessionId) (t : StreamType) :
    (s.insertStream type codec sms).sessions t = if t = type then some sms else s.sessions t :=
  Function.update_apply ..

/-- The four map updates of `remove_stream`. -/
def eraseStream (s : RtspServer) (type : StreamType) : RtspServer :=
  { s with
    sessions := Function.update s.sessions type none
    frameQueues := Function.update s.frameQueues type none
    parameterSets := Function.update s.parameterSets type none
    streamCodecs := Function.update s.streamCodecs type none }

/-- The first half of `RtspServer::stop`, after the sessions have been closed. -/
def clearStreams (s : RtspServer) : RtspServer :=
  { s with
    running := false
    sessions := fun _ => none
    frameQueues := fun _ => none
    parameterSets := fun _ => none
    streamCodecs := fun _ => none }

/-- The second half of `RtspServer::stop`. -/
def closeServer (s : RtspServer) : RtspServer :=
  { s with rtspServer := false, env := false, scheduler := false }

/-- The sessions in the order of the map. -/
def sessionList (s : RtspServer) : List SessionId := StreamType.all.filterMap s.sessions

/-- A running server whose queues nothing reads yet. -/
structure Ready (s : RtspServer) : Prop where
  running : s.running = true
  scheduler : s.scheduler = true
  queues : ∀ t q, s.frameQueues t = some q → q.Wf ∧ q.activeSources = []

end RtspServer

/-- The server and live555's side of its sessions. `stopping` holds between the two halves of
`stop`. -/
structure LiveServer where
  server : RtspServer
  table : List (String × SessionId)
  created : ℕ
  destroyed : List SessionId
  stopping : Bool

namespace LiveServer

/-- The sessions in the table of the media server. -/
def listed (w : LiveServer) : List SessionId := w.table.map Prod.snd

def new : LiveServer := ⟨.new, [], 0, [], false⟩

/-! ## What live555 does -/

/-- `Medium::close` of a session: it is destroyed, the table is left as it is. -/
def closeSession (w : LiveServer) (sms : SessionId) : LiveServer :=
  { w with destroyed := w.destroyed ++ [sms] }

/-- `GenericMediaServer::removeServerMediaSession` of an unused session, by its name. -/
def removeServerMediaSession (w : LiveServer) (name : String) : LiveServer :=
  { w with
    table := w.table.filter fun e => e.1 ≠ name
    destroyed := w.destroyed ++ (w.table.filter fun e => e.1 = name).map Prod.snd }

/-- `GenericMediaServer::addServerMediaSession` -/
def addServerMediaSession (w : LiveServer) (name : String) (sms : SessionId) : LiveServer :=
  let w := w.removeServerMediaSession name
  { w with table := w.table ++ [(name, sms)] }

/-- `Medium::close` of the media server: every session in the table is removed and deleted. -/
def closeMediaServer (w : LiveServer) : LiveServer :=
  { w with table := [], destroyed := w.destroyed ++ w.listed }

/-! ## What the server does -/

/-- `RtspServer::start`: a new media server has an empty table. -/
def start (w : LiveServer) (port : UInt16) (outcome : StartOutcome) : LiveServer :=
  { w with
    server := (w.server.start port outcome).2
    table := if w.server.running = false ∧ outcome = .started then [] else w.table }

/-- `RtspServer::add_stream`; `created` says whether `ServerMediaSession::createNew` gave a
session. -/
def addStream (w : LiveServer) (type : StreamType) (name : String) (created : Bool) :
    Bool × LiveServer :=
  if w.server.rtspServer = false then (false, w)
  else if (w.server.sessions type).isSome then (false, w)
  else
    match RtspServer.streamCodec type with
    | none => (false, w)
    | some codec =>
      if created = false then (false, w)
      else
        let sms := w.created
        let w := ({ w with created := w.created + 1 }).addServerMediaSession name sms
        (true, { w with server := w.server.insertStream type codec sms })

/-- `RtspServer::remove_stream` -/
def removeStream (w : LiveServer) (type : StreamType) : LiveServer :=
  match w.server.sessions type with
  | none => w
  | some sms =>
    let w := w.closeSession sms
    { w with server := w.server.eraseStream type }

/-- `RtspServer::stop` up to the loss of the four maps. -/
def stopStreams (w : LiveServer) : LiveServer :=
  if w.server.running = false then w
  else
    let w := w.server.sessionList.foldl closeSession w
    { w with server := w.server.clearStreams, stopping := true }

/-- The rest of `RtspServer::stop`. -/
def stopServer (w : LiveServer) : LiveServer :=
  let w := if w.server.rtspServer then w.closeMediaServer else w
  { w with server := w.server.closeServer, stopping := false }

/-- A call of the server's owner; `stop` takes two steps. -/
inductive Call
  | start (port : UInt16) (outcome : StartOutcome)
  | addStream (type : StreamType) (name : String) (created : Bool)
  | removeStream (type : StreamType)
  | stop
  | stopServer

def step (w : LiveServer) : Call → Option LiveServer
  | .start port outcome => if w.stopping then none else some (w.start port outcome)
  | .addStream type name created =>
    if w.stopping then none else some (w.addStream type name created).2
  | .removeStream type => if w.stopping then none else some (w.removeStream type)
  | .stop => if w.stopping then none else some w.stopStreams
  | .stopServer => if w.stopping then some w.stopServer else none

/-- The calls of the owner, one after another, from the constructor on. -/
def machine : Machine LiveServer Call where
  init w := w = new
  step := step

/-- The outcomes of `step`. -/
inductive Step (w : LiveServer) : Call → LiveServer → Prop
  | start (port : UInt16) (outcome : StartOutcome) : w.stopping = false →
      Step w (.start port outcome) (w.start port outcome)
  | addStream (type : StreamType) (name : String) (created : Bool) : w.stopping = false →
      Step w (.addStream type name created) (w.addStream type name created).2
  | removeStream (type : StreamType) : w.stopping = false →
      Step w (.removeStream type) (w.removeStream type)
  | stop : w.stopping = false → Step w .stop w.stopStreams
  | stopServer : w.stopping = true → Step w .stopServer w.stopServer

theorem Step.of_step {w w' : LiveServer} {c : Call} (h : w.step c = some w') : Step w c w' := by
  cases c with
  | start port outcome =>
    rw [LiveServer.step] at h
    split_ifs at h with hs
    cases h
    exact .start port outcome (by simpa using hs)
  | addStream type name created =>
    rw [LiveServer.step] at h
    split_ifs at h with hs
    cases h
    exact .addStream type name created (by simpa using hs)
  | removeStream type =>
    rw [LiveServer.step] at h
    split_ifs at h with hs
    cases h
    exact .removeStream type (by simpa using hs)
  | stop =>
    rw [LiveServer.step] at h
    split_ifs at h with hs
    cases h
    exact .stop (by simpa using hs)
  | stopServer =>
    rw [LiveServer.step] at h
    split_ifs at h with hs
    cases h
    exact .stopServer hs

/-- No session has been destroyed twice, and none in the table has been destroyed. -/
def NoDangling (w : LiveServer) : Prop :=
  w.destroyed.Nodup ∧ ∀ sms ∈ w.listed, sms ∉ w.destroyed

/-- The call closes no session through `sessions_`. -/
def ClosesNone (w : LiveServer) : Call → Prop
  | .removeStream type => w.server.sessions type = none
  | .stop => w.server.running = true → ∀ type, w.server.sessions type = none
  | _ => True

/-! ## The invariant -/

/-- The sessions that live555 knows of. -/
def known (w : LiveServer) : List SessionId := w.destroyed ++ w.listed

/-- What every call keeps: no session is known twice, every session of the server is known, and a
listed session belongs to a media server that exists. -/
structure Inv (w : LiveServer) : Prop where
  nodup : w.known.Nodup
  lt : ∀ sms ∈ w.known, sms < w.created
  owned : ∀ type sms, w.server.sessions type = some sms → sms ∈ w.known
  rtspServer_eq : w.server.rtspServer = (w.server.running || w.stopping)
  running_stopping : ¬ (w.server.running = true ∧ w.stopping = true)
  table_eq : w.server.rtspServer = false → w.table = []

variable {w : LiveServer}

theorem inv_new : new.Inv := by
  refine ⟨List.nodup_nil, ?_, ?_, rfl, ?_, fun _ => rfl⟩
  · intro _ h
    exact absurd h List.not_mem_nil
  · intro _ _ h
    exact nomatch h
  · intro h
    exact nomatch h.1

theorem Inv.noDangling (hi : w.Inv) : w.NoDangling := by
  have h := List.nodup_append.mp hi.nodup
  exact ⟨h.1, fun sms hl hd => h.2.2 sms hd sms hl rfl⟩

/-- A session known to live555 that is closed is destroyed twice or still listed. -/
theorem not_noDangling_of_closed {w' : LiveServer} {sms : SessionId} (hk : sms ∈ w.known)
    (hl : w'.listed = w.listed) (hd : List.Sublist (w.destroyed ++ [sms]) w'.destroyed) :
    ¬ w'.NoDangling := by
  rintro ⟨hn, hno⟩
  rcases List.mem_append.mp hk with hk | hk
  · have h := List.nodup_append.mp (hd.nodup hn)
    exact h.2.2 sms hk sms (List.mem_singleton.mpr rfl) rfl
  · exact hno sms (hl ▸ hk) (hd.subset (List.mem_append_right _ (List.mem_singleton.mpr rfl)))

/-! ### One call -/

theorem Inv.start (hi : w.Inv) (hs : w.stopping = false) (port : UInt16) (outcome : StartOutcome) :
    (w.start port outcome).Inv := by
  cases hr : w.server.running with
  | true =>
    have : w.start port outcome = w := by
      unfold LiveServer.start RtspServer.start
      rw [hr, if_pos rfl, if_neg (by simp)]
    rw [this]
    exact hi
  | false =>
    have hnull : w.server.rtspServer = false := by rw [hi.rtspServer_eq, hr, hs]; rfl
    have htable : (w.start port outcome).table = w.table := by
      show (if _ then [] else w.table) = w.table
      rw [hi.table_eq hnull, ite_self]
    have hknown : (w.start port outcome).known = w.known := by
      unfold known listed
      rw [htable]
      rfl
    have hsessions : (w.start port outcome).server.sessions = w.server.sessions := by
      show ((w.server.start port outcome).2).sessions = _
      unfold RtspServer.start
      rw [hr, if_neg (by simp)]
      cases outcome <;> rfl
    have hflags : (w.start port outcome).server.rtspServer =
        (w.start port outcome).server.running := by
      show ((w.server.start port outcome).2).rtspServer = ((w.server.start port outcome).2).running
      unfold RtspServer.start
      rw [hr, if_neg (by simp)]
      cases outcome <;> simp [hnull]
    have hstop : (w.start port outcome).stopping = false := hs
    refine ⟨?_, ?_, ?_, ?_, ?_, ?_⟩
    · rw [hknown]
      exact hi.nodup
    · rw [hknown]
      exact hi.lt
    · rw [hknown, hsessions]
      exact hi.owned
    · rw [hflags, hstop, Bool.or_false]
    · rw [hstop]
      intro h
      exact nomatch h.2
    · rw [htable, hi.table_eq hnull]
      exact fun _ => rfl

/-- Removing a name destroys what was listed under it, and nothing else changes hands. -/
theorem known_removeServerMediaSession (w : LiveServer) (name : String) :
    List.Perm (w.removeServerMediaSession name).known w.known := by
  unfold known listed removeServerMediaSession
  dsimp only
  rw [List.append_assoc, ← List.map_append]
  refine List.Perm.append_left _ (List.Perm.map _ ?_)
  have := List.filter_append_perm (fun e : String × SessionId => decide (e.1 = name)) w.table
  simpa using this

theorem known_addServerMediaSession (w : LiveServer) (name : String) (sms : SessionId) :
    List.Perm (w.addServerMediaSession name sms).known (w.known ++ [sms]) := by
  have h : (w.addServerMediaSession name sms).known =
      (w.removeServerMediaSession name).known ++ [sms] := by
    unfold addServerMediaSession known listed
    dsimp only
    rw [List.map_append, List.append_assoc]
    rfl
  rw [h]
  exact (known_removeServerMediaSession w name).append_right _

theorem Inv.addStream (hi : w.Inv) (type : StreamType) (name : String) (created : Bool) :
    (w.addStream type name created).2.Inv := by
  unfold LiveServer.addStream
  split_ifs with hnull hreg hc
  · exact hi
  · exact hi
  · cases RtspServer.streamCodec type <;> exact hi
  · cases RtspServer.streamCodec type with
    | none => exact hi
    | some codec =>
      set w₁ : LiveServer :=
        ({ w with created := w.created + 1 } : LiveServer).addServerMediaSession name w.created
        with hw₁
      have hperm : List.Perm w₁.known (w.known ++ [w.created]) :=
        known_addServerMediaSession { w with created := w.created + 1 } name w.created
      refine ⟨?_, ?_, ?_, hi.rtspServer_eq, hi.running_stopping, fun h => absurd h hnull⟩
      · -- the new session is fresh
        refine hperm.nodup_iff.mpr (List.nodup_append.mpr ⟨hi.nodup, List.nodup_singleton _, ?_⟩)
        rintro sms hk _ hm rfl
        have := hi.lt sms hk
        rw [List.mem_singleton.mp hm] at this
        exact Nat.lt_irrefl _ this
      · intro sms hk
        show sms < w.created + 1
        rcases List.mem_append.mp (hperm.mem_iff.mp hk) with hk | hk
        · exact Nat.lt_succ_of_lt (hi.lt sms hk)
        · rw [List.mem_singleton.mp hk]
          exact Nat.lt_succ_self _
      · intro t sms ht
        refine hperm.mem_iff.mpr (List.mem_append.mpr ?_)
        change (w.server.insertStream type codec w.created).sessions t = some sms at ht
        rw [RtspServer.sessions_insertStream] at ht
        split_ifs at ht with h
        · exact .inr (List.mem_singleton.mpr (Option.some.inj ht).symm)
        · exact .inl (hi.owned t sms ht)

theorem removeStream_of_none {type : StreamType} (h : w.server.sessions type = none) :
    w.removeStream type = w := by
  unfold removeStream
  rw [h]

theorem removeStream_of_some {type : StreamType} {sms : SessionId}
    (h : w.server.sessions type = some sms) :
    w.removeStream type =
      { w with server := w.server.eraseStream type, destroyed := w.destroyed ++ [sms] } := by
  unfold removeStream
  rw [h]
  rfl

theorem foldl_closeSession (w : LiveServer) (l : List SessionId) :
    l.foldl closeSession w = { w with destroyed := w.destroyed ++ l } := by
  induction l generalizing w with
  | nil => simp
  | cons sms l ih =>
    rw [List.foldl_cons, ih]
    simp [closeSession]

theorem stopStreams_of_running (h : w.server.running = true) :
    w.stopStreams =
      { w with
        server := w.server.clearStreams
        destroyed := w.destroyed ++ w.server.sessionList
        stopping := true } := by
  unfold stopStreams
  rw [if_neg (by simp [h]), foldl_closeSession]

theorem Inv.stopStreams (hi : w.Inv) (hc : w.ClosesNone .stop) : w.stopStreams.Inv := by
  by_cases h : w.server.running = true
  · rw [stopStreams_of_running h]
    have hl : w.server.sessionList = [] := by
      unfold RtspServer.sessionList
      rw [List.filterMap_eq_nil_iff]
      intro t _
      exact hc h t
    rw [hl, List.append_nil]
    refine ⟨hi.nodup, hi.lt, fun _ _ h => (nomatch h), ?_, fun h => (nomatch h.1), hi.table_eq⟩
    show w.server.rtspServer = true
    rw [hi.rtspServer_eq, h]
    rfl
  · unfold LiveServer.stopStreams
    rw [if_pos (by simpa using h)]
    exact hi

theorem Inv.stopServer (hi : w.Inv) (hs : w.stopping = true) : w.stopServer.Inv := by
  have hserver : w.server.rtspServer = true := by rw [hi.rtspServer_eq, hs, Bool.or_true]
  have hrunning : w.server.running = false := by
    have := hi.running_stopping
    rw [hs] at this
    simpa using this
  have hknown : w.stopServer.known = w.known := by
    unfold LiveServer.stopServer
    rw [if_pos hserver]
    exact List.append_nil _
  have htable : w.stopServer.table = [] := by
    unfold LiveServer.stopServer
    rw [if_pos hserver]
    rfl
  have hflags : w.stopServer.server.running = w.server.running := by
    unfold LiveServer.stopServer
    split_ifs
    rfl
  have hsessions : w.stopServer.server.sessions = w.server.sessions := by
    unfold LiveServer.stopServer
    split_ifs
    rfl
  refine ⟨hknown ▸ hi.nodup, ?_, ?_, ?_, fun h => (nomatch h.2), fun _ => htable⟩
  · rw [hknown]
    unfold LiveServer.stopServer
    rw [if_pos hserver]
    exact hi.lt
  · rw [hknown, hsessions]
    exact hi.owned
  · rw [hflags, hrunning]
    rfl

theorem Inv.step {w' : LiveServer} {c : Call} (hi : w.Inv) (hc : w.ClosesNone c)
    (h : Step w c w') : w'.Inv := by
  cases h with
  | start port outcome hs => exact hi.start hs port outcome
  | addStream type name created hs => exact hi.addStream type name created
  | removeStream type hs =>
    rw [removeStream_of_none hc]
    exact hi
  | stop hs => exact hi.stopStreams hc
  | stopServer hs => exact hi.stopServer hs

theorem Inv.step_closes {w' : LiveServer} {c : Call} (hi : w.Inv) (hc : ¬ w.ClosesNone c)
    (h : Step w c w') : ¬ w'.NoDangling := by
  cases h with
  | removeStream type hs =>
    cases hsms : w.server.sessions type with
    | none => exact absurd hsms hc
    | some sms =>
      rw [removeStream_of_some hsms]
      exact not_noDangling_of_closed (hi.owned type sms hsms) rfl (List.Sublist.refl _)
  | stop hs =>
    unfold ClosesNone at hc
    push Not at hc
    obtain ⟨hr, type, hne⟩ := hc
    obtain ⟨sms, hsms⟩ := Option.ne_none_iff_exists'.mp hne
    rw [stopStreams_of_running hr]
    have hm : sms ∈ w.server.sessionList :=
      List.mem_filterMap.mpr ⟨type, StreamType.mem_all type, hsms⟩
    exact not_noDangling_of_closed (hi.owned type sms hsms) rfl
      (List.Sublist.append_left (List.singleton_sublist.mpr hm) _)
  | start | addStream | stopServer => exact absurd trivial hc

/-- **Sessions stay in step exactly when none is closed.** In a run of calls from the constructor
on, no session is ever destroyed twice or listed after its destruction if and only if the run has
no `remove_stream` of a registered type and no `stop` of a running server with a stream. -/
theorem noDangling_iff (calls : List Call) :
    machine.Always NoDangling new calls ↔ machine.Along ClosesNone new calls :=
  Machine.always_iff_along inv_new (fun _ _ _ hi hc h => hi.step hc (.of_step h))
    (fun _ hi => hi.noDangling) (fun _ _ _ hi hc h => hi.step_closes hc (.of_step h))

/-! ## Servers for the event loop -/

/-- Whatever its owner has done, a server has a scheduler while it runs, and its queues are new. -/
structure Fresh (w : LiveServer) : Prop where
  running : w.server.running = true → w.server.scheduler = true ∧ w.stopping = false
  queues : ∀ t q, w.server.frameQueues t = some q → q.Wf ∧ q.activeSources = []

theorem Fresh.start (hf : w.Fresh) (hs : w.stopping = false) (port : UInt16)
    (outcome : StartOutcome) : (w.start port outcome).Fresh := by
  unfold LiveServer.start RtspServer.start
  cases hr : w.server.running with
  | true => exact ⟨hf.running, hf.queues⟩
  | false =>
    rw [if_neg Bool.false_ne_true]
    cases outcome with
    | started => exact ⟨fun _ => ⟨rfl, hs⟩, hf.queues⟩
    | noScheduler | noEnvironment | noServer =>
      exact ⟨fun h => absurd h Bool.false_ne_true, hf.queues⟩

theorem Fresh.addStream (hf : w.Fresh) (type : StreamType) (name : String) (created : Bool) :
    (w.addStream type name created).2.Fresh := by
  unfold LiveServer.addStream
  split_ifs
  · exact hf
  · exact hf
  · cases RtspServer.streamCodec type <;> exact hf
  · cases RtspServer.streamCodec type with
    | none => exact hf
    | some codec =>
      refine ⟨hf.running, ?_⟩
      intro t q hq
      have hq : Function.update w.server.frameQueues type _ t = some q := hq
      rw [Function.update_apply] at hq
      split_ifs at hq
      · cases hq
        exact ⟨RtspFrameQueue.wf_new _, rfl⟩
      · exact hf.queues t q hq

theorem Fresh.removeStream (hf : w.Fresh) (type : StreamType) : (w.removeStream type).Fresh := by
  unfold LiveServer.removeStream
  cases w.server.sessions type with
  | none => exact hf
  | some sms =>
    refine ⟨hf.running, ?_⟩
    intro t q hq
    have hq : Function.update w.server.frameQueues type none t = some q := hq
    rw [Function.update_apply] at hq
    split_ifs at hq
    exact hf.queues t q hq

theorem Fresh.stopStreams (hf : w.Fresh) : w.stopStreams.Fresh := by
  by_cases h : w.server.running = true
  · rw [stopStreams_of_running h]
    exact ⟨fun h => absurd h Bool.false_ne_true, fun _ _ hq => nomatch hq⟩
  · unfold LiveServer.stopStreams
    rw [if_pos (by simpa using h)]
    exact hf

theorem Fresh.stopServer (hf : w.Fresh) (hs : w.stopping = true) : w.stopServer.Fresh := by
  unfold LiveServer.stopServer
  have hr : ¬ w.server.running = true := by
    intro h
    rw [(hf.running h).2] at hs
    exact Bool.false_ne_true hs
  split_ifs <;> exact ⟨fun h => absurd h hr, hf.queues⟩

theorem Fresh.step {w' : LiveServer} {c : Call} (hf : w.Fresh) (h : Step w c w') : w'.Fresh := by
  cases h with
  | start port outcome hs => exact hf.start hs port outcome
  | addStream type name created hs => exact hf.addStream type name created
  | removeStream type hs => exact hf.removeStream type
  | stop hs => exact hf.stopStreams
  | stopServer hs => exact hf.stopServer hs

/-- Whatever its owner has called before, a running server is ready for the event loop. -/
theorem ready (hw : machine.Reachable w) (hr : w.server.running = true) : w.server.Ready := by
  have hf : w.Fresh := by
    refine hw.invariant (I := Fresh) (fun w h0 => ?_) (fun _ _ _ hf h => hf.step (.of_step h))
    rw [show w = new from h0]
    exact ⟨fun h => (nomatch h), fun _ _ hq => nomatch hq⟩
  exact ⟨hr, (hf.running hr).1, hf.queues⟩

/-- A stream is added and removed again. -/
def removeRun : List Call :=
  [.start 8554 .started, .addStream .videoMain "main" true, .removeStream .videoMain]

/-- Its session is destroyed and still in the table. -/
theorem removed_still_listed :
    ∃ w, machine.run new removeRun = some w ∧ w.table = [("main", 0)] ∧ w.destroyed = [0] ∧
      ¬ machine.Always NoDangling new removeRun := by
  refine ⟨_, rfl, by decide, by decide, ?_⟩
  intro h
  exact (((h.2 _ rfl).2 _ rfl).2 _ rfl).2 0 (by decide) (by decide)

end LiveServer

end Eye
