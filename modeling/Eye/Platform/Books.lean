import Eye.Platform.VideoPipeline

/-!
# The books of the video pipeline

What the calls of `hi_video_pipeline.cpp` need, acquire and give back, by what their names say, and
which answers the program looks at. The books are our account: they are not part of the program.

The `wp` rules are one for each way in which the program makes a call: a command that must succeed
(`wp_mpi_check`), a clean-up (`wp_cleanup`), and a call that hands something out (`wp_query`).
-/

namespace Eye

open Calls

/-! ## The books -/

/-- What a call can acquire. `undefined` is what a division by zero would need. -/
inductive Resource
  | vbPools | mppSys
  | mipiFd (fd : Int32)
  | viDev (dev : Int32) | viBound (dev pipe : Int32) | viPipe (pipe : Int32)
  | viPipeRun (pipe : Int32) | viChn (pipe chn : Int32)
  | aeLib (pipe : Int32) | awbLib (pipe : Int32) | ispMem (pipe : Int32) | isp (pipe : Int32)
  | ispThread (pipe : Int32)
  | vpssGrp (grp : Int32) | vpssChn (grp chn : Int32) | vpssRun (grp : Int32)
  | binding (src dest : MppChn)
  | vencChn (chn : Int32) | vencRun (chn : Int32)
  | undefined
  deriving DecidableEq, Repr

/-- What a channel is, where it is bound to another. VPSS receives as a group. -/
def MppChn.asSrc (c : MppChn) : Resource :=
  match c.modId with
  | .vi => .viChn c.devId c.chnId
  | .vpss => .vpssChn c.devId c.chnId
  | .venc => .vencChn c.chnId

def MppChn.asDest (c : MppChn) : Resource :=
  match c.modId with
  | .vi => .viChn c.devId c.chnId
  | .vpss => .vpssGrp c.devId
  | .venc => .vencChn c.chnId

/-- What must be up for a command. -/
@[simp] def Command.needs : Command → List Resource
  | sysInit => [.vbPools]
  | sysBind src dest => [src.asSrc, dest.asDest]
  | ioctl fd _ | close fd => [.mipiFd fd]
  | viBind dev _ => [.viDev dev]
  | viStartPipe pipe | viDestroyPipe pipe | viSetChnAttr pipe _ _ | viEnableChn pipe _
  | viSetPipe3dnrAttr pipe _ => [.viPipe pipe]
  | ispSetPubAttr pipe _ _ => [.ispMem pipe]
  | ispInit pipe => [.aeLib pipe, .awbLib pipe, .ispMem pipe]
  | vpssSetChnAttr grp _ _ | vpssSetExtChnAttr grp _ _ | vpssSetChnRotation grp _
  | vpssSetChnBufWrap grp _ _ | vpssEnableChn grp _ | vpssStartGrp grp | vpssDestroyGrp grp =>
    [.vpssGrp grp]
  | vpssDisableChn grp chn => [.vpssChn grp chn]
  | vpssStopGrp grp => [.vpssRun grp]
  | vencSetRcParam chn _ | vencStartChn chn _ | vencDestroyChn chn => [.vencChn chn]
  | _ => []

/-- What a command acquires where it succeeds. -/
@[simp] def Command.takes : Command → List Resource
  | vbInit => [.vbPools]
  | sysInit => [.mppSys]
  | sysBind src dest => [.binding src dest]
  | viEnableDev dev => [.viDev dev]
  | viBind dev pipe => [.viBound dev pipe]
  | viCreatePipe pipe _ => [.viPipe pipe]
  | viStartPipe pipe => [.viPipeRun pipe]
  | viEnableChn pipe chn => [.viChn pipe chn]
  | aeRegister pipe => [.aeLib pipe]
  | awbRegister pipe => [.awbLib pipe]
  | ispMemInit pipe => [.ispMem pipe]
  | ispInit pipe => [.isp pipe]
  | vpssCreateGrp grp _ => [.vpssGrp grp]
  | vpssEnableChn grp chn => [.vpssChn grp chn]
  | vpssStartGrp grp => [.vpssRun grp]
  | vencCreateChn chn _ => [.vencChn chn]
  | vencStartChn chn _ => [.vencRun chn]
  | _ => []

/-- What a command gives back where it succeeds. -/
@[simp] def Command.gives : Command → List Resource
  | close fd => [.mipiFd fd]
  | viDestroyPipe pipe => [.viPipe pipe, .viPipeRun pipe]
  | vpssDisableChn grp chn => [.vpssChn grp chn]
  | vpssStopGrp grp => [.vpssRun grp]
  | vpssDestroyGrp grp => [.vpssGrp grp]
  | vencDestroyChn chn => [.vencChn chn, .vencRun chn]
  | _ => []

/-- The command that gives back even where it fails. -/
def Command.closes : Command → Bool
  | close _ => true
  | _ => false

/-- The commands whose return code is not looked at. -/
def Command.unheeded : Command → Bool
  | close _ | viDestroyPipe _ | snsRegisterCallback _ | snsSetBusInfo _ | vencDestroyChn _ => true
  | _ => false

/-- The commands that clean up after another, or that a sensor object without `pfn_set_bus_info`
still gets. -/
def MppCall.follows : MppCall → Command → Bool
  | .command (.ioctl fd _), .close fd' => fd = fd'
  | .command (.viStartPipe pipe), .viDestroyPipe pipe' => pipe = pipe'
  | .command (.viSetChnAttr pipe _ _), .viDestroyPipe pipe' => pipe = pipe'
  | .snsGetObj, .snsRegisterCallback _ => true
  | .command (.sysBind _ dest), .vpssDisableChn grp _ => dest.modId = .vpss ∧ dest.devId = grp
  | .command (.sysBind _ dest), .vpssStopGrp grp => dest.modId = .vpss ∧ dest.devId = grp
  | .command (.sysBind _ dest), .vpssDestroyGrp grp => dest.modId = .vpss ∧ dest.devId = grp
  | .vencGetChnAttr chn, .vencDestroyChn chn' => chn = chn'
  | .vencGetRcParam chn, .vencDestroyChn chn' => chn = chn'
  | .command (.vencSetRcParam chn _), .vencDestroyChn chn' => chn = chn'
  | .command (.vencStartChn chn _), .vencDestroyChn chn' => chn = chn'
  | _, _ => false

/-- The code takes the answer for a refusal. It goes on after a failed query for the wrap buffer's
lines (`sysGetVpssVencWrapBufLine`: `comm_vpss_get_wrap_cfg` fails then, and its caller does not
look) or for the noise reduction (`viGetPipe3dnrAttr`), and does not look at what the `unheeded`
commands return: `close`, destroying a VI pipe or an encoder channel, and the two callbacks of the
sensor. -/
def MppCall.refuses : (c : MppCall) → c.Answer → Bool
  | .command c => fun ret : Int32 => decide (ret ≠ TD_SUCCESS) && !c.unheeded
  | .openMipi => fun fd : Int32 => decide (fd < 0)
  | .sysGetViVpssMode => fun got : Int32 × List ViVpssMode => decide (got.1 ≠ TD_SUCCESS)
  | .ispGetCtrlParam _ => fun got : Int32 × IspCtrlParam => decide (got.1 ≠ TD_SUCCESS)
  | .snsGetObj => fun obj : Option SnsObj =>
    obj.all fun obj => !obj.pfnRegisterCallback || !obj.pfnSetBusInfo
  | .vencGetModParam _ => fun got : Int32 × VencModParam => decide (got.1 ≠ TD_SUCCESS)
  | .vencGetChnAttr _ => fun got : Int32 × ChnRcMode => decide (got.1 ≠ TD_SUCCESS)
  | .vencGetRcParam _ => fun got : Int32 × VencRcParam => decide (got.1 ≠ TD_SUCCESS)
  | .sysGetVpssVencWrapBufLine _ | .viGetPipe3dnrAttr _ | .startIspThread _ => fun _ => false
  | .divideByZero => fun _ => false

def books : Books MppCall MppCall.Answer Resource where
  needs
    | .command c => c.needs
    | .viGetPipe3dnrAttr pipe => [.viPipe pipe]
    | .startIspThread pipe => [.isp pipe]
    | .vencGetChnAttr chn | .vencGetRcParam chn => [.vencChn chn]
    | .divideByZero => [.undefined]
    | _ => []
  takes
    | .command c => fun ret : Int32 => if ret = TD_SUCCESS then c.takes else []
    | .openMipi => fun fd : Int32 => if fd < 0 then [] else [.mipiFd fd]
    | .startIspThread pipe => fun _ => [.ispThread pipe]
    | _ => fun _ => []
  gives
    | .command c => fun ret : Int32 => if ret = TD_SUCCESS ∨ c.closes then c.gives else []
    | _ => fun _ => []
  refuses := MppCall.refuses
  follows
    | c, .command c' => c.follows c'
    | _, _ => false

/-- The return code of a failure. -/
abbrev Failed (ret : Int32) : Prop := ret ≠ TD_SUCCESS

theorem failed_failure : Failed TD_FAILURE := by decide

theorem failed_self (ret : Int32) (h : ret ≠ TD_SUCCESS) : Failed ret := h

variable {α : Type} {c : Command} {held order xs : List Resource} {ret : Int32}
  {Q : α → Account MppCall Resource → Prop} {f : Int32 → Mpp α}

/-! ## Single calls -/

theorem after_command {ref : Option MppCall} (hgives : c.gives = []) (ret : Int32) :
    books.monitor.after ⟨held, ref⟩ (.command c) ret =
      ⟨held ++ (if ret = TD_SUCCESS then c.takes else []),
        ref.or (if decide (ret ≠ TD_SUCCESS) && !c.unheeded then some (.command c) else none)⟩ := by
  have hnone : books.gives (.command c) ret = [] := by
    show (if ret = TD_SUCCESS ∨ c.closes then c.gives else []) = []
    rw [hgives, ite_self]
  exact Books.after_of_gives_nil hnone

theorem allowed_command {ref : Option MppCall} (hneeds : ∀ x ∈ c.needs, x ∈ held)
    (htakes : ∀ x ∈ c.takes, x ∉ held) (hfollows : ∀ k, ref = some k → k.follows c = true) :
    books.monitor.Allowed ⟨held, ref⟩ (.command c) := by
  refine ⟨hneeds, ?_, hfollows⟩
  intro (ret : Int32) x hx
  change x ∈ (if ret = TD_SUCCESS then c.takes else []) at hx
  split_ifs at hx with h
  · exact htakes x hx
  · cases hx

/-- The command can be made: what it needs is up, what it takes is not, it gives nothing back, and
its return code is looked at. -/
structure Ready (c : Command) (held : List Resource) : Prop where
  needs : ∀ x ∈ c.needs, x ∈ held
  takes : ∀ x ∈ c.takes, x ∉ held
  gives : c.gives = []
  heeded : c.unheeded = false

/-- A command that is refused, and one that is not. -/
theorem wp_mpi (hc : Ready c (held ++ xs))
    (hbad : ∀ ret, ret ≠ TD_SUCCESS →
      wp books.monitor (f ret) Q ⟨held ++ xs, some (.command c)⟩)
    (hgood : wp books.monitor (f TD_SUCCESS) Q ⟨held ++ (xs ++ c.takes), none⟩) :
    wp books.monitor (mpi c >>= f) Q ⟨held ++ xs, none⟩ := by
  refine (wp_bind _ _).mpr
    ⟨allowed_command hc.needs hc.takes fun _ h => (nomatch h), fun (ret : Int32) => ?_⟩
  show wp books.monitor (f ret) Q (books.monitor.after ⟨held ++ xs, none⟩ (.command c) ret)
  rw [after_command hc.gives, hc.heeded]
  by_cases h : ret = TD_SUCCESS
  · subst h
    rw [if_pos rfl, List.append_assoc]
    exact hgood
  · rw [if_neg h, if_pos (by rw [decide_eq_true h]; rfl), List.append_nil]
    exact hbad ret h

theorem bringsUp_mpi (hc : Ready c held) : BringsUp books Failed (mpi c) held c.takes := by
  refine BringsUp.start (wp_mpi (f := fun ret => pure ret) ?_ (fun ret h => ?_) ?_)
  · rw [List.append_nil]
    exact hc
  · exact .bad h List.nil_prefix
  · exact Outcome.good fun h => h rfl

theorem wp_mpi_check {Bad : α → Prop} {e : Int32 → α} (hc : Ready c (held ++ xs))
    (he : ∀ ret, ret ≠ TD_SUCCESS → Bad (e ret)) (hxs : xs <+: order)
    (hgood : wp books.monitor (f TD_SUCCESS) (Outcome Bad held order)
      ⟨held ++ (xs ++ c.takes), none⟩) :
    wp books.monitor (mpi c >>= fun ret => if ret ≠ TD_SUCCESS then pure (e ret) else f ret)
      (Outcome Bad held order) ⟨held ++ xs, none⟩ := by
  refine wp_mpi hc (fun ret h => ?_) ?_
  · rw [if_pos h]
    exact .bad (he ret h) hxs
  · exact hgood

/-- A command that cleans up, after a refusal or at the end. -/
theorem wp_cleanup {ref : Option MppCall} (hneeds : ∀ x ∈ c.needs, x ∈ held) (htakes : c.takes = [])
    (hfollows : ∀ k, ref = some k → k.follows c = true)
    (hheeded : c.unheeded = true ∨ ref.isSome = true)
    (hdone : ∀ ret, (c.closes = false → ret = TD_SUCCESS) →
      wp books.monitor (f ret) Q ⟨held.filter (· ∉ c.gives), ref⟩)
    (hkept : c.closes = false →
      ∀ ret, ret ≠ TD_SUCCESS → wp books.monitor (f ret) Q ⟨held, ref⟩) :
    wp books.monitor (mpi c >>= f) Q ⟨held, ref⟩ := by
  have hallowed : books.monitor.Allowed ⟨held, ref⟩ (.command c) :=
    allowed_command hneeds (by simp only [htakes, List.not_mem_nil, false_implies, implies_true])
      hfollows
  refine (wp_bind _ _).mpr ⟨hallowed, fun (ret : Int32) => ?_⟩
  have hafter : books.monitor.after ⟨held, ref⟩ (.command c) ret =
      ⟨held.filter (· ∉ if ret = TD_SUCCESS ∨ c.closes then c.gives else []), ref⟩ := by
    refine Account.ext ?_ ?_
    · show _ ++ (if ret = TD_SUCCESS then c.takes else []) = _
      rw [htakes, ite_self, List.append_nil]
      rfl
    · show ref.or (if decide (ret ≠ TD_SUCCESS) && !c.unheeded then some _ else none) = ref
      rcases hheeded with hheeded | hsome
      · rw [hheeded, Bool.not_true, Bool.and_false, if_neg Bool.false_ne_true, Option.or_none]
      · obtain ⟨k, rfl⟩ := Option.isSome_iff_exists.mp hsome
        rfl
  show wp books.monitor (f ret) Q (books.monitor.after ⟨held, ref⟩ (.command c) ret)
  rw [hafter]
  by_cases h : ret = TD_SUCCESS ∨ c.closes = true
  · rw [if_pos h]
    exact hdone ret fun hc => h.resolve_right (by rw [hc]; exact Bool.false_ne_true)
  · rw [if_neg h]
    simp only [List.not_mem_nil, not_false_eq_true, decide_true, List.filter_true]
    exact hkept (Bool.eq_false_iff.mpr fun hc => h (.inr hc)) ret fun hr => h (.inl hr)

theorem wp_query {c : MppCall} {f : c.Answer → Mpp α} (hneeds : ∀ x ∈ books.needs c, x ∈ held)
    (htakes : ∀ r, books.takes c r = []) (hgives : ∀ r, books.gives c r = [])
    (hbad : ∀ r, c.refuses r = true → wp books.monitor (f r) Q ⟨held, some c⟩)
    (hgood : ∀ r, c.refuses r = false → wp books.monitor (f r) Q ⟨held, none⟩) :
    wp books.monitor (query c >>= f) Q ⟨held, none⟩ := by
  refine (wp_bind _ _).mpr ⟨⟨hneeds, ?_, fun _ h => (nomatch h)⟩, fun r => ?_⟩
  · intro r x hx
    rw [htakes] at hx
    exact absurd hx List.not_mem_nil
  · show wp books.monitor (f r) Q (books.monitor.after ⟨held, none⟩ c r)
    rw [Books.after_of_gives_nil (hgives r), htakes, List.append_nil]
    show wp books.monitor (f r) Q ⟨held, if c.refuses r then some c else none⟩
    split_ifs with h
    · exact hbad r h
    · exact hgood r (Bool.eq_false_iff.mpr h)

/-- A command without any effect on the books, whose return code is not looked at. -/
theorem wp_unheeded {ref : Option MppCall} (hneeds : ∀ x ∈ c.needs, x ∈ held)
    (htakes : c.takes = [])
    (hgives : c.gives = []) (hfollows : ∀ k, ref = some k → k.follows c = true)
    (hunheeded : c.unheeded = true) (h : ∀ ret, wp books.monitor (f ret) Q ⟨held, ref⟩) :
    wp books.monitor (mpi c >>= f) Q ⟨held, ref⟩ := by
  refine wp_cleanup hneeds htakes hfollows (.inl hunheeded) (fun ret _ => ?_) fun _ ret _ => h ret
  simp only [hgives, List.not_mem_nil, not_false_eq_true, decide_true, List.filter_true]
  exact h ret

/-- What is given back was acquired last. -/
theorem filter_gives {gives : List Resource} (hfresh : gives.Disjoint held) :
    (held ++ xs).filter (· ∉ gives) = held ++ xs.filter (· ∉ gives) := by
  rw [List.filter_append]
  congr 1
  exact List.filter_eq_self.mpr fun x hx => decide_eq_true fun hg => hfresh hg hx

theorem wp_cleanup_return {e : α} {k : MppCall} (hneeds : ∀ x ∈ c.needs, x ∈ held ++ xs)
    (htakes : c.takes = []) (hfollows : k.follows c = true) (hunheeded : c.unheeded = true)
    (hgives : c.gives.Disjoint held) (hdone : Q e ⟨held ++ xs.filter (· ∉ c.gives), some k⟩)
    (hkept : Q e ⟨held ++ xs, some k⟩) :
    wp books.monitor (mpi c >>= fun _ => pure e) Q ⟨held ++ xs, some k⟩ := by
  refine wp_cleanup hneeds htakes ?_ (.inl hunheeded) (fun _ _ => ?_) (fun _ _ _ => hkept)
  · rintro _ ⟨⟩
    exact hfollows
  · rw [filter_gives hgives]
    exact hdone

end Eye
