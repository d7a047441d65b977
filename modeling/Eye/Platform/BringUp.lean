import Eye.Platform.InputBringUp

/-!
# What is up after `init`

`videoProcessHi::init` has no way back: a function that fails returns, and so do its callers.
`init_outcome` says what that amounts to, whatever the drivers answer. The pipeline comes up in one
fixed order, `inventory`; every call is made where what it needs is there; after the first answer
that the code takes for a refusal only the clean-up of the function that met it follows (and the
callback of a sensor object without `pfn_set_bus_info`). Where `init` succeeds, all of `inventory`
is up. Where it fails, the first few entries of it are, and they stay up, unless it was the binding
of the input to VPSS that failed: `bind_vi_vpss` then takes VPSS down, but it leaves channel 2 out.

Answers that the code does not look at are no refusals (`MppCall.refuses`): `init` goes on after
them, and may succeed.

The encoder channels are the part that cleans up after itself (`commVencStart_allOrNothing`).
-/

namespace Eye

open Calls

variable {held : List Resource}

/-! ## The encoder -/

theorem miniBufLoop_bringsUp {l : List PayLoadType} (hl : .max ∉ l) (modParam : VencModParam) :
    BringsUp books Failed (miniBufLoop l modParam) held [] := by
  induction l generalizing modParam with
  | nil => exact BringsUp.pure (by decide)
  | cons i rest ih =>
    obtain ⟨hi, hrest⟩ := not_or.mp (List.mem_cons.not.mp hl)
    have htype : (commVencSetModType i modParam).1 = TD_SUCCESS := by
      cases i <;> first | rfl | exact absurd rfl hi
    have hbuf : ∀ m, (commVencSetMiniBuf i m).1 = TD_SUCCESS := by
      cases i <;> first | exact fun _ => rfl | exact absurd rfl hi
    unfold miniBufLoop
    rw [htype, if_neg (fun h => h rfl)]
    refine BringsUp.start ?_
    refine wp_query (List.forall_mem_nil _) (fun _ => rfl) (fun _ => rfl) ?_ ?_
    · rintro (got : Int32 × VencModParam) hgot
      rw [if_pos (of_decide_eq_true hgot)]
      exact .bad failed_failure List.nil_prefix
    · rintro (got : Int32 × VencModParam) hgot
      rw [if_neg (of_decide_eq_false hgot), hbuf, if_neg (fun h => h rfl)]
      refine wp_mpi_check ⟨by simp, by simp, rfl, rfl⟩ (fun _ _ => failed_failure)
        List.nil_prefix ?_
      show wp books.monitor (miniBufLoop rest _) _ ⟨held ++ [], none⟩
      rw [List.append_nil]
      exact ih hrest _

/-- The size is in the table, and `comm_venc_channel_param_init` accepts the parameters. -/
def VencChnParam.Accepted (p : VencChnParam) : Prop :=
  ∃ size p' a, picSizeArray p.size = some size ∧
    commVencChannelParamInit { p with vencSize := size } blankChannel = some (.success, p', a)

theorem commVencCloseReencode_wp {chn : Int32} (hchn : .vencChn chn ∈ held) :
    wp books.monitor (commVencCloseReencode chn)
      (fun ret s => (ret ≠ TD_SUCCESS ∧ ∃ k : MppCall, k.follows (.vencDestroyChn chn) = true ∧
          s = ⟨held, some k⟩) ∨ ret = TD_SUCCESS ∧ s = ⟨held, none⟩)
      ⟨held, none⟩ := by
  unfold commVencCloseReencode
  refine wp_query (List.forall_mem_singleton.mpr hchn) (fun _ => rfl) (fun _ => rfl) ?_ ?_
  · rintro (attr : Int32 × ChnRcMode) hattr
    rw [if_pos (of_decide_eq_true hattr)]
    exact .inl ⟨failed_failure, .vencGetChnAttr chn, decide_eq_true rfl, rfl⟩
  rintro (attr : Int32 × ChnRcMode) hattr
  rw [if_neg (of_decide_eq_false hattr)]
  refine wp_query (List.forall_mem_singleton.mpr hchn) (fun _ => rfl) (fun _ => rfl) ?_ ?_
  · rintro (param : Int32 × VencRcParam) hparam
    rw [if_pos (of_decide_eq_true hparam)]
    exact .inl ⟨failed_failure, .vencGetRcParam chn, decide_eq_true rfl, rfl⟩
  rintro (param : Int32 × VencRcParam) hparam
  rw [if_neg (of_decide_eq_false hparam)]
  by_cases hmode : attr.2.reencodes = false
  · rw [if_pos hmode]
    exact .inr ⟨rfl, rfl⟩
  rw [if_neg hmode, ← List.append_nil held]
  refine wp_mpi ⟨by simpa using hchn, by simp, rfl, rfl⟩ (fun ret hret => ?_) ?_
  · rw [if_pos hret]
    exact .inl ⟨failed_failure, .command (.vencSetRcParam chn _), decide_eq_true rfl, rfl⟩
  · exact .inr ⟨rfl, rfl⟩

theorem channelParamInit_eq {p : VencChnParam} {r : VencResult × VencChnParam × VencChnAttr}
    (h : commVencChannelParamInit p blankChannel = some r) : channelParamInit p = pure r := by
  unfold channelParamInit
  rw [h]

theorem commVencCreate_bringsUp {chn : Int32} {p : VencChnParam} (hp : p.Accepted)
    (hfresh : (Command.vencDestroyChn chn).gives.Disjoint held) :
    BringsUp books Failed (commVencCreate chn p) held [.vencChn chn] := by
  obtain ⟨size, p', a, hsize, hinit⟩ := hp
  have hchn : Resource.vencChn chn ∉ held := fun h => hfresh List.mem_cons_self h
  unfold commVencCreate
  rw [hsize]
  refine BringsUp.start ?_
  have hcode : (VencResult.success, p', a).1.code = TD_SUCCESS := rfl
  refine (wp_bind _ _).mpr ?_
  rw [channelParamInit_eq hinit, wp_pure, if_neg (not_not_intro hcode)]
  refine wp_mpi_check ⟨by simp, by simpa using hchn, rfl, rfl⟩ failed_self List.nil_prefix ?_
  by_cases htype : p.type = .jpeg
  · rw [if_pos htype]
    exact Outcome.good (by decide)
  rw [if_neg htype]
  refine (wp_bind _ _).mpr (wp.mono (commVencCloseReencode_wp (by simp)) ?_)
  rintro ret s (⟨hret, k, hk, rfl⟩ | ⟨rfl, rfl⟩)
  · rw [if_pos hret]
    exact wp_cleanup_return (by simp) rfl hk rfl hfresh (.bad hret ⟨[.vencChn chn], by simp⟩)
      (.bad hret ⟨_, rfl⟩)
  · rw [if_neg (fun h => h rfl)]
    exact Outcome.good (by decide)

/-- The channel is there and receives pictures, or there is none, unless its destruction failed. -/
theorem commVencStart_wp {chn : Int32} {p : VencChnParam} (hp : p.Accepted)
    (hfresh : (Command.vencDestroyChn chn).gives.Disjoint held) :
    wp books.monitor (commVencStart chn p)
      (fun ret s => (ret = TD_SUCCESS ∧ s = ⟨held ++ [.vencChn chn, .vencRun chn], none⟩) ∨
        ret = TD_FAILURE ∧ ∃ k xs, xs <+: [.vencChn chn] ∧ s = ⟨held ++ xs, some k⟩)
      ⟨held ++ [], none⟩ := by
  have hrun : Resource.vencRun chn ∉ held :=
    fun h => hfresh (List.mem_cons_of_mem _ List.mem_cons_self) h
  unfold commVencStart
  refine (commVencCreate_bringsUp hp (by simpa using hfresh)).wp_bind
    (fun _ k zs _ hzs => .inr ⟨rfl, k, zs, hzs, rfl⟩) fun _ _ => ?_
  refine wp_mpi ⟨by simp, by simp [hrun], rfl, rfl⟩ (fun ret hret => ?_) ?_
  · rw [if_pos hret]
    exact wp_cleanup_return (by simp) rfl (decide_eq_true rfl) rfl hfresh
      (.inr ⟨rfl, _, _, ⟨[.vencChn chn], by simp⟩, rfl⟩) (.inr ⟨rfl, _, _, List.prefix_refl _, rfl⟩)
  · exact .inl ⟨rfl, rfl⟩

theorem commVencStart_bringsUp {chn : Int32} {p : VencChnParam} (hp : p.Accepted)
    (hfresh : (Command.vencDestroyChn chn).gives.Disjoint held) :
    BringsUp books Failed (commVencStart chn p) held [.vencChn chn, .vencRun chn] := by
  refine BringsUp.start (wp.mono (commVencStart_wp hp hfresh) ?_)
  rintro ret s (⟨rfl, rfl⟩ | ⟨rfl, k, xs, hxs, rfl⟩)
  · exact .good (by decide)
  · exact .bad failed_failure (hxs.trans (List.prefix_append ..))

theorem VencResult.code_eq {r : VencResult} : r.code = TD_SUCCESS ↔ r = .success := by
  cases r <;> decide

theorem commVencCreate_unaccepted {chn : Int32} {p : VencChnParam} (hp : ¬ p.Accepted)
    (hgop : ∀ bg d v, p.gopAttr = .smartP bg d v → p.gop ≠ 0) :
    ∃ ret, ret ≠ TD_SUCCESS ∧ commVencCreate chn p = pure ret := by
  unfold commVencCreate
  cases hsize : picSizeArray p.size with
  | none => exact ⟨TD_FAILURE, failed_failure, rfl⟩
  | some size =>
    have hinit :
        ∃ r, commVencChannelParamInit { p with vencSize := size } blankChannel = some r := by
      unfold commVencChannelParamInit
      rw [computeStatsTime_eq (p := { p with vencSize := size }) hgop]
      exact ⟨_, rfl⟩
    obtain ⟨r, hinit⟩ := hinit
    have hr : r.1 ≠ .success := by
      rintro h
      exact hp ⟨size, r.2.1, r.2.2, hsize, by rw [hinit, ← h]⟩
    have hcode : r.1.code ≠ TD_SUCCESS := fun h => hr (VencResult.code_eq.mp h)
    refine ⟨r.1.code, hcode, ?_⟩
    show (channelParamInit _ >>= _) = _
    rw [channelParamInit_eq hinit]
    exact if_pos hcode

theorem commVencStart_unaccepted {chn : Int32} {p : VencChnParam} (hp : ¬ p.Accepted)
    (hgop : ∀ bg d v, p.gopAttr = .smartP bg d v → p.gop ≠ 0) :
    commVencStart chn p = pure TD_FAILURE := by
  obtain ⟨ret, hret, hcreate⟩ : ∃ ret, ret ≠ TD_SUCCESS ∧ commVencCreate chn p = pure ret :=
    commVencCreate_unaccepted hp hgop
  unfold commVencStart
  rw [hcreate]
  exact if_pos hret

/-- **Starting an encoder channel is all or nothing.** Whatever the parameters, and whatever the
driver answers: the channel is set up and receives pictures; or the call fails, without any call
to the driver where the parameters are not accepted. Where they are, it fails only after a call that
the driver refused, nothing receives pictures, and at most the channel that was created is left. -/
theorem commVencStart_allOrNothing {chn : Int32} {p : VencChnParam} {held : List Resource}
    (hgop : ∀ bg d v, p.gopAttr = .smartP bg d v → p.gop ≠ 0)
    (hfresh : ∀ x ∈ [Resource.vencChn chn, .vencRun chn], x ∉ held) {l} {ret : Int32}
    (hrun : Run (commVencStart chn p) l ret) :
    books.monitor.Allows ⟨held, none⟩ l ∧
      (ret = TD_SUCCESS ∧ p.Accepted ∧ books.monitor.final ⟨held, none⟩ l =
          ⟨held ++ [.vencChn chn, .vencRun chn], none⟩ ∨
        ret = TD_FAILURE ∧ (¬ p.Accepted ∧ l = [] ∨ p.Accepted ∧ ∃ k xs, xs <+: [.vencChn chn] ∧
          books.monitor.final ⟨held, none⟩ l = ⟨held ++ xs, some k⟩)) := by
  by_cases hp : p.Accepted
  · have hwp := commVencStart_wp hp fun x hx hheld => hfresh x hx hheld
    rw [List.append_nil] at hwp
    obtain ⟨hallows, ⟨hret, hfinal⟩ | ⟨hret, hleft⟩⟩ := hwp.sound hrun
    · exact ⟨hallows, .inl ⟨hret, hp, hfinal⟩⟩
    · exact ⟨hallows, .inr ⟨hret, .inr ⟨hp, hleft⟩⟩⟩
  · rw [commVencStart_unaccepted hp hgop] at hrun
    cases hrun
    exact ⟨trivial, .inr ⟨rfl, .inl ⟨hp, rfl⟩⟩⟩

theorem bindVpssVenc_bringsUp {grp chn venc : Int32} (hchn : .vpssChn grp chn ∈ held)
    (hvenc : .vencChn venc ∈ held)
    (hfresh : .binding ⟨.vpss, grp, chn⟩ ⟨.venc, 0, venc⟩ ∉ held) :
    BringsUp books Failed (bindVpssVenc grp chn venc) held
      [.binding ⟨.vpss, grp, chn⟩ ⟨.venc, 0, venc⟩] := by
  unfold bindVpssVenc
  refine BringsUp.start ?_
  refine wp_mpi_check ⟨?_, by simpa using hfresh, rfl, rfl⟩ (fun _ _ => failed_failure)
    List.nil_prefix ?_
  · simp [MppChn.asSrc, MppChn.asDest, hchn, hvenc]
  · exact Outcome.good (by decide)

/-- What `venc_start_encode` brings up. -/
def vencOrder (grp : Int32) : List Resource :=
  [.vencChn 0, .vencRun 0, .binding ⟨.vpss, grp, 0⟩ ⟨.venc, 0, 0⟩,
    .vencChn 1, .vencRun 1, .binding ⟨.vpss, grp, 1⟩ ⟨.venc, 0, 1⟩,
    .vencChn 2, .vencRun 2, .binding ⟨.vpss, grp, 1⟩ ⟨.venc, 0, 2⟩]

theorem startChannels_bringsUp {grp : Int32} {p0 p1 p2 : VencChnParam} (h0 : p0.Accepted)
    (h1 : p1.Accepted) (h2 : p2.Accepted) (hchn0 : .vpssChn grp 0 ∈ held)
    (hchn1 : .vpssChn grp 1 ∈ held) (hfresh : (vencOrder grp).Disjoint held) :
    BringsUp books Failed (startChannels grp p0 p1 p2) held (vencOrder grp) := by
  simp only [vencOrder, List.disjoint_cons_left] at hfresh
  unfold startChannels
  refine BringsUp.start ?_
  refine (commVencStart_bringsUp h0 (by simp [hfresh])).wp_check (fun _ _ => failed_failure)
    ⟨_, rfl⟩ fun _ _ => ?_
  refine (bindVpssVenc_bringsUp (by simp [hchn0, vpssChn0]) (by simp)
    (by simp [hfresh, vpssChn0])).wp_check (fun _ _ => failed_failure) ⟨_, rfl⟩ fun _ _ => ?_
  refine (commVencStart_bringsUp h1 (by simp [hfresh])).wp_check (fun _ _ => failed_failure)
    ⟨_, rfl⟩ fun _ _ => ?_
  refine (bindVpssVenc_bringsUp (by simp [hchn1, vpssChn1]) (by simp)
    (by simp [hfresh, vpssChn0, vpssChn1])).wp_check (fun _ _ => failed_failure) ⟨_, rfl⟩
    fun _ _ => ?_
  refine (commVencStart_bringsUp h2 (by simp [hfresh])).wp_check (fun _ _ => failed_failure)
    ⟨_, rfl⟩ fun _ _ => ?_
  refine (bindVpssVenc_bringsUp (by simp [hchn1, vpssChn1]) (by simp)
    (by simp [hfresh, vpssChn0, vpssChn1])).wp_check (fun _ _ => failed_failure) ⟨_, rfl⟩
    fun _ h => ?_
  exact Outcome.good h

theorem vencVideoParam_accepted {frameRate : UInt32} {type : PayloadType} {size : PicSize}
    {ipQpDelta : Int32} (htype : type = .h265 ∨ type = .h264 ∨ type = .mjpeg)
    (hsize : (picSizeArray size).isSome = true) :
    (vencVideoParam frameRate type size (.normalP ipQpDelta)).Accepted := by
  obtain ⟨s, hs⟩ := Option.isSome_iff_exists.mp hsize
  rcases htype with rfl | rfl | rfl <;> exact ⟨s, _, _, hs, rfl⟩

theorem vencStartEncode_bringsUp {grp : Int32} (hchn0 : .vpssChn grp 0 ∈ held)
    (hchn1 : .vpssChn grp 1 ∈ held) (hfresh : (vencOrder grp).Disjoint held) :
    BringsUp books Failed (vencStartEncode grp) held (vencOrder grp) := by
  unfold vencStartEncode
  refine BringsUp.start ?_
  refine (miniBufLoop_bringsUp (by decide) _).wp_check (fun _ _ => failed_failure) List.nil_prefix
    fun _ _ => ?_
  show wp books.monitor (startChannels grp _ _ _) _ ⟨held ++ [], none⟩
  rw [List.append_nil]
  exact startChannels_bringsUp (vencVideoParam_accepted (.inl rfl) rfl)
    (vencVideoParam_accepted (.inr (.inl rfl)) rfl) (vencVideoParam_accepted (.inr (.inr rfl)) rfl)
    hchn0 hchn1 hfresh

/-! ## The pipeline -/

/-- What is up before VPSS. -/
def inputOrder : List Resource := sysOrder ++ (viOrder 0 0 ++ ispOrder 0)

/-- Everything that `init` brings up, in order. -/
def inventory : List Resource :=
  inputOrder ++ (vpssOrder 0 ++ [.binding ⟨.vi, 0, 0⟩ ⟨.vpss, 0, 0⟩]) ++ vencOrder 0

/-- How `init` ends. -/
inductive InitOutcome (ret : Int32) : Account MppCall Resource → Prop
  | up (h : ret = TD_SUCCESS) : InitOutcome ret ⟨inventory, none⟩
  | stopped {k : MppCall} {xs : List Resource} (h : ret ≠ TD_SUCCESS) (hxs : xs <+: inventory) :
    InitOutcome ret ⟨xs, some k⟩
  | unbound {n : ℕ} (h : ret ≠ TD_SUCCESS) (hn : n ≤ 4) :
    InitOutcome ret ⟨inputOrder ++ vpssLeft 0 n, some (.command (viToVpss 0 0 0 0))⟩

theorem init_wp (sizes : BufSizes) (v : VideoProcessHi) :
    wp books.monitor (v.init sizes) (fun r s => InitOutcome r.1 s) ⟨[] ++ [], none⟩ := by
  unfold VideoProcessHi.init
  refine (hiMppSysInit_bringsUp sizes v (by simp)).wp_bind ?_ fun r _ => ?_
  · intro r k zs hr hzs
    exact .stopped hr (hzs.trans ⟨_, rfl⟩)
  refine (hiMppViInit_bringsUp r.2 0 (by simp [sysOrder]) ?_).wp_bind ?_ fun _ _ => ?_
  · simp [sysOrder, viOrder, ispOrder]
  · intro r k zs hr hzs
    exact .stopped hr (((List.prefix_append_right_inj sysOrder).mpr hzs).trans ⟨_, rfl⟩)
  refine (initVpssModule_bringsUp r.2 (by decide) ?_).wp_bind ?_ fun _ _ => ?_
  · simp [sysOrder, viOrder, ispOrder, vpssOrder]
  · intro r k zs hr hzs
    exact .stopped hr (((List.prefix_append_right_inj inputOrder).mpr hzs).trans ⟨_, rfl⟩)
  show wp books.monitor _ _ ⟨inputOrder ++ vpssOrder 0, none⟩
  refine (wp_bind _ _).mpr (wp.mono (bindViVpss_wp ?_ ?_ ?_) ?_)
  · simp [inputOrder, sysOrder, viOrder, ispOrder, vpssOrder]
  · simp [inputOrder, viOrder]
  · simp [inputOrder, sysOrder, viOrder, ispOrder]
  rintro ret s (⟨hret, n, hn, rfl⟩ | ⟨rfl, rfl⟩)
  · rw [if_pos hret]
    exact .unbound hret hn
  rw [if_neg (fun h => h rfl), ← List.append_nil (inputOrder ++ _)]
  refine (vencStartEncode_bringsUp ?_ ?_ ?_).wp_bind ?_ fun _ h => ?_
  · simp [vpssOrder]
  · simp [vpssOrder]
  · simp [inputOrder, sysOrder, viOrder, ispOrder, vpssOrder, vencOrder]
  · intro r k zs hr hzs
    exact .stopped hr ((List.prefix_append_right_inj _).mpr hzs)
  · exact .up (not_not.mp h)

/-- **What is up after `init`.** Whatever the drivers, the kernel and the sensor answer, and for
both settings of the two flags, every call of `init` is made where what it needs is up and what it
takes is not. After the first answer that the code takes for a refusal only the clean-up of the
function that met it follows, or the callback of a sensor object without `pfn_set_bus_info`. If
`init` succeeds, nothing was refused so and all of `inventory` is up. If it fails, a call was
refused, and what is up, and stays up, is the first few entries of `inventory`; or, where the input
could not be bound to VPSS, what `vpss_stop` leaves of VPSS, channel 2 always among it. -/
theorem init_outcome (sizes : BufSizes) (v : VideoProcessHi) {l} {r : Int32 × VideoProcessHi}
    (hrun : Run (v.init sizes) l r) :
    books.monitor.Allows ⟨[], none⟩ l ∧ InitOutcome r.1 (books.monitor.final ⟨[], none⟩ l) :=
  (init_wp sizes v).sound hrun

/-- Every call succeeds but the binding of the input to VPSS. -/
def refuseBinding : (c : MppCall) → Option c.Answer
  | .command c => some (if c = viToVpss 0 0 0 0 then TD_FAILURE else TD_SUCCESS : Int32)
  | .openMipi => some (3 : Int32)
  | .sysGetVpssVencWrapBufLine _ => some (TD_SUCCESS, 0)
  | .sysGetViVpssMode => some (TD_SUCCESS, [])
  | .ispGetCtrlParam _ => some (TD_SUCCESS, ⟨0, []⟩)
  | .viGetPipe3dnrAttr _ => some (TD_SUCCESS, ⟨false⟩)
  | .snsGetObj => some (some ⟨true, true⟩)
  | .startIspThread _ => some ()
  | .vencGetModParam param => some (TD_SUCCESS, param)
  | .vencGetChnAttr _ => some (TD_SUCCESS, .venc .h265Cbr)
  | .vencGetRcParam _ => some (TD_SUCCESS, ⟨3, []⟩)
  | .divideByZero => none

/-- VPSS is taken down, and channel 2 is left. -/
theorem init_outcome_unbound :
    ∃ l r, Run (VideoProcessHi.new.init ⟨fun w h => w * h, fun w _ line => w * line⟩) l r ∧
      InitOutcome r.1 (books.monitor.final ⟨[], none⟩ l) ∧
      books.monitor.final ⟨[], none⟩ l =
        ⟨inputOrder ++ [.vpssChn 0 2], some (.command (viToVpss 0 0 0 0))⟩ := by
  have hsome : ((VideoProcessHi.new.init ⟨fun w h => w * h, fun w _ line => w * line⟩).exec
      refuseBinding).isSome = true := by decide +kernel
  have hrun := run_of_exec (Option.some_get hsome).symm
  exact ⟨_, _, hrun, (init_outcome _ _ hrun).2, by rfl⟩

/-- Channel 2, H264 at 1080p, started by the driver at once. -/
theorem commVencStart_allOrNothing_fullHd :
    ∃ l ret, Run (commVencStart 2 (fullHd .h264 .cbr (.normalP 2))) l ret ∧
      books.monitor.Allows ⟨[], none⟩ l ∧ l.length = 5 := by
  have hsome : ((commVencStart 2 (fullHd .h264 .cbr (.normalP 2))).exec
      refuseBinding).isSome = true := by decide +kernel
  have hrun := run_of_exec (Option.some_get hsome).symm
  refine ⟨_, _, hrun, (commVencStart_allOrNothing ?_ ?_ hrun).1, by rfl⟩
  · rintro _ _ _ ⟨⟩
  · exact fun _ _ => List.not_mem_nil

end Eye
