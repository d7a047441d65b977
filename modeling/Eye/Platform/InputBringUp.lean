import Eye.Platform.Books

/-!
# Bringing up the input and VPSS

Each function up to `init_vpss_module` acquires its resources in a fixed order and stops at the
first refusal; `BringsUp` says so, with the order. The MIPI device is open for no longer than it is
used. Where the input cannot be bound to VPSS, `vpss_stop` takes VPSS down as far as the driver lets
it, but channel 2 is not among the channels it is told to disable (`vpssLeft`).
-/

namespace Eye

open Calls

variable {c : Command} {held : List Resource}

/-! ## The media system -/

/-- What `hi_mpp_sys_init` brings up. -/
def sysOrder : List Resource := [.vbPools, .mppSys]

theorem startSys_bringsUp (cfg : VbCfg) (hfresh : sysOrder.Disjoint held) :
    BringsUp books Failed (startSys cfg) held sysOrder := by
  simp only [sysOrder, List.disjoint_cons_left] at hfresh
  unfold startSys
  refine BringsUp.start ?_
  refine wp_mpi_check ⟨by simp, by simp, rfl, rfl⟩ failed_self ⟨_, rfl⟩ ?_
  refine wp_mpi_check ⟨by simp, by simp, rfl, rfl⟩ failed_self ⟨_, rfl⟩ ?_
  refine wp_mpi_check ⟨by simp, by simp, rfl, rfl⟩ failed_self ⟨_, rfl⟩ ?_
  refine wp_mpi_check ⟨by simp, by simp [hfresh], rfl, rfl⟩ failed_self ⟨_, rfl⟩ ?_
  refine wp_mpi_check ⟨by simp, by simp, rfl, rfl⟩ failed_self ⟨_, rfl⟩ ?_
  refine wp_mpi_check ⟨by simp, by simp [hfresh], rfl, rfl⟩ failed_self ⟨_, rfl⟩ ?_
  exact Outcome.good fun h => h rfl

theorem wrapCfg_wp (sizes : BufSizes) (v : VideoProcessHi) :
    wp books.monitor (v.wrapCfg sizes) (fun _ s => s = ⟨held, none⟩) ⟨held, none⟩ := by
  unfold VideoProcessHi.wrapCfg
  split_ifs
  · unfold commVpssGetWrapCfg
    rw [wp_bind]
    refine wp_query (List.forall_mem_nil _) (fun _ => rfl) (fun _ => rfl) (fun _ h => nomatch h) ?_
    rintro (line : Int32 × UInt32) -
    split_ifs <;> rfl
  · rfl

theorem hiMppSysInit_bringsUp (sizes : BufSizes) (v : VideoProcessHi)
    (hfresh : sysOrder.Disjoint held) :
    BringsUp books (fun r => Failed r.1) (hiMppSysInit sizes v) held sysOrder := by
  refine (wp_bind _ _).mpr (wp.mono (wrapCfg_wp sizes v) ?_)
  rintro v' _ rfl
  refine (wp_bind _ _).mpr (wp.mono (startSys_bringsUp _ hfresh) ?_)
  rintro ret s (hgood | ⟨hbad, hxs⟩)
  · exact .good hgood
  · exact .bad hbad hxs

/-! ## The video input -/

theorem setViVpssMode_bringsUp (mode : ViVpssMode) :
    BringsUp books Failed (setViVpssMode mode) held [] := by
  unfold setViVpssMode
  refine BringsUp.start ?_
  refine wp_query (List.forall_mem_nil _) (fun _ => rfl) (fun _ => rfl) ?_ ?_
  · rintro (got : Int32 × List ViVpssMode) hgot
    rw [if_pos (of_decide_eq_true hgot)]
    exact .bad failed_failure List.nil_prefix
  · rintro (got : Int32 × List ViVpssMode) hgot
    rw [if_neg (of_decide_eq_false hgot)]
    refine wp_mpi_check ⟨by simp, by simp, rfl, rfl⟩ (fun _ _ => failed_failure) List.nil_prefix ?_
    exact Outcome.good (by decide)

/-- Whatever the device answers, it is open for as long as it is used, and closed at the end. -/
theorem mipiRequests_wp {fd : Int32} (hfd : Resource.mipiFd fd ∉ held)
    (requests : List MipiRequest) :
    wp books.monitor (mipiRequests fd requests) (Outcome Failed held [])
      ⟨held ++ [.mipiFd fd], none⟩ := by
  have hclosed : (held ++ [Resource.mipiFd fd]).filter (· ∉ (Command.close fd).gives) = held := by
    rw [filter_gives (by simpa using hfd)]
    simp
  induction requests with
  | nil =>
    unfold mipiRequests
    refine wp_cleanup (by simp) rfl (fun _ h => nomatch h) (.inl rfl) (fun _ _ => ?_) nofun
    rw [hclosed]
    exact Outcome.nothing (by decide)
  | cons request rest ih =>
    unfold mipiRequests
    refine wp_mpi ⟨by simp, by simp, rfl, rfl⟩ (fun ret hret => ?_) ?_
    · rw [if_pos hret]
      refine wp_cleanup (by simp) rfl ?_ (.inl rfl) (fun _ _ => ?_) nofun
      · rintro _ ⟨⟩
        exact decide_eq_true rfl
      · rw [hclosed]
        exact Outcome.stopped failed_failure
    · exact ih

theorem commViStartMipi_bringsUp (hfresh : ∀ fd, Resource.mipiFd fd ∉ held) :
    BringsUp books Failed commViStartMipi held [] := by
  refine (wp_bind _ _).mpr ⟨⟨List.forall_mem_nil _, ?_, fun _ h => (nomatch h)⟩, ?_⟩
  · intro (fd : Int32) x hx
    change x ∈ (if fd < 0 then [] else [Resource.mipiFd fd]) at hx
    split_ifs at hx
    · cases hx
    · rw [List.mem_singleton.mp hx]
      exact hfresh fd
  · intro (fd : Int32)
    show wp books.monitor (if fd < 0 then _ else _) _ ⟨held.filter (· ∉ []) ++
      (if fd < 0 then [] else [Resource.mipiFd fd]),
      if decide (fd < 0) then some .openMipi else none⟩
    simp only [List.not_mem_nil, not_false_eq_true, decide_true, List.filter_true]
    by_cases h : fd < 0
    · rw [if_pos h, if_pos h, if_pos (decide_eq_true h)]
      exact .bad failed_failure List.nil_prefix
    · rw [if_neg h, if_neg h, if_neg (by rw [decide_eq_false h]; exact Bool.false_ne_true)]
      exact mipiRequests_wp (hfresh fd) _

/-- What `comm_vi_create_vi` brings up. -/
def viOrder (pipe chn : Int32) : List Resource :=
  [.viDev pipe, .viBound pipe pipe, .viPipe pipe, .viPipeRun pipe, .viChn pipe chn]

/-- The device and the pipe must have the same number: the pipe is created under the device's. -/
theorem commViCreateVi_bringsUp (pipe chn : Int32) (hfresh : (viOrder pipe chn).Disjoint held) :
    BringsUp books Failed (commViCreateVi pipe pipe chn) held (viOrder pipe chn) := by
  simp only [viOrder, List.disjoint_cons_left] at hfresh
  have hgives : (Command.viDestroyPipe pipe).gives.Disjoint held := by simp [hfresh]
  unfold commViCreateVi
  refine BringsUp.start ?_
  refine wp_mpi_check ⟨by simp, by simp, rfl, rfl⟩ failed_self ⟨_, rfl⟩ ?_
  refine wp_mpi_check ⟨by simp, by simp [hfresh], rfl, rfl⟩ failed_self ⟨_, rfl⟩ ?_
  refine wp_mpi_check ⟨by simp, by simp [hfresh], rfl, rfl⟩ failed_self ⟨_, rfl⟩ ?_
  refine wp_mpi_check ⟨by simp, by simp [hfresh], rfl, rfl⟩ failed_self ⟨_, rfl⟩ ?_
  refine wp_mpi ⟨by simp, by simp [hfresh], rfl, rfl⟩ (fun ret hret => ?_) ?_
  · rw [if_pos hret]
    exact wp_cleanup_return (by simp) rfl (decide_eq_true rfl) rfl hgives
      (.bad hret ⟨[.viPipe pipe, .viPipeRun pipe, .viChn pipe chn], by simp [viOrder]⟩)
      (.bad hret ⟨_, rfl⟩)
  rw [if_neg (fun h => h rfl)]
  refine wp_mpi ⟨by simp, by simp, rfl, rfl⟩ (fun ret hret => ?_) ?_
  · rw [if_pos hret]
    exact wp_cleanup_return (by simp) rfl (decide_eq_true rfl) rfl hgives
      (.bad hret ⟨[.viPipe pipe, .viPipeRun pipe, .viChn pipe chn], by simp [viOrder]⟩)
      (.bad hret ⟨_, rfl⟩)
  rw [if_neg (fun h => h rfl)]
  refine wp_mpi_check ⟨by simp, by simp [hfresh], rfl, rfl⟩ failed_self ⟨_, rfl⟩ ?_
  refine wp_query (List.forall_mem_singleton.mpr (by simp)) (fun _ => rfl) (fun _ => rfl)
    (fun _ h => nomatch h) ?_
  rintro (got : Int32 × DnrAttr) -
  refine wp_mpi_check ⟨by simp, by simp, rfl, rfl⟩ failed_self ⟨_, rfl⟩ ?_
  exact Outcome.good (by decide)

/-- What `comm_vi_create_isp` brings up. -/
def ispOrder (pipe : Int32) : List Resource :=
  [.aeLib pipe, .awbLib pipe, .ispMem pipe, .isp pipe, .ispThread pipe]

theorem refuses_snsGetObj (obj : SnsObj) :
    MppCall.refuses .snsGetObj (some obj) = (!obj.pfnRegisterCallback || !obj.pfnSetBusInfo) := rfl

theorem commIspRun_bringsUp (pipe : Int32) (hisp : .isp pipe ∈ held)
    (hfresh : .ispThread pipe ∉ held) :
    BringsUp books Failed (commIspRun pipe) held [.ispThread pipe] := by
  refine (wp_bind _ _).mpr ⟨⟨List.forall_mem_singleton.mpr hisp, ?_, fun _ h => (nomatch h)⟩, ?_⟩
  · intro _ x hx
    rw [List.mem_singleton.mp hx]
    exact hfresh
  · intro r
    rw [Books.after_of_gives_nil rfl]
    exact Outcome.good (by decide)

theorem commViCreateIsp_bringsUp (pipe : Int32) (hfresh : (ispOrder pipe).Disjoint held) :
    BringsUp books Failed (commViCreateIsp pipe) held (ispOrder pipe) := by
  simp only [ispOrder, List.disjoint_cons_left] at hfresh
  unfold commViCreateIsp
  refine BringsUp.start ?_
  refine wp_mpi_check ⟨by simp, by simp, rfl, rfl⟩ (fun _ _ => failed_failure) ⟨_, rfl⟩ ?_
  refine wp_query (List.forall_mem_nil _) (fun _ => rfl) (fun _ => rfl) ?_ ?_
  · rintro (_ | ⟨registers, sets⟩) h
    · exact .bad failed_failure ⟨_, rfl⟩
    · cases registers
      · exact .bad failed_failure ⟨_, rfl⟩
      · -- the callback is registered before `pfn_set_bus_info` turns out to be missing
        rw [refuses_snsGetObj] at h
        cases sets
        · refine wp_unheeded (by simp) rfl rfl (fun k hk => ?_) rfl fun _ => ?_
          · cases hk
            rfl
          · exact .bad failed_failure ⟨_, rfl⟩
        · cases h
  · rintro (_ | ⟨registers, sets⟩) h
    · cases h
    · rw [refuses_snsGetObj] at h
      cases registers <;> cases sets <;> cases h
      refine wp_unheeded (by simp) rfl rfl (fun _ hk => nomatch hk) rfl fun _ => ?_
      refine wp_unheeded (by simp) rfl rfl (fun _ hk => nomatch hk) rfl fun _ => ?_
      refine wp_mpi_check ⟨by simp, by simp [hfresh], rfl, rfl⟩ (fun _ _ => failed_failure)
        ⟨_, rfl⟩ ?_
      refine wp_mpi_check ⟨by simp, by simp [hfresh], rfl, rfl⟩ (fun _ _ => failed_failure)
        ⟨_, rfl⟩ ?_
      refine wp_mpi_check ⟨by simp, by simp [hfresh], rfl, rfl⟩ (fun _ _ => failed_failure)
        ⟨_, rfl⟩ ?_
      refine wp_mpi_check ⟨by simp, by simp, rfl, rfl⟩ (fun _ _ => failed_failure) ⟨_, rfl⟩ ?_
      refine wp_mpi_check ⟨by simp, by simp [hfresh], rfl, rfl⟩ (fun _ _ => failed_failure)
        ⟨_, rfl⟩ ?_
      refine (commIspRun_bringsUp pipe (by simp) (by simp [hfresh])).wp_check
        (fun _ _ => failed_failure) ⟨_, rfl⟩ fun _ _ => ?_
      exact Outcome.good (by decide)

theorem commViStartVi_bringsUp (pipe chn : Int32) (hfd : ∀ fd, Resource.mipiFd fd ∉ held)
    (hfresh : (viOrder pipe chn ++ ispOrder pipe).Disjoint held) :
    BringsUp books Failed (commViStartVi pipe pipe chn) held
      (viOrder pipe chn ++ ispOrder pipe) := by
  obtain ⟨hvi, hisp⟩ := List.disjoint_append_left.mp hfresh
  unfold commViStartVi
  refine BringsUp.start ?_
  refine (commViStartMipi_bringsUp (by simpa using hfd)).wp_check failed_self List.nil_prefix
    fun _ _ => ?_
  refine (commViCreateVi_bringsUp pipe chn (by simpa using hvi)).wp_check failed_self
    (List.prefix_append ..) fun _ _ => ?_
  refine (commViCreateIsp_bringsUp pipe ?_).wp_check failed_self (List.prefix_refl _) fun _ _ => ?_
  · refine List.disjoint_append_right.mpr ⟨hisp, ?_⟩
    simp [viOrder, ispOrder]
  · exact Outcome.good (by decide)

theorem initViProcess_bringsUp (pipe chn : Int32) (hfd : ∀ fd, Resource.mipiFd fd ∉ held)
    (hfresh : (viOrder pipe chn ++ ispOrder pipe).Disjoint held) :
    BringsUp books Failed (initViProcess pipe pipe chn) held
      (viOrder pipe chn ++ ispOrder pipe) := by
  unfold initViProcess
  refine BringsUp.start ?_
  refine wp_query (List.forall_mem_nil _) (fun _ => rfl) (fun _ => rfl) ?_ ?_
  · rintro (got : Int32 × IspCtrlParam) hgot
    have hbad : got.1 ≠ TD_SUCCESS := of_decide_eq_true hgot
    rw [if_pos hbad]
    exact .bad hbad List.nil_prefix
  · rintro (got : Int32 × IspCtrlParam) hgot
    rw [if_neg (of_decide_eq_false hgot)]
    refine wp_mpi_check ⟨by simp, by simp, rfl, rfl⟩ failed_self List.nil_prefix ?_
    refine (commViStartVi_bringsUp pipe chn (by simpa using hfd) (by simpa using hfresh)).wp_check
      failed_self (List.prefix_refl _) fun _ _ => ?_
    exact Outcome.good (by decide)

theorem stretch_bringsUp (v : VideoProcessHi) (pipe : Int32) :
    BringsUp books Failed (v.stretch pipe) held [] := by
  unfold VideoProcessHi.stretch
  split_ifs
  · exact bringsUp_mpi ⟨by simp, by simp, rfl, rfl⟩
  · exact BringsUp.pure (by decide)

theorem initViModule_bringsUp (v : VideoProcessHi) (pipe chn : Int32)
    (hfd : ∀ fd, Resource.mipiFd fd ∉ held)
    (hfresh : (viOrder pipe chn ++ ispOrder pipe).Disjoint held) :
    BringsUp books Failed (initViModule v pipe pipe chn) held
      (viOrder pipe chn ++ ispOrder pipe) := by
  unfold initViModule
  refine BringsUp.start ?_
  refine (stretch_bringsUp v pipe).wp_check failed_self List.nil_prefix fun _ _ => ?_
  refine (initViProcess_bringsUp pipe chn (by simpa using hfd) (by simpa using hfresh)).wp_check
    failed_self (List.prefix_refl _) fun _ _ => ?_
  exact Outcome.good (by decide)

/-- The device is number 0, and the pipe must be. -/
theorem hiMppViInit_bringsUp (v : VideoProcessHi) (chn : Int32)
    (hfd : ∀ fd, Resource.mipiFd fd ∉ held)
    (hfresh : (viOrder 0 chn ++ ispOrder 0).Disjoint held) :
    BringsUp books Failed (hiMppViInit v 0 chn) held (viOrder 0 chn ++ ispOrder 0) := by
  unfold hiMppViInit
  refine BringsUp.start ?_
  refine (setViVpssMode_bringsUp _).wp_check failed_self List.nil_prefix fun _ _ => ?_
  refine (initViModule_bringsUp v 0 chn (by simpa using hfd) (by simpa using hfresh)).wp_check
    failed_self (List.prefix_refl _) fun _ h => ?_
  exact Outcome.good h

/-! ## VPSS -/

theorem setVpssChn_bringsUp (grp chn : Int32) (attr ext : Option VpssChnAttr)
    (hgrp : .vpssGrp grp ∈ held) : BringsUp books Failed (setVpssChn grp chn attr ext) held [] := by
  unfold setVpssChn
  by_cases hchn : chn < OT_VPSS_MAX_PHYS_CHN_NUM
  · rw [if_pos hchn]
    refine BringsUp.start ?_
    refine wp_mpi_check ⟨by simpa using hgrp, by simp, rfl, rfl⟩ failed_self List.nil_prefix ?_
    rw [if_neg (by decide)]
    exact Outcome.good (by decide)
  · rw [if_neg hchn]
    exact bringsUp_mpi ⟨by simpa using hgrp, by simp, rfl, rfl⟩

theorem setWrap_bringsUp (v : VideoProcessHi) (grp chn : Int32) (hgrp : .vpssGrp grp ∈ held) :
    BringsUp books Failed (v.setWrap grp chn) held [] := by
  unfold VideoProcessHi.setWrap
  split_ifs
  · exact bringsUp_mpi ⟨by simpa using hgrp, by simp, rfl, rfl⟩
  · exact BringsUp.pure (by decide)

theorem enableVpssChn_bringsUp (v : VideoProcessHi) {grp chn : Int32} {attr : VpssChnAttr}
    {ext : Option VpssChnAttr} (hgrp : ¬ (grp < 0 ∨ OT_VPSS_MAX_GRP_NUM < grp))
    (hchn : ¬ (chn < 0 ∨ OT_VPSS_MAX_CHN_NUM < chn)) (hheld : .vpssGrp grp ∈ held)
    (hfresh : .vpssChn grp chn ∉ held) :
    BringsUp books Failed (enableVpssChn v grp chn (some attr) ext) held [.vpssChn grp chn] := by
  unfold enableVpssChn
  rw [if_neg hgrp, if_neg hchn, if_neg (fun h => nomatch h.1)]
  refine BringsUp.start ?_
  refine (setVpssChn_bringsUp grp chn _ ext (by simpa using hheld)).wp_check failed_self
    List.nil_prefix fun _ _ => ?_
  refine (setWrap_bringsUp v grp chn (by simpa using hheld)).wp_check failed_self List.nil_prefix
    fun _ _ => ?_
  refine wp_mpi_check ⟨by simpa using hheld, by simpa using hfresh, rfl, rfl⟩ failed_self
    List.nil_prefix ?_
  exact Outcome.good (by decide)

/-- What `init_vpss_module` brings up. -/
def vpssOrder (grp : Int32) : List Resource :=
  [.vpssGrp grp, .vpssChn grp 0, .vpssChn grp 1, .vpssChn grp 2, .vpssRun grp]

theorem initVpssModule_bringsUp (v : VideoProcessHi) {grp : Int32}
    (hgrp : ¬ (grp < 0 ∨ OT_VPSS_MAX_GRP_NUM < grp)) (hfresh : (vpssOrder grp).Disjoint held) :
    BringsUp books Failed (initVpssModule v grp) held (vpssOrder grp) := by
  simp only [vpssOrder, List.disjoint_cons_left] at hfresh
  unfold initVpssModule
  refine BringsUp.start ?_
  refine wp_mpi_check ⟨by simp, by simp [hfresh], rfl, rfl⟩ failed_self ⟨_, rfl⟩ ?_
  refine (enableVpssChn_bringsUp v hgrp (by decide) (by simp) (by simp [hfresh, vpssChn0])).wp_check
    failed_self ⟨_, rfl⟩ fun _ _ => ?_
  refine (enableVpssChn_bringsUp v hgrp (by decide) (by simp)
    (by simp [hfresh, vpssChn0, vpssChn1])).wp_check failed_self ⟨_, rfl⟩ fun _ _ => ?_
  refine (enableVpssChn_bringsUp v hgrp (by decide) (by simp)
    (by simp [hfresh, vpssChn0, vpssChn1, vpssChn2])).wp_check failed_self ⟨_, rfl⟩ fun _ _ => ?_
  refine wp_mpi_check ⟨by simp, by simp [hfresh], rfl, rfl⟩ failed_self ⟨_, rfl⟩ ?_
  exact Outcome.good (by decide)

/-- What is left of VPSS after so many of the calls of `vpss_stop` that `bind_vi_vpss` makes. -/
def vpssLeft (grp : Int32) : ℕ → List Resource
  | 0 => vpssOrder grp
  | 1 => [.vpssGrp grp, .vpssChn grp 1, .vpssChn grp 2, .vpssRun grp]
  | 2 => [.vpssGrp grp, .vpssChn grp 2, .vpssRun grp]
  | 3 => [.vpssGrp grp, .vpssChn grp 2]
  | _ => [.vpssChn grp 2]

/-- The call that binds the video input to VPSS. -/
def viToVpss (pipe chn grp vpssChn : Int32) : Command :=
  .sysBind ⟨.vi, pipe, chn⟩ ⟨.vpss, grp, vpssChn⟩

theorem wp_vpssUndo {grp : Int32} {n : ℕ} {k : MppCall} {f : Int32 → Mpp Int32}
    {Q : Int32 → Account MppCall Resource → Prop} (hneeds : ∀ x ∈ c.needs, x ∈ vpssLeft grp n)
    (htakes : c.takes = []) (hcloses : c.closes = false) (hfollows : k.follows c = true)
    (hgives : c.gives.Disjoint held)
    (hleft : (vpssLeft grp n).filter (· ∉ c.gives) = vpssLeft grp (n + 1))
    (hQ : ∀ ret, ret ≠ TD_SUCCESS → Q ret ⟨held ++ vpssLeft grp n, some k⟩)
    (h : wp books.monitor (f TD_SUCCESS) Q ⟨held ++ vpssLeft grp (n + 1), some k⟩) :
    wp books.monitor (mpi c >>= fun ret => if ret ≠ TD_SUCCESS then pure ret else f ret) Q
      ⟨held ++ vpssLeft grp n, some k⟩ := by
  refine wp_cleanup (fun x hx => List.mem_append_right held (hneeds x hx)) htakes ?_ (.inr rfl)
    (fun ret hret => ?_) (fun _ ret hret => ?_)
  · rintro _ ⟨⟩
    exact hfollows
  · rw [hret hcloses, if_neg (fun h => h rfl), filter_gives hgives, hleft]
    exact h
  · rw [if_pos hret]
    exact hQ ret hret

/-- `vpss_stop` as `bind_vi_vpss` calls it: channels 0 and 1, then the group. -/
theorem vpssStop_wp {grp : Int32} {k : MppCall} (hfresh : (vpssOrder grp).Disjoint held)
    (hdisable : ∀ chn, k.follows (.vpssDisableChn grp chn) = true)
    (hstop : k.follows (.vpssStopGrp grp) = true)
    (hdestroy : k.follows (.vpssDestroyGrp grp) = true) :
    wp books.monitor (vpssStop grp [true, true, false])
      (fun _ s => ∃ n ≤ 4, s = ⟨held ++ vpssLeft grp n, some k⟩)
      ⟨held ++ vpssLeft grp 0, some k⟩ := by
  simp only [vpssOrder, List.disjoint_cons_left] at hfresh
  have hchannels : wp books.monitor (vpssDisable grp 0 [true, true, false])
      (fun ret s => (ret ≠ TD_SUCCESS ∧ ∃ n ≤ 4, s = ⟨held ++ vpssLeft grp n, some k⟩) ∨
        ret = TD_SUCCESS ∧ s = ⟨held ++ vpssLeft grp 2, some k⟩)
      ⟨held ++ vpssLeft grp 0, some k⟩ := by
    unfold vpssDisable
    refine wp_vpssUndo (by simp [vpssLeft, vpssOrder]) rfl rfl (hdisable 0) (by simp [hfresh])
      (by simp [vpssLeft, vpssOrder]) (fun ret h => .inl ⟨h, 0, by omega, rfl⟩) ?_
    unfold vpssDisable
    refine wp_vpssUndo (by simp [vpssLeft]) rfl rfl (hdisable 1) (by simp [hfresh])
      (by simp [vpssLeft]) (fun ret h => .inl ⟨h, 1, by omega, rfl⟩) ?_
    exact .inr ⟨rfl, rfl⟩
  unfold vpssStop
  refine (wp_bind _ _).mpr (wp.mono hchannels ?_)
  rintro ret s (⟨hret, hleft⟩ | ⟨rfl, rfl⟩)
  · rw [if_pos hret]
    exact hleft
  rw [if_neg (fun h => h rfl)]
  refine wp_vpssUndo (by simp [vpssLeft]) rfl rfl hstop (by simp [hfresh]) (by simp [vpssLeft])
    (fun _ _ => ⟨2, by omega, rfl⟩) ?_
  refine wp_vpssUndo (by simp [vpssLeft]) rfl rfl hdestroy (by simp [hfresh]) (by simp [vpssLeft])
    (fun _ _ => ⟨3, by omega, rfl⟩) ?_
  exact ⟨4, by omega, rfl⟩

/-- Either the input is bound, or VPSS is taken down as far as `vpss_stop` gets. -/
theorem bindViVpss_wp {pipe chn grp chn' : Int32} (hfresh : (vpssOrder grp).Disjoint held)
    (hchn : .viChn pipe chn ∈ held)
    (hunbound : .binding ⟨.vi, pipe, chn⟩ ⟨.vpss, grp, chn'⟩ ∉ held) :
    wp books.monitor (bindViVpss pipe chn grp chn')
      (fun ret s => (ret ≠ TD_SUCCESS ∧ ∃ n ≤ 4,
          s = ⟨held ++ vpssLeft grp n, some (.command (viToVpss pipe chn grp chn'))⟩) ∨
        ret = TD_SUCCESS ∧ s = ⟨held ++ (vpssOrder grp ++
          [.binding ⟨.vi, pipe, chn⟩ ⟨.vpss, grp, chn'⟩]), none⟩)
      ⟨held ++ vpssOrder grp, none⟩ := by
  unfold bindViVpss
  refine wp_mpi ⟨?_, ?_, rfl, rfl⟩ (fun ret hret => ?_) ?_
  · simp [MppChn.asSrc, MppChn.asDest, hchn, vpssOrder]
  · simp [hunbound, vpssOrder]
  · rw [if_pos hret]
    refine (wp_bind _ _).mpr (wp.mono (vpssStop_wp hfresh (fun chn => ?_) ?_ ?_) ?_)
    · exact decide_eq_true ⟨rfl, rfl⟩
    · exact decide_eq_true ⟨rfl, rfl⟩
    · exact decide_eq_true ⟨rfl, rfl⟩
    · rintro _ s hleft
      exact .inl ⟨hret, hleft⟩
  · exact .inr ⟨rfl, rfl⟩

end Eye
