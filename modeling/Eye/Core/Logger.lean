import Eye.Lib.Potential

/-!
# The logger

`init` and `fini` of `Logger`, called by one thread at a time, and the thread that `init` starts to
look for a new configuration. An action is one call into zlog, one test or store of a member, or one
step of a `std::thread`. A handle from zlog is good until the `zlog_fini` after it.

`lifecycle`: the two threads are never in `cats_` at the same time, nothing that needs zlog is
called outside its life, and what `get_category` returns is good, wherever no thread is filling
`cats_`. `fini_returns`: once the stop flag is stored, `fini` comes to its end.

Other threads read `cats_` with no lock, while one of the two may be filling it. What such a
`get_category` does is undefined, and it has no result here.
-/

namespace Eye

/-- `LogCategoryNames` -/
def logCategoryNames : List String := ["HIMPP", "TEST", "STREAM", "RTSP"]

/-- What a `zlog_category_t *` points to, and the `zlog_init` it has been given out since. -/
structure ZlogCategory where
  epoch : ℕ
  address : ℕ
  deriving DecidableEq

/-- Where the calling thread is: in `init`, in `fini`, or between two calls. -/
inductive LoggerOwner
  | idle
  /-- `init` has found `initialized_` false. -/
  | initializing
  /-- In `preload_categories`, with these names to go. -/
  | preloading (names : List String)
  /-- Before `stop_flag_.store(false)`. -/
  | starting
  /-- Before the assignment to `check_config_thread_`. -/
  | assigning
  /-- Before `zlog_version`, with the checking thread started. -/
  | reporting
  /-- `fini` has found `initialized_` true. -/
  | stopping
  /-- `fini` has stored `stop_flag_`. -/
  | joining
  /-- Before `zlog_fini`. -/
  | finishing
  /-- After `zlog_fini`; `initialized_` and `cats_` are not cleared yet. -/
  | clearing
  deriving DecidableEq

/-- Where the checking thread is in `check_config_task`. -/
inductive CheckThread
  /-- At the test of `stop_flag_`. -/
  | loop
  /-- At the test for the update file. -/
  | looking
  /-- Before `zlog_reload`. -/
  | reloading
  /-- In `preload_categories`, with these names to go. -/
  | preloading (names : List String)
  /-- Before the removal of the update file. -/
  | removing
  | sleeping
  | ended
  deriving DecidableEq

/-- The owner is in `preload_categories`. -/
def LoggerOwner.preloads : LoggerOwner → Bool
  | .preloading _ => true
  | .idle | .initializing | .starting | .assigning | .reporting | .stopping | .joining | .finishing
  | .clearing => false

/-- The checking thread is. -/
def CheckThread.preloads : CheckThread → Bool
  | .preloading _ => true
  | .loop | .looking | .reloading | .removing | .sleeping | .ended => false

/-- The logger; `checkConfigThread` is joinable if it is some thread. `zlog` is the number of the
`zlog_init` that zlog runs since, `inits` the number of those that succeeded. -/
structure Logger where
  initialized : Bool
  cats : List (String × ZlogCategory)
  checkConfigThread : Option CheckThread
  stopFlag : Bool
  owner : LoggerOwner
  zlog : Option ℕ
  inits : ℕ
  terminated : Bool
  deriving DecidableEq

namespace Logger

/-- The constructor. -/
def new : Logger := ⟨false, [], none, true, .idle, none, 0, false⟩

/-- `init` and `fini` are the first steps of the owner's calls, `owner` and `checker` are steps that
depend on nothing outside; the others come with what zlog or the file system answers. -/
inductive Action
  | init
  | fini
  | owner
  | zlogInit (success : Bool)
  | preload (answer : Option ℕ)
  | checker
  | access (found : Bool)
  | zlogReload (success : Bool)
  | checkerPreload (answer : Option ℕ)
  deriving DecidableEq

/-- `cats_.emplace(name, zlog_get_category(name))`, unless zlog has none: it gives out none when it
is not initialized. -/
def emplace (w : Logger) (name : String) (answer : Option ℕ) : List (String × ZlogCategory) :=
  match w.zlog, answer with
  | some epoch, some address =>
    if (w.cats.lookup name).isSome then w.cats else w.cats ++ [(name, ⟨epoch, address⟩)]
  | _, _ => w.cats

/-- The next step of the call that the owner is in. -/
def continueCall (w : Logger) : Option Logger :=
  match w.owner with
  | .idle | .initializing | .preloading (_ :: _) => none
  | .preloading [] => some { w with owner := .starting }
  | .starting => some { w with stopFlag := false, owner := .assigning }
  | .assigning =>
    if w.checkConfigThread.isSome then some { w with terminated := true }
    else some { w with checkConfigThread := some .loop, owner := .reporting }
  | .reporting => some { w with owner := .idle }
  | .stopping => some { w with stopFlag := true, owner := .joining }
  | .joining =>
    match w.checkConfigThread with
    | none => some { w with owner := .finishing }
    | some .ended => some { w with checkConfigThread := none, owner := .finishing }
    -- `join` waits
    | some _ => none
  | .finishing => some { w with zlog := none, owner := .clearing }
  | .clearing => some { w with initialized := false, cats := [], owner := .idle }

/-- The next step of the checking thread. -/
def continueCheck (w : Logger) : Option Logger :=
  match w.checkConfigThread with
  | none | some .looking | some .reloading | some (.preloading (_ :: _)) | some .ended => none
  | some .loop =>
    some { w with checkConfigThread := some (if w.stopFlag then .ended else .looking) }
  | some (.preloading []) => some { w with checkConfigThread := some .removing }
  | some .removing => some { w with checkConfigThread := some .sleeping }
  | some .sleeping => some { w with checkConfigThread := some .loop }

def step (w : Logger) (a : Action) : Option Logger :=
  if w.terminated then none
  else match a with
    | .init =>
      if w.owner = .idle then
        some { w with owner := if w.initialized then .idle else .initializing }
      else none
    | .fini =>
      if w.owner = .idle then
        some { w with owner := if w.initialized then .stopping else .idle }
      else none
    | .owner => w.continueCall
    | .zlogInit success =>
      if w.owner = .initializing then
        if success then
          some { w with
            initialized := true, zlog := some w.inits, inits := w.inits + 1
            cats := [], owner := .preloading logCategoryNames }
        else some { w with owner := .idle }
      else none
    | .preload answer =>
      match w.owner with
      | .preloading (name :: names) =>
        some { w with cats := w.emplace name answer, owner := .preloading names }
      | _ => none
    | .checker => w.continueCheck
    | .access found =>
      if w.checkConfigThread = some .looking then
        some { w with checkConfigThread := some (if found then .reloading else .sleeping) }
      else none
    | .zlogReload success =>
      if w.checkConfigThread = some .reloading then
        if success then
          some { w with cats := [], checkConfigThread := some (.preloading logCategoryNames) }
        else some { w with checkConfigThread := some .removing }
      else none
    | .checkerPreload answer =>
      match w.checkConfigThread with
      | some (.preloading (name :: names)) =>
        some { w with
          cats := w.emplace name answer, checkConfigThread := some (.preloading names) }
      | _ => none

/-- All orders of the calls, and all interleavings with the checking thread. -/
def machine : Machine Logger Action where
  init w := w = new
  step := step

/-- Some thread is in `preload_categories`, with these names to go. -/
def Preloads (w : Logger) (names : List String) : Prop :=
  w.owner = .preloading names ∨ w.checkConfigThread = some (.preloading names)

/-- Some thread is filling `cats_`. -/
def Filling (w : Logger) : Prop :=
  w.owner.preloads = true ∨ w.checkConfigThread.any CheckThread.preloads = true

instance (w : Logger) : Decidable w.Filling := inferInstanceAs (Decidable (_ ∨ _))

/-- `get_category`, from any thread: no result where it would read `cats_` while that is being
filled. -/
def getCategory (w : Logger) (name : String) : Option (Option ZlogCategory) :=
  if w.initialized then
    if w.Filling then none else some (w.cats.lookup name)
  else some none

variable {w w' : Logger} {a : Action} {name : String} {names : List String} {answer : Option ℕ}

/-! ## What every step keeps -/

/-- Whether there is a thread to be joined. -/
def Joinable (w : Logger) : Prop :=
  match w.owner with
  | .idle => w.initialized = true
  | .reporting | .stopping | .joining => True
  | .initializing | .preloading _ | .starting | .assigning | .finishing | .clearing => False

/-- What the owner knows of `initialized_`. -/
def Knows (w : Logger) : Prop :=
  match w.owner with
  | .idle => True
  | .initializing => w.initialized = false
  | .preloading _ | .starting | .assigning | .reporting | .stopping | .joining | .finishing
  | .clearing => w.initialized = true

/-- What `stop_flag_` is while there is a thread, or soon will be. -/
def Flagged (w : Logger) : Prop :=
  match w.owner with
  | .idle => w.initialized = true → w.stopFlag = false
  | .assigning | .reporting | .stopping => w.stopFlag = false
  | .joining => w.stopFlag = true
  | .initializing | .preloading _ | .starting | .finishing | .clearing => True

/-- The handles in `cats_` have been given out since the `zlog_init` that zlog runs since. -/
structure Filled (w : Logger) : Prop where
  current : ∀ p ∈ w.cats, w.owner ≠ .clearing → w.zlog = some p.2.epoch
  known : ∀ p ∈ w.cats, p.1 ∈ logCategoryNames
  owing : ∀ names, w.Preloads names → names ⊆ logCategoryNames
  empty : w.initialized = false → w.cats = []

structure Inv (w : Logger) : Prop where
  alive : w.terminated = false
  knows : w.Knows
  joinable : w.checkConfigThread.isSome = true ↔ w.Joinable
  ended : w.checkConfigThread = some .ended → w.owner = .joining
  flagged : w.Flagged
  zlog : w.zlog.isSome = true ↔ w.initialized = true ∧ w.owner ≠ .clearing
  filled : w.Filled

theorem Preloads.owner (hp : w.Preloads names) (hnone : w.checkConfigThread = none) :
    w.owner = .preloading names :=
  hp.resolve_right fun h => Option.some_ne_none _ (h.symm.trans hnone)

theorem Inv.of_thread_none (halive : w.terminated = false) (hknows : w.Knows)
    (hnone : w.checkConfigThread = none) (hj : ¬ w.Joinable) (hflagged : w.Flagged)
    (hzlog : w.zlog.isSome = true ↔ w.initialized = true ∧ w.owner ≠ .clearing)
    (hfilled : w.Filled) : w.Inv where
  alive := halive
  knows := hknows
  joinable := by
    rw [hnone]
    exact ⟨nofun, fun h => absurd h hj⟩
  ended := by
    rw [hnone]
    nofun
  flagged := hflagged
  zlog := hzlog
  filled := hfilled

theorem inv_new : new.Inv := by
  refine .of_thread_none rfl trivial rfl Bool.false_ne_true nofun ⟨nofun, fun h => h.1⟩ ?_
  exact ⟨nofun, nofun, fun _ h => h.elim nofun nofun, fun _ => rfl⟩

theorem Inv.thread_none (hi : w.Inv) (hj : ¬ w.Joinable) : w.checkConfigThread = none :=
  Option.not_isSome_iff_eq_none.mp fun h => hj (hi.joinable.mp h)

theorem Inv.exists_thread (hi : w.Inv) (ho : w.owner = .joining) :
    ∃ t, w.checkConfigThread = some t := by
  refine Option.isSome_iff_exists.mp (hi.joinable.mpr ?_)
  unfold Joinable
  rw [ho]
  trivial

/-- With the stop flag set, the owner waits for the thread. -/
theorem Inv.joining_of_stopFlag (hi : w.Inv) (ht : w.checkConfigThread.isSome = true)
    (hstop : w.stopFlag = true) : w.owner = .joining := by
  have hj := hi.joinable.mp ht
  have hf := hi.flagged
  unfold Joinable at hj
  unfold Flagged at hf
  rw [hstop] at hf
  cases ho : w.owner <;> rw [ho] at hj hf
  case idle => exact absurd (hf hj) Bool.noConfusion
  case reporting | stopping => exact absurd hf Bool.noConfusion
  all_goals first | rfl | exact hj.elim

theorem Inv.initialized (hi : w.Inv) (ht : w.checkConfigThread.isSome = true) :
    w.initialized = true := by
  have hj := hi.joinable.mp ht
  have hk := hi.knows
  unfold Joinable at hj
  unfold Knows at hk
  cases ho : w.owner <;> rw [ho] at hj hk <;> first | exact hj | exact hk | exact hj.elim

theorem mem_emplace {p : String × ZlogCategory} (h : p ∈ w.emplace name answer) :
    p ∈ w.cats ∨ p.1 = name ∧ w.zlog = some p.2.epoch := by
  unfold emplace at h
  split at h
  · rename_i epoch address hzlog
    split_ifs at h
    · exact .inl h
    · rcases List.mem_append.mp h with h | h
      · exact .inl h
      · rw [List.mem_singleton.mp h]
        exact .inr ⟨rfl, hzlog⟩
  · exact .inl h

theorem Filled.emplace (hf : w.Filled) (hp : w.Preloads (name :: names)) (answer : Option ℕ) :
    (∀ p ∈ w.emplace name answer, w.owner ≠ .clearing → w.zlog = some p.2.epoch) ∧
      (∀ p ∈ w.emplace name answer, p.1 ∈ logCategoryNames) ∧ names ⊆ logCategoryNames := by
  have hnames := hf.owing _ hp
  refine ⟨?_, ?_, List.Subset.trans (List.subset_cons_self ..) hnames⟩
  · intro p hmem hne
    rcases mem_emplace hmem with hold | hnew
    · exact hf.current p hold hne
    · exact hnew.2
  · intro p hmem
    rcases mem_emplace hmem with hold | hnew
    · exact hf.known p hold
    · exact hnames (hnew.1 ▸ List.mem_cons_self)

theorem Filled.kept (hf : w.Filled) :
    ∀ p ∈ w.cats, p.1 ∈ logCategoryNames ∧ (w.owner ≠ .clearing → w.zlog = some p.2.epoch) :=
  fun p hp => ⟨hf.known p hp, hf.current p hp⟩

/-- The checking thread moves, and may change `cats_`. -/
theorem Inv.move {t t' : CheckThread} (hi : w.Inv) (ht : w.checkConfigThread = some t)
    (hend : t' = .ended → w.owner = .joining) {cats : List (String × ZlogCategory)}
    (hcats : ∀ p ∈ cats, p.1 ∈ logCategoryNames ∧ (w.owner ≠ .clearing → w.zlog = some p.2.epoch))
    (hpre : ∀ names, t' = .preloading names → names ⊆ logCategoryNames) :
    Inv { w with cats := cats, checkConfigThread := some t' } := by
  have hj : w.Joinable := hi.joinable.mp (by rw [ht]; rfl)
  have hinit := hi.initialized (by rw [ht]; rfl)
  refine ⟨hi.alive, hi.knows, ⟨fun _ => hj, fun _ => rfl⟩, ?_, hi.flagged, hi.zlog, ?_⟩
  · rintro ⟨⟩
    exact hend rfl
  · refine ⟨fun p hp => (hcats p hp).2, fun p hp => (hcats p hp).1, ?_, ?_⟩
    · rintro names (h | h)
      · exact hi.filled.owing names (.inl h)
      · exact hpre names (Option.some.inj h)
    · intro h
      exact absurd hinit (by rw [show w.initialized = false from h]; exact Bool.false_ne_true)

theorem Inv.continueCheck (hi : w.Inv) (h : w.continueCheck = some w') : w'.Inv := by
  unfold Logger.continueCheck at h
  have hold := hi.filled.kept
  cases ht : w.checkConfigThread with
  | none =>
    rw [ht] at h
    cases h
  | some t =>
    rw [ht] at h
    cases t with
    | looking | reloading | ended => cases h
    | removing | sleeping =>
      cases h
      refine hi.move ht ?_ hold ?_ <;> nofun
    | preloading names =>
      cases names with
      | nil =>
        cases h
        refine hi.move ht ?_ hold ?_ <;> nofun
      | cons => cases h
    | loop =>
      cases h
      refine hi.move ht ?_ hold ?_
      · intro hend
        split_ifs at hend with hstop
        exact hi.joining_of_stopFlag (by rw [ht]; rfl) hstop
      · intro names hpre
        split_ifs at hpre

/-- `cats_` stays, and so does what it is filled from. -/
theorem Filled.of_eq (hf : w.Filled) (hcats : w'.cats = w.cats)
    (hinit : w'.initialized = w.initialized)
    (hzlog : w'.owner ≠ .clearing → w.owner ≠ .clearing ∧ w'.zlog = w.zlog)
    (hpre : ∀ names, w'.Preloads names → w.Preloads names) : w'.Filled where
  current p hp hne := (hzlog hne).2.trans (hf.current p (hcats ▸ hp) (hzlog hne).1)
  known p hp := hf.known p (hcats ▸ hp)
  owing names h := hf.owing names (hpre names h)
  empty h := hcats.trans (hf.empty (hinit ▸ h))

theorem Inv.zlog_own {o o' : LoggerOwner} (hi : w.Inv) (ho : w.owner = o) (hne : o ≠ .clearing)
    (hne' : o' ≠ .clearing) : w.zlog.isSome = true ↔ w.initialized = true ∧ o' ≠ .clearing := by
  rw [hi.zlog, ho]
  exact and_congr_right fun _ => ⟨fun _ => hne', fun _ => hne⟩

theorem Inv.own {o o' : LoggerOwner} {stopFlag : Bool} (hi : w.Inv) (ho : w.owner = o)
    (hne : o ≠ .clearing) (hne' : o' ≠ .clearing) (hpre : ∀ names, o' ≠ .preloading names)
    (hknows : Knows { w with owner := o', stopFlag := stopFlag })
    (hjoinable : w.Joinable ↔ Joinable { w with owner := o', stopFlag := stopFlag })
    (hend : o ≠ .joining) (hflagged : Flagged { w with owner := o', stopFlag := stopFlag }) :
    Inv { w with owner := o', stopFlag := stopFlag } := by
  refine ⟨hi.alive, hknows, hi.joinable.trans hjoinable,
    fun h => absurd (ho.symm.trans (hi.ended h)) hend, hflagged, hi.zlog_own ho hne hne', ?_⟩
  refine hi.filled.of_eq rfl rfl (fun _ => ⟨by rw [ho]; exact hne, rfl⟩) ?_
  rintro names (h | h)
  · exact absurd h (hpre names)
  · exact .inr h

theorem Inv.continueCall (hi : w.Inv) (h : w.continueCall = some w') : w'.Inv := by
  unfold Logger.continueCall at h
  have hk := hi.knows
  unfold Knows at hk
  cases ho : w.owner with
  | idle | initializing =>
    rw [ho] at h
    cases h
  | preloading names =>
    rw [ho] at h hk
    cases names with
    | cons => cases h
    | nil =>
      cases h
      refine hi.own ho nofun nofun nofun hk ?_ nofun trivial
      unfold Joinable
      rw [ho]
  | starting =>
    rw [ho] at h hk
    cases h
    refine hi.own ho nofun nofun nofun hk ?_ nofun rfl
    unfold Joinable
    rw [ho]
  | assigning =>
    have hnone := hi.thread_none (by unfold Joinable; rw [ho]; exact id)
    have hflag := hi.flagged
    unfold Flagged at hflag
    rw [ho] at hk hflag
    rw [ho, hnone] at h
    cases h
    refine ⟨hi.alive, hk, ⟨fun _ => trivial, fun _ => rfl⟩, nofun, hflag,
      hi.zlog_own ho nofun nofun, ?_⟩
    refine hi.filled.of_eq rfl rfl (fun _ => ⟨by rw [ho]; nofun, rfl⟩) ?_
    rintro names (h | h) <;> cases h
  | reporting =>
    have hflag := hi.flagged
    unfold Flagged at hflag
    rw [ho] at h hk hflag
    cases h
    refine hi.own ho nofun nofun nofun trivial ?_ nofun fun _ => hflag
    unfold Joinable
    rw [ho]
    exact ⟨fun _ => hk, fun _ => trivial⟩
  | stopping =>
    rw [ho] at h hk
    cases h
    refine hi.own ho nofun nofun nofun hk ?_ nofun rfl
    unfold Joinable
    rw [ho]
  | joining =>
    obtain ⟨t, ht⟩ := hi.exists_thread ho
    rw [ho] at h hk
    rw [ht] at h
    cases t with
    | ended =>
      cases h
      refine .of_thread_none hi.alive hk rfl id trivial (hi.zlog_own ho nofun nofun) ?_
      refine hi.filled.of_eq rfl rfl (fun _ => ⟨by rw [ho]; nofun, rfl⟩) ?_
      rintro names (h | h) <;> cases h
    | loop | looking | reloading | preloading | removing | sleeping => cases h
  | finishing =>
    have hnone := hi.thread_none (by unfold Joinable; rw [ho]; exact id)
    rw [ho] at h hk
    cases h
    refine .of_thread_none hi.alive hk hnone id trivial ⟨nofun, fun h => absurd rfl h.2⟩ ?_
    refine hi.filled.of_eq rfl rfl (fun h => absurd rfl h) ?_
    rintro names (h | h)
    · cases h
    · exact .inr h
  | clearing =>
    have hnone := hi.thread_none (by unfold Joinable; rw [ho]; exact id)
    have hzlog : ¬ w.zlog.isSome = true := fun h => (hi.zlog.mp h).2 ho
    rw [ho] at h
    cases h
    refine .of_thread_none hi.alive trivial hnone Bool.false_ne_true nofun
      ⟨fun h => absurd h hzlog, nofun⟩ ⟨nofun, nofun, fun names h => ?_, fun _ => rfl⟩
    cases h.owner hnone

theorem Inv.step (hi : w.Inv) (h : w.step a = some w') : w'.Inv := by
  unfold Logger.step at h
  rw [if_neg (by rw [hi.alive]; exact Bool.false_ne_true)] at h
  cases a with
  | init =>
    obtain ⟨ho, h⟩ := Option.ite_none_right_eq_some.mp h
    cases h
    have hflag := hi.flagged
    unfold Flagged at hflag
    rw [ho] at hflag
    by_cases hinit : w.initialized = true
    · rw [if_pos hinit]
      refine hi.own ho nofun nofun nofun trivial ?_ nofun hflag
      unfold Joinable
      rw [ho]
    · rw [if_neg hinit]
      refine hi.own ho nofun nofun nofun (Bool.eq_false_iff.mpr hinit) ?_ nofun trivial
      unfold Joinable
      rw [ho]
      exact ⟨hinit, False.elim⟩
  | fini =>
    obtain ⟨ho, h⟩ := Option.ite_none_right_eq_some.mp h
    cases h
    have hflag := hi.flagged
    unfold Flagged at hflag
    rw [ho] at hflag
    by_cases hinit : w.initialized = true
    · rw [if_pos hinit]
      refine hi.own ho nofun nofun nofun hinit ?_ nofun (hflag hinit)
      unfold Joinable
      rw [ho]
      exact ⟨fun _ => trivial, fun _ => hinit⟩
    · rw [if_neg hinit]
      refine hi.own ho nofun nofun nofun trivial ?_ nofun hflag
      unfold Joinable
      rw [ho]
  | owner => exact hi.continueCall h
  | zlogInit success =>
    obtain ⟨ho, h⟩ := Option.ite_none_right_eq_some.mp h
    have hk := hi.knows
    unfold Knows at hk
    rw [ho] at hk
    cases success with
    | true =>
      have hnone := hi.thread_none (by unfold Joinable; rw [ho]; exact id)
      cases h
      refine .of_thread_none hi.alive rfl hnone id trivial ⟨fun _ => ⟨rfl, nofun⟩, fun _ => rfl⟩
        ⟨nofun, nofun, fun names h => ?_, nofun⟩
      cases h.owner hnone
      exact List.Subset.refl _
    | false =>
      cases h
      refine hi.own ho nofun nofun nofun trivial ?_ nofun ?_
      · unfold Joinable
        rw [ho]
        exact ⟨False.elim, fun h => absurd h (by rw [hk]; exact Bool.false_ne_true)⟩
      · exact fun h => absurd h (by rw [hk]; exact Bool.false_ne_true)
  | preload answer =>
    have hk := hi.knows
    unfold Knows at hk
    dsimp only at h
    split at h
    · rename_i name names ho
      have hnone := hi.thread_none (by unfold Joinable; rw [ho]; exact id)
      rw [ho] at hk
      obtain ⟨hcurrent, hknown, howing⟩ := hi.filled.emplace (.inl ho) answer
      cases h
      refine .of_thread_none hi.alive hk hnone id trivial (hi.zlog_own ho nofun nofun)
        ⟨fun p hp _ => hcurrent p hp (by rw [ho]; nofun), hknown, fun names' h => ?_, fun h => ?_⟩
      · cases h.owner hnone
        exact howing
      · exact absurd (hk.symm.trans h) Bool.noConfusion
    · cases h
  | checker => exact hi.continueCheck h
  | access found =>
    obtain ⟨ht, h⟩ := Option.ite_none_right_eq_some.mp h
    cases h
    refine hi.move ht ?_ hi.filled.kept ?_ <;> split_ifs <;> nofun
  | zlogReload success =>
    obtain ⟨ht, h⟩ := Option.ite_none_right_eq_some.mp h
    cases success with
    | true =>
      cases h
      refine hi.move ht ?_ ?_ ?_
      · nofun
      · nofun
      · rintro names ⟨⟩
        exact List.Subset.refl _
    | false =>
      cases h
      refine hi.move ht ?_ hi.filled.kept ?_ <;> nofun
  | checkerPreload answer =>
    dsimp only at h
    split at h
    · rename_i name names ht
      obtain ⟨hcurrent, hknown, howing⟩ := hi.filled.emplace (.inr ht) answer
      cases h
      refine hi.move ht ?_ (fun p hp => ⟨hknown p hp, hcurrent p hp⟩) ?_
      · nofun
      · rintro names ⟨⟩
        exact howing
    · cases h

theorem inv_of_reachable (hw : machine.Reachable w) : w.Inv :=
  hw.invariant (fun _ h => h ▸ inv_new) fun _ _ _ hi h => hi.step h

/-! ## The life of zlog -/

/-- The owner is about to call `zlog_init` or `zlog_fini`, or changes `cats_`. -/
def OwnerBusy (w : Logger) : Prop :=
  w.owner = .initializing ∨ (∃ names, w.owner = .preloading names) ∨ w.owner = .finishing ∨
    w.owner = .clearing

/-- A call is about to be made that zlog must be initialized for. -/
def NeedsZlog (w : Logger) : Prop :=
  (∃ names, w.Preloads names) ∨ w.checkConfigThread = some .reloading ∨ w.owner = .finishing

theorem Inv.thread_none_of_busy (hi : w.Inv) (hb : w.OwnerBusy) : w.checkConfigThread = none := by
  refine hi.thread_none ?_
  unfold Joinable
  rcases hb with ho | ⟨names, ho⟩ | ho | ho <;> rw [ho] <;> exact id

theorem Inv.zlog_isSome (hi : w.Inv) (h : w.NeedsZlog) : w.zlog.isSome = true := by
  have hk := hi.knows
  unfold Knows at hk
  -- with a thread, zlog is initialized
  have hthread : w.checkConfigThread.isSome = true → w.zlog.isSome = true := by
    intro ht
    refine hi.zlog.mpr ⟨hi.initialized ht, fun ho => ?_⟩
    rw [hi.thread_none_of_busy (.inr (.inr (.inr ho)))] at ht
    cases ht
  rcases h with ⟨names, ho | ht⟩ | ht | ho
  · rw [ho] at hk
    exact hi.zlog.mpr ⟨hk, by rw [ho]; nofun⟩
  · exact hthread (by rw [ht]; rfl)
  · exact hthread (by rw [ht]; rfl)
  · rw [ho] at hk
    exact hi.zlog.mpr ⟨hk, by rw [ho]; nofun⟩

theorem Inv.good_of_getCategory {c : ZlogCategory} (hi : w.Inv)
    (h : w.getCategory name = some (some c)) :
    name ∈ logCategoryNames ∧ (w.owner ≠ .clearing → w.zlog = some c.epoch) := by
  unfold getCategory at h
  split_ifs at h
  · obtain ⟨before, after, hcats, -⟩ := List.lookup_eq_some_iff.mp (Option.some.inj h)
    have hmem : (name, c) ∈ w.cats := by
      rw [hcats]
      exact List.mem_append_right _ List.mem_cons_self
    exact ⟨hi.filled.known _ hmem, hi.filled.current _ hmem⟩
  · cases h

/-- **The two threads of the logger.** In every state of every run, however the calls of `init` and
`fini` follow each other and whatever zlog answers: no thread that could be joined has been assigned
over; where the owner calls `zlog_init` or `zlog_fini` or changes `cats_`, there is no other thread;
zlog is initialized where it has to be, and is not where `init` is about to do it; and what
`get_category` returns, called while no thread is filling `cats_`, is a category of the list, and
good, but for `fini` between `zlog_fini` and the end. Between two calls, the thread and zlog are up
exactly if the logger is initialized. -/
theorem lifecycle (hw : machine.Reachable w) :
    w.terminated = false ∧
      (w.OwnerBusy → w.checkConfigThread = none) ∧
      (w.NeedsZlog → w.zlog.isSome = true) ∧
      (w.owner = .initializing → w.zlog = none) ∧
      (∀ name c, w.getCategory name = some (some c) →
        name ∈ logCategoryNames ∧ (w.owner ≠ .clearing → w.zlog = some c.epoch)) ∧
      (w.owner = .idle → (w.checkConfigThread.isSome = true ↔ w.initialized = true) ∧
        (w.zlog.isSome = true ↔ w.initialized = true)) := by
  have hi := inv_of_reachable hw
  refine ⟨hi.alive, hi.thread_none_of_busy, hi.zlog_isSome, ?_,
    fun name c h => hi.good_of_getCategory h, ?_⟩
  · intro ho
    have hk := hi.knows
    unfold Knows at hk
    rw [ho] at hk
    refine Option.not_isSome_iff_eq_none.mp fun h => ?_
    exact absurd (hk.symm.trans (hi.zlog.mp h).1) Bool.noConfusion
  · intro ho
    have hj := hi.joinable
    unfold Joinable at hj
    rw [ho] at hj
    refine ⟨hj, hi.zlog.trans ⟨And.left, fun h => ⟨h, ?_⟩⟩⟩
    rw [ho]
    nofun

/-- `init`; the checking thread finds the update file and is at its second category. -/
def checking : List Action :=
  [.init, .zlogInit true, .preload (some 10), .preload (some 20), .preload none, .preload (some 40),
    .owner, .owner, .owner, .checker, .access true, .zlogReload true, .checkerPreload (some 10)]

/-- Then it has them all, and `init` is about to report. -/
def checked : List Action :=
  checking ++ [.checkerPreload (some 20), .checkerPreload none, .checkerPreload none, .checker]

/-- The categories cannot be looked up while they are being filled; then they are good. -/
theorem lifecycle_checking :
    ∃ w w', machine.run new checking = some w ∧ w.zlog.isSome = true ∧
      w.getCategory "HIMPP" = none ∧
      machine.run new checked = some w' ∧ w'.owner = .reporting ∧
      w'.getCategory "HIMPP" = some (some ⟨0, 10⟩) ∧ w'.zlog = some 0 ∧
      w'.getCategory "STREAM" = some none := by
  obtain ⟨w, hrun, hthread, hnone⟩ :
      ∃ w, machine.run new checking = some w ∧
        w.checkConfigThread = some (.preloading ["TEST", "STREAM", "RTSP"]) ∧
        w.getCategory "HIMPP" = none := ⟨_, rfl, by decide⟩
  obtain ⟨w', hrun', ho, hfirst, hthird⟩ :
      ∃ w', machine.run new checked = some w' ∧ w'.owner = .reporting ∧
        w'.getCategory "HIMPP" = some (some ⟨0, 10⟩) ∧ w'.getCategory "STREAM" = some none :=
    ⟨_, rfl, by decide⟩
  have hlife := lifecycle ((Machine.Reachable.init rfl).run hrun)
  have hlife' := lifecycle ((Machine.Reachable.init rfl).run hrun')
  have hgood := (hlife'.2.2.2.2.1 _ _ hfirst).2 (by rw [ho]; nofun)
  exact ⟨w, w', hrun, hlife.2.2.1 (.inl ⟨_, .inr hthread⟩), hnone, hrun', ho, hfirst, hgood, hthird⟩

/-! ## The end of `fini` -/

/-- A step that no new call begins. -/
def Action.Continues (a : Action) : Prop := a ≠ .init ∧ a ≠ .fini

/-- Nothing is left to do. -/
def AtRest (w : Logger) : Prop := ∀ a : Action, a.Continues → machine.step w a = none

/-- The logger is as it was before it was initialized. -/
def Down (w : Logger) : Prop :=
  w.owner = .idle ∧ w.initialized = false ∧ w.checkConfigThread = none ∧ w.zlog = none ∧
    w.cats = []

/-- `fini` has stored the stop flag, and goes on or has returned. -/
def Ending (w : Logger) : Prop :=
  w.owner = .joining ∨ w.owner = .finishing ∨ w.owner = .clearing ∨
    w.owner = .idle ∧ w.initialized = false

/-- The steps left to the checking thread, at most, once it can see the stop flag. -/
def checkLeft : Option CheckThread → ℕ
  | none | some .ended => 0
  | some .loop => 1
  | some .sleeping => 2
  | some .removing => 3
  | some (.preloading names) => names.length + 4
  | some .reloading => logCategoryNames.length + 5
  | some .looking => logCategoryNames.length + 6

/-- The steps left to `fini`. -/
def finiLeft : LoggerOwner → ℕ
  | .joining => 3
  | .finishing => 2
  | .clearing => 1
  | .idle | .initializing | .preloading _ | .starting | .assigning | .reporting | .stopping => 0

def left (w : Logger) : ℕ := finiLeft w.owner + checkLeft w.checkConfigThread

/-- While `fini` ends, a thread that is still there sees the stop flag, and the owner waits. -/
theorem Inv.joining_of_ending (hi : w.Inv) (he : w.Ending)
    (ht : w.checkConfigThread.isSome = true) : w.owner = .joining ∧ w.stopFlag = true := by
  have hj := hi.joinable.mp ht
  have hf := hi.flagged
  unfold Joinable at hj
  unfold Flagged at hf
  rcases he with ho | ho | ho | ⟨ho, hinit⟩ <;> rw [ho] at hj hf
  · exact ⟨ho, hf⟩
  · exact hj.elim
  · exact hj.elim
  · exact absurd (hj.symm.trans hinit) Bool.noConfusion

theorem Inv.checker_ends {t t' : CheckThread} (hi : w.Inv) (he : w.Ending)
    (ht : w.checkConfigThread = some t) {cats : List (String × ZlogCategory)}
    (hlt : w.stopFlag = true → checkLeft (some t') < checkLeft (some t)) :
    Ending { w with cats := cats, checkConfigThread := some t' } ∧
      left { w with cats := cats, checkConfigThread := some t' } < w.left := by
  obtain ⟨ho, hstop⟩ := hi.joining_of_ending he (by rw [ht]; rfl)
  refine ⟨.inl ho, ?_⟩
  unfold left
  rw [ht]
  exact Nat.add_lt_add_left (hlt hstop) _

theorem Ending.continueCheck (hi : w.Inv) (he : w.Ending) (h : w.continueCheck = some w') :
    w'.Ending ∧ w'.left < w.left := by
  unfold Logger.continueCheck at h
  cases ht : w.checkConfigThread with
  | none =>
    rw [ht] at h
    cases h
  | some t =>
    rw [ht] at h
    cases t with
    | looking | reloading | ended => cases h
    | removing | sleeping =>
      cases h
      exact hi.checker_ends he ht fun _ => Nat.lt_succ_self _
    | preloading names =>
      cases names with
      | nil =>
        cases h
        exact hi.checker_ends he ht fun _ => Nat.lt_succ_self _
      | cons => cases h
    | loop =>
      cases h
      refine hi.checker_ends he ht fun hstop => ?_
      rw [if_pos hstop]
      exact Nat.one_pos

theorem Ending.continueCall (hi : w.Inv) (he : w.Ending) (h : w.continueCall = some w') :
    w'.Ending ∧ w'.left < w.left := by
  unfold Logger.continueCall at h
  rcases he with ho | ho | ho | ⟨ho, -⟩ <;> rw [ho] at h
  · obtain ⟨t, ht⟩ := hi.exists_thread ho
    rw [ht] at h
    cases t with
    | ended =>
      cases h
      refine ⟨.inr (.inl rfl), ?_⟩
      unfold left
      rw [ho, ht]
      exact Nat.lt_succ_self 2
    | loop | looking | reloading | preloading | removing | sleeping => cases h
  · cases h
    refine ⟨.inr (.inr (.inl rfl)), ?_⟩
    unfold left
    rw [ho]
    exact Nat.add_lt_add_right (Nat.lt_succ_self 1) _
  · cases h
    refine ⟨.inr (.inr (.inr ⟨rfl, rfl⟩)), ?_⟩
    unfold left
    rw [ho]
    exact Nat.add_lt_add_right Nat.one_pos _
  · cases h

theorem Ending.step (hi : w.Inv) (he : w.Ending) (ha : a.Continues) (h : w.step a = some w') :
    w'.Ending ∧ w'.left < w.left := by
  unfold Logger.step at h
  rw [if_neg (by rw [hi.alive]; exact Bool.false_ne_true)] at h
  cases a with
  | init => exact absurd rfl ha.1
  | fini => exact absurd rfl ha.2
  | owner => exact he.continueCall hi h
  | checker => exact he.continueCheck hi h
  | zlogInit =>
    obtain ⟨ho, -⟩ := Option.ite_none_right_eq_some.mp h
    rcases he with he | he | he | ⟨he, -⟩ <;> cases ho.symm.trans he
  | preload =>
    dsimp only at h
    split at h
    · rename_i ho
      rcases he with he | he | he | ⟨he, -⟩ <;> cases ho.symm.trans he
    · cases h
  | access found =>
    obtain ⟨ht, h⟩ := Option.ite_none_right_eq_some.mp h
    cases h
    refine hi.checker_ends he ht fun _ => ?_
    cases found <;> decide
  | zlogReload success =>
    obtain ⟨ht, h⟩ := Option.ite_none_right_eq_some.mp h
    cases success <;> cases h <;> exact hi.checker_ends he ht fun _ => by decide
  | checkerPreload =>
    dsimp only at h
    split at h
    · rename_i ht
      cases h
      refine hi.checker_ends he ht fun _ => ?_
      exact Nat.lt_succ_self _
    · cases h

/-- The step of the checking thread that is due, with some answer. -/
def due : CheckThread → Action
  | .loop | .removing | .sleeping | .preloading [] => .checker
  | .looking => .access true
  | .reloading => .zlogReload true
  | .preloading (_ :: _) => .checkerPreload none
  | .ended => .owner

/-- The thread goes on; once it has ended, the owner does. -/
theorem Inv.step_due {t : CheckThread} (hi : w.Inv) (ho : w.owner = .joining)
    (ht : w.checkConfigThread = some t) : (w.step (due t)).isSome = true := by
  unfold Logger.step
  rw [if_neg (by rw [hi.alive]; exact Bool.false_ne_true)]
  cases t with
  | loop | removing | sleeping => simp only [due, Logger.continueCheck, ht, Option.isSome_some]
  | looking | reloading => simp only [due, ht, if_true, Option.isSome_some]
  | preloading names =>
    cases names <;> simp only [due, Logger.continueCheck, ht, Option.isSome_some]
  | ended => simp only [due, Logger.continueCall, ho, ht, Option.isSome_some]

theorem AtRest.down (hr : w.AtRest) (hi : w.Inv) (he : w.Ending) : w.Down := by
  have hstuck : ∀ a : Action, a.Continues → w.step a = none := hr
  have howner : w.continueCall = none := by
    have h := hstuck .owner ⟨nofun, nofun⟩
    unfold Logger.step at h
    rwa [if_neg (by rw [hi.alive]; exact Bool.false_ne_true)] at h
  unfold Logger.continueCall at howner
  rcases he with ho | ho | ho | ⟨ho, hinit⟩
  · obtain ⟨t, ht⟩ := hi.exists_thread ho
    have hdue := hi.step_due ho ht
    have hcontinues : (due t).Continues := by
      cases t with
      | preloading names => cases names <;> exact ⟨nofun, nofun⟩
      | loop | looking | reloading | removing | sleeping | ended => exact ⟨nofun, nofun⟩
    rw [hstuck _ hcontinues] at hdue
    cases hdue
  · rw [ho] at howner
    cases howner
  · rw [ho] at howner
    cases howner
  · have hnone := hi.thread_none (by unfold Joinable; rw [ho, hinit]; exact Bool.false_ne_true)
    have hzlog : w.zlog = none := by
      refine Option.not_isSome_iff_eq_none.mp fun h => ?_
      exact absurd (hinit.symm.trans (hi.zlog.mp h).1) Bool.noConfusion
    exact ⟨ho, hinit, hnone, hzlog, hi.filled.empty hinit⟩

/-- What the steps keep while `fini` ends. -/
structure Ends (w : Logger) : Prop where
  inv : w.Inv
  ending : w.Ending

theorem Ends.step (hw : w.Ends) (ha : a.Continues) (h : w.step a = some w') :
    w'.Ends ∧ w'.left < w.left :=
  ⟨⟨hw.inv.step h, (hw.ending.step hw.inv ha h).1⟩, (hw.ending.step hw.inv ha h).2⟩

/-- **`fini` returns.** From every reachable state in which `fini` has stored the stop flag,
wherever the checking thread is then and whatever zlog and the file system answer: the steps that
begin no new call are at most `left`; where none is left, `fini` has returned, the thread has been
joined, zlog has been taken down and `cats_` is empty; and this is reached, whatever was done
first. -/
theorem fini_returns (hw : machine.Reachable w) (ho : w.owner = .joining) {as : List Action}
    (has : ∀ a ∈ as, a.Continues) (hrun : machine.run w as = some w') :
    as.length ≤ w.left ∧ (w'.AtRest → w'.Down) ∧
      ∃ bs w'', (∀ a ∈ bs, a.Continues) ∧ machine.run w' bs = some w'' ∧ w''.Down := by
  have hkeep : ∀ (w : Logger) a w', w.Ends → a.Continues → machine.step w a = some w' → w'.Ends :=
    fun _ _ _ h ha hs => (h.step ha hs).1
  have hlower : ∀ (w : Logger) a w', w.Ends → a.Continues → machine.step w a = some w' →
      w'.left < w.left := fun _ _ _ h ha hs => (h.step ha hs).2
  have hstart : w.Ends := ⟨inv_of_reachable hw, .inl ho⟩
  have hend := Machine.keep_run_of hstart hkeep has hrun
  refine ⟨?_, fun hrest => hrest.down hend.inv hend.ending, ?_⟩
  · have hlength := Machine.length_add_potential_le hstart hkeep hlower has hrun
    omega
  · obtain ⟨bs, w'', hbs, hrun', hstuck⟩ := Machine.exists_run_stuck hend hkeep hlower
    have hlast := Machine.keep_run_of hend hkeep hbs hrun'
    have hrest : w''.AtRest := hstuck
    exact ⟨bs, w'', hbs, hrun', hrest.down hlast.inv hlast.ending⟩

/-- `fini` stores the flag while the checking thread reloads the configuration; the thread is at
the removal of the update file. -/
theorem fini_returns_checking :
    ∃ w w', machine.run new (checking ++ [.owner, .fini, .owner]) = some w ∧
      machine.run w (List.replicate 3 (.checkerPreload none) ++ [.checker]) = some w' ∧
      w'.checkConfigThread = some .removing ∧
      ∃ bs w'', (∀ a ∈ bs, a.Continues) ∧ machine.run w' bs = some w'' ∧ w''.Down := by
  obtain ⟨w, w', hrun, ho, hrun', ht⟩ :
      ∃ w w', machine.run new (checking ++ [.owner, .fini, .owner]) = some w ∧ w.owner = .joining ∧
        machine.run w (List.replicate 3 (.checkerPreload none) ++ [.checker]) = some w' ∧
        w'.checkConfigThread = some .removing :=
    ⟨_, _, rfl, rfl, rfl, rfl⟩
  have hcontinues : ∀ a ∈ List.replicate 3 (Action.checkerPreload none) ++ [.checker],
      a.Continues := by
    unfold Action.Continues
    decide
  have hend := fini_returns ((Machine.Reachable.init rfl).run hrun) ho hcontinues hrun'
  exact ⟨w, w', hrun, hrun', ht, hend.2.2⟩

end Logger

end Eye
