import Mathlib.Data.Finset.Image
import Eye.Lib.Machine
import Eye.Rtsp.Subsession

/-!
# The client limit

Client sessions set up and end on one subsession, through the base class of live555: with its
`reuseFirstSource` true, a session that sets up while a stream exists shares that stream, and
`createNewStreamSource` is not called for it; otherwise it is called once for each set-up, and a
session that gets no source gets no media. `deleteStream` is called for each session that ends.

`clientLimit_iff`: the sharing bypasses the limit. A run stays within it exactly if no session joins
a stream that `max_clients` sessions receive, and every run does exactly if the base class does not
reuse its first source (or the limit is as large as the number of session ids).
-/

namespace Eye

/-- A subsession and the sessions that receive its stream. The stream of a base class that reuses
its first source exists as long as a session receives it. -/
structure ClientSessions where
  sub : RtspServerMediaSubsession
  receiving : Finset UInt32

/-- What a client does. -/
inductive ClientCall
  | setup (id : UInt32)
  | teardown (id : UInt32)
  deriving DecidableEq

namespace ClientSessions

open RtspServerMediaSubsession

/-- A new subsession, without clients. -/
def new (type : StreamType) (codec : CodecType) (maxClients : ℕ) (reuseFirstSource : Bool) :
    ClientSessions := ⟨.new type codec maxClients reuseFirstSource, ∅⟩

/-- The base class shares its stream with the next session. -/
def Shares (w : ClientSessions) : Prop := w.sub.reuseFirstSource = true ∧ w.receiving ≠ ∅

instance (w : ClientSessions) : Decidable w.Shares := inferInstanceAs (Decidable (_ ∧ _))

/-- A session sets up. -/
def setup (w : ClientSessions) (id : UInt32) : ClientSessions :=
  if w.Shares then { w with receiving := insert id w.receiving }
  else
    let r := w.sub.createNewStreamSource id
    ⟨r.2, if r.1.isSome then insert id w.receiving else w.receiving⟩

/-- A session ends. -/
def teardown (w : ClientSessions) (id : UInt32) : ClientSessions :=
  ⟨w.sub.deleteStream id, w.receiving.erase id⟩

def step (w : ClientSessions) : ClientCall → Option ClientSessions
  | .setup id => some (w.setup id)
  | .teardown id => some (w.teardown id)

/-- All orders of set-ups and teardowns. -/
def machine : Machine ClientSessions ClientCall where
  init w := ∃ type codec maxClients reuse, w = new type codec maxClients reuse
  step := step

/-- The sessions that receive the stream, without a DESCRIBE. -/
def clients (w : ClientSessions) : Finset UInt32 := w.receiving.erase 0

/-- At most `n` clients receive the stream. -/
def Within (n : ℕ) (w : ClientSessions) : Prop := w.clients.card ≤ n

instance (n : ℕ) (w : ClientSessions) : Decidable (w.Within n) :=
  inferInstanceAs (Decidable (_ ≤ _))

/-- No session joins a shared stream that `n` others receive. -/
def NoJoin (n : ℕ) (w : ClientSessions) : ClientCall → Prop
  | .setup id => w.Shares → id = 0 ∨ id ∈ w.receiving ∨ w.clients.card < n
  | .teardown _ => True

variable {n : ℕ} {w w' : ClientSessions} {id : UInt32} {c : ClientCall}

/-! ## What every call keeps -/

/-- The active sessions receive the stream, and are all that do if the stream is not shared. -/
structure Inv (n : ℕ) (w : ClientSessions) : Prop where
  maxClients_eq : w.sub.maxClients = n
  active_subset : w.sub.activeClientSessions ⊆ w.clients
  active_eq : w.sub.reuseFirstSource = false → w.sub.activeClientSessions = w.clients
  within : w.Within n

theorem inv_new (type : StreamType) (codec : CodecType) (hn : 1 ≤ n) (reuse : Bool) :
    Inv n (new type codec n reuse) := by
  refine ⟨?_, ?_, fun _ => rfl, Nat.zero_le _⟩
  · show (if n = 0 then 1 else n) = n
    rw [if_neg (by omega)]
  · exact Finset.empty_subset _

theorem erase_insert (s : Finset UInt32) (id : UInt32) :
    (insert id s).erase 0 = if id = 0 then s.erase 0 else insert id (s.erase 0) := by
  split_ifs with h
  · rw [h]
    exact Finset.erase_insert_eq_erase s 0
  · exact Finset.erase_insert_of_ne h

theorem Inv.join (hi : w.Inv n) (hs : w.Shares)
    (hc : id = 0 ∨ id ∈ w.receiving ∨ w.clients.card < n) :
    Inv n { w with receiving := insert id w.receiving } := by
  have hclients := erase_insert w.receiving id
  refine ⟨hi.maxClients_eq, hi.active_subset.trans ?_, fun hr => ?_, ?_⟩
  · exact Finset.erase_subset_erase _ (Finset.subset_insert ..)
  · have hr : w.sub.reuseFirstSource = false := hr
    rw [hs.1] at hr
    cases hr
  · show ((insert id w.receiving).erase 0).card ≤ n
    rw [hclients]
    split_ifs with h0
    · exact hi.within
    · rcases hc with rfl | hc | hc
      · exact absurd rfl h0
      · rw [Finset.insert_eq_of_mem (Finset.mem_erase.mpr ⟨h0, hc⟩)]
        exact hi.within
      · exact (Finset.card_insert_le ..).trans hc

theorem Inv.ask (hi : w.Inv n) (hs : ¬ w.Shares) :
    Inv n ⟨(w.sub.createNewStreamSource id).2,
      if (w.sub.createNewStreamSource id).1.isSome then insert id w.receiving
      else w.receiving⟩ := by
  -- while nobody shares, the active sessions are the clients
  have heq : w.sub.activeClientSessions = w.clients := by
    by_cases hr : w.sub.reuseFirstSource = true
    · have hempty : w.receiving = ∅ := by
        by_contra hne
        exact hs ⟨hr, hne⟩
      have hclients : w.clients = ∅ := by
        unfold clients
        rw [hempty, Finset.erase_empty]
      rw [hclients, ← Finset.subset_empty, ← hclients]
      exact hi.active_subset
    · exact hi.active_eq (by simpa using hr)
  by_cases ha : w.sub.Admits id
  · obtain ⟨hsome, hsub⟩ := createNewStreamSource_of_admits ha
    rw [hsome, if_pos rfl, hsub]
    have hactive : (if id = 0 then w.sub else { w.sub with
        activeClientSessions := insert id w.sub.activeClientSessions }).activeClientSessions =
        (insert id w.receiving).erase 0 := by
      rw [erase_insert]
      split_ifs
      · exact heq
      · rw [← show w.clients = w.receiving.erase 0 from rfl, ← heq]
    refine ⟨?_, hactive.subset, fun _ => hactive, ?_⟩
    · rw [← hsub, createNewStreamSource_maxClients]
      exact hi.maxClients_eq
    · show ((insert id w.receiving).erase 0).card ≤ n
      rw [← hactive, ← hsub, ← hi.maxClients_eq]
      apply card_createNewStreamSource_le
      rw [heq, hi.maxClients_eq]
      exact hi.within
  · rw [createNewStreamSource_of_not_admits ha]
    exact ⟨hi.maxClients_eq, heq.subset, fun _ => heq, hi.within⟩

theorem Inv.teardown (hi : w.Inv n) (id : UInt32) : (w.teardown id).Inv n := by
  have h0 : (0 : UInt32) ∉ w.sub.activeClientSessions := fun h =>
    Finset.ne_of_mem_erase (hi.active_subset h) rfl
  have hclients : (w.teardown id).clients = w.clients.erase id := Finset.erase_right_comm
  refine ⟨deleteStream_maxClients.trans hi.maxClients_eq, ?_, ?_, ?_⟩
  · intro x hx
    rw [hclients, Finset.mem_erase]
    obtain ⟨hx, hne⟩ := (mem_deleteStream h0).mp hx
    exact ⟨hne, hi.active_subset hx⟩
  · intro hr
    have hr : w.sub.reuseFirstSource = false := by
      have : (w.sub.deleteStream id).reuseFirstSource = w.sub.reuseFirstSource := by
        unfold deleteStream
        split_ifs <;> rfl
      exact this ▸ hr
    ext x
    rw [hclients, Finset.mem_erase, ← hi.active_eq hr, and_comm]
    exact mem_deleteStream h0
  · show (w.teardown id).clients.card ≤ n
    rw [hclients]
    exact (Finset.card_le_card (Finset.erase_subset ..)).trans hi.within

theorem Inv.step (hi : w.Inv n) (hc : w.NoJoin n c) (h : w.step c = some w') : w'.Inv n := by
  cases c with
  | setup id =>
    cases h
    unfold setup
    split_ifs with hs
    · exact hi.join hs (hc hs)
    · exact hi.ask hs
  | teardown id =>
    cases h
    exact hi.teardown id

theorem not_within_of_join (hc : ¬ w.NoJoin n c) (h : w.step c = some w') : ¬ w'.Within n := by
  cases c with
  | setup id =>
    cases h
    unfold NoJoin at hc
    push Not at hc
    obtain ⟨hs, h0, hmem, hfull⟩ := hc
    unfold setup Within clients
    rw [if_pos hs]
    dsimp only
    have hnot : id ∉ w.receiving.erase 0 := by
      intro hm
      exact hmem (Finset.mem_of_mem_erase hm)
    rw [erase_insert, if_neg h0, Finset.card_insert_of_notMem hnot]
    unfold clients at hfull
    omega
  | teardown id => exact absurd trivial hc

/-! ## Configurations that keep the limit in every run -/

theorem reuseFirstSource_step (h : w.step c = some w') :
    w'.sub.reuseFirstSource = w.sub.reuseFirstSource := by
  cases c with
  | setup id =>
    cases h
    unfold setup
    split_ifs
    · rfl
    · by_cases ha : w.sub.Admits id
      · dsimp only
        rw [(createNewStreamSource_of_admits ha).2]
        split_ifs <;> rfl
      · dsimp only
        rw [createNewStreamSource_of_not_admits ha]
  | teardown id =>
    cases h
    unfold teardown deleteStream
    dsimp only
    split_ifs <;> rfl

/-- Session ids 1 to `k`. -/
def firstIds (k : ℕ) : Finset UInt32 := (Finset.range k).image fun i => UInt32.ofNat (i + 1)

theorem toNat_ofNat_succ {i : ℕ} (h : i + 1 < 2 ^ 32) : (UInt32.ofNat (i + 1)).toNat = i + 1 :=
  UInt32.toNat_ofNat_of_lt h

theorem card_firstIds {k : ℕ} (h : k < 2 ^ 32) : ((firstIds k).erase 0).card = k := by
  have h0 : (0 : UInt32) ∉ firstIds k := by
    intro hm
    obtain ⟨i, hi, he⟩ := Finset.mem_image.mp hm
    have := congrArg UInt32.toNat he
    rw [toNat_ofNat_succ (by have := Finset.mem_range.mp hi; omega)] at this
    exact Nat.succ_ne_zero i this
  rw [Finset.erase_eq_of_notMem h0]
  unfold firstIds
  rw [Finset.card_image_of_injOn, Finset.card_range]
  intro i hi j hj he
  have hi := Finset.mem_range.mp (Finset.mem_coe.mp hi)
  have hj := Finset.mem_range.mp (Finset.mem_coe.mp hj)
  have := congrArg UInt32.toNat he
  rw [toNat_ofNat_succ (by omega), toNat_ofNat_succ (by omega)] at this
  omega

/-- Sessions 1 to `k`, one after the other. -/
def setups (k : ℕ) : List ClientCall :=
  (List.range k).map fun i => .setup (UInt32.ofNat (i + 1))

/-- While the stream is reused, all of them receive it. -/
theorem run_setups (hr : w.sub.reuseFirstSource = true) (hw : w.receiving = ∅)
    (hroom : 0 < w.sub.maxClients) (hactive : w.sub.activeClientSessions = ∅) (k : ℕ) :
    ∃ sub, sub.reuseFirstSource = true ∧
      (k = 0 → sub = w.sub) ∧ machine.run w (setups k) = some ⟨sub, firstIds k⟩ := by
  induction k with
  | zero => exact ⟨w.sub, hr, fun _ => rfl, by rw [← show w.receiving = firstIds 0 from hw]; rfl⟩
  | succ k ih =>
    obtain ⟨sub, hsub, h0, hk⟩ := ih
    have hinsert : firstIds (k + 1) = insert (UInt32.ofNat (k + 1)) (firstIds k) := by
      unfold firstIds
      rw [Finset.range_add_one, Finset.image_insert]
    have hsetups : setups (k + 1) = setups k ++ [.setup (UInt32.ofNat (k + 1))] := by
      unfold setups
      rw [List.range_succ, List.map_append, List.map_singleton]
    rw [hsetups, Machine.run_append, hk, Option.bind_some, Machine.run_singleton]
    by_cases hk0 : k = 0
    · subst hk0
      rw [h0 rfl]
      have ha : w.sub.Admits (UInt32.ofNat (0 + 1)) :=
        .inr (.inr (by rw [hactive, Finset.card_empty]; exact hroom))
      obtain ⟨hsome, hcreate⟩ := createNewStreamSource_of_admits ha
      refine ⟨(w.sub.createNewStreamSource (UInt32.ofNat (0 + 1))).2, ?_,
        fun h => absurd h (Nat.succ_ne_zero _), ?_⟩
      · rw [hcreate]
        split_ifs <;> exact hr
      · have hns : ¬ Shares ⟨w.sub, firstIds 0⟩ := fun hs => hs.2 rfl
        show some (setup _ _) = _
        unfold setup
        rw [if_neg hns, hinsert]
        dsimp only
        rw [hsome, if_pos rfl]
    · refine ⟨sub, hsub, fun h => absurd h (Nat.succ_ne_zero _), ?_⟩
      have hs : Shares ⟨sub, firstIds k⟩ := by
        refine ⟨hsub, Finset.nonempty_iff_ne_empty.mp ?_⟩
        exact (Finset.nonempty_range_iff.mpr hk0).image _
      show some (setup _ _) = _
      unfold setup
      rw [if_pos hs, hinsert]

theorem along_noJoin (hr : w.sub.reuseFirstSource = false) (n : ℕ) (calls : List ClientCall) :
    machine.Along (NoJoin n) w calls := by
  induction calls generalizing w with
  | nil => trivial
  | cons c calls ih =>
    intro w' h
    refine ⟨?_, ih ((reuseFirstSource_step h).trans hr)⟩
    cases c with
    | setup id =>
      intro hs
      rw [hs.1] at hr
      cases hr
    | teardown id => trivial

theorem within_of_large (hn : 2 ^ 32 ≤ n + 1) (w : ClientSessions) : w.Within n := by
  have hle : w.clients.card ≤ ((Finset.range (2 ^ 32)).erase 0).card := by
    refine Finset.card_le_card_of_injOn UInt32.toNat (fun id hid => ?_)
      fun _ _ _ _ h => UInt32.toNat_inj.mp h
    rw [Finset.mem_coe, Finset.mem_erase, Finset.mem_range]
    refine ⟨fun h => Finset.ne_of_mem_erase hid ?_, UInt32.toNat_lt id⟩
    exact UInt32.toNat_inj.mp h
  rw [Finset.card_erase_of_mem (Finset.mem_range.mpr (by decide)), Finset.card_range] at hle
  unfold Within
  omega

/-- **When the client limit holds.** For every limit of at least 1 and either value of
`reuseFirstSource`: a run keeps the limit in every state exactly if no session joins a shared stream
that `n` others receive; and every run does exactly if the stream is not shared. -/
theorem clientLimit_iff (type : StreamType) (codec : CodecType) (hn : 1 ≤ n) (reuse : Bool) :
    (∀ calls, machine.Always (Within n) (new type codec n reuse) calls ↔
        machine.Along (NoJoin n) (new type codec n reuse) calls) ∧
      ((∀ calls, machine.Always (Within n) (new type codec n reuse) calls) ↔
        n = 1 ∨ reuse = false ∨ 2 ^ 32 ≤ n + 1) := by
  have hiff : ∀ calls, machine.Always (Within n) (new type codec n reuse) calls ↔
      machine.Along (NoJoin n) (new type codec n reuse) calls := fun calls =>
    Machine.always_iff_along (I := Inv n) (inv_new type codec hn reuse)
      (fun _ _ _ hi hc h => hi.step hc h) (fun _ hi => hi.within)
      (fun _ _ _ _ hc h => not_within_of_join hc h)
  have hflag : (new type codec n reuse).sub.reuseFirstSource = if n = 1 then false else reuse := rfl
  refine ⟨hiff, ?_, ?_⟩
  · intro h
    by_contra hno
    push Not at hno
    obtain ⟨h1, hr, hlt⟩ := hno
    have hr : (new type codec n reuse).sub.reuseFirstSource = true := by
      rw [hflag, if_neg h1]
      simpa using hr
    have hroom : 0 < (new type codec n reuse).sub.maxClients := by
      rw [(inv_new type codec hn reuse).maxClients_eq]
      exact hn
    -- one session more than allowed sets up
    obtain ⟨sub, -, -, hrun⟩ := run_setups hr rfl hroom rfl (n + 1)
    have hw : ((firstIds (n + 1)).erase 0).card ≤ n := (h (setups (n + 1))).last hrun
    rw [card_firstIds hlt] at hw
    exact Nat.not_succ_le_self n hw
  · intro h calls
    rcases h with h | h | h
    · exact (hiff calls).mpr (along_noJoin (by rw [hflag, if_pos h]) n calls)
    · exact (hiff calls).mpr (along_noJoin (by rw [hflag, h, ite_self]) n calls)
    · exact Machine.always_of_forall (within_of_large h) _ calls

/-- Two clients allowed and the first source reused: the third session joins the stream. -/
theorem clientLimit_exceeded :
    ¬ machine.Always (Within 2) (new .videoMain .h265 2 true)
      [.setup 1, .setup 2, .setup 3] := by
  intro h
  have hw := h.last (t := ⟨{ RtspServerMediaSubsession.new .videoMain .h265 2 true with
    activeClientSessions := {1} }, {3, 2, 1}⟩) rfl
  exact absurd hw (by decide)

/-- The limit of two clients, without reuse. -/
theorem clientLimit_iff_two :
    (∀ calls, machine.Always (Within 2) (new .videoMain .h265 2 false) calls) ∧
      ¬ ∀ calls, machine.Always (Within 2) (new .videoMain .h265 2 true) calls := by
  have hsize : ¬ 2 ^ 32 ≤ 2 + 1 := by decide
  refine ⟨(clientLimit_iff .videoMain .h265 (by decide) false).2.mpr (.inr (.inl rfl)), ?_⟩
  rw [(clientLimit_iff .videoMain .h265 (by decide) true).2]
  simp

end ClientSessions

end Eye
