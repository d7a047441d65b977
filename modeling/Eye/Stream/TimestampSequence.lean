import Mathlib.Data.List.GetD
import Eye.Lib.Machine
import Eye.Stream.Timestamp

/-!
# The timestamps of all threads

Any number of threads construct frames. Each reads the clock and then takes the lock; so the
readings come under the lock in any order, whatever the clock has shown.

`timestamps_least`: in the order of the lock the timestamps are the least strictly increasing
sequence of which none is zero or below its own reading, in closed form `Increasing.least 0`.
-/

namespace Eye

/-- The calls of `next_monotonic_timestamp_ms`: `readings` are those of the threads that have not
taken the lock yet, `log` has the readings of the others and what they were given, in the order of
the lock. -/
structure TimestampClock where
  lastTimestamp : UInt64
  readings : List UInt64
  log : List (UInt64 × UInt64)
  deriving DecidableEq

namespace TimestampClock

def new : TimestampClock := ⟨0, [], []⟩

/-- A thread reads the clock; one that has done so takes the lock and returns. -/
inductive Action
  | readClock (now : UInt64)
  | lock (i : ℕ)

def step (w : TimestampClock) : Action → Option TimestampClock
  | .readClock now => some { w with readings := w.readings ++ [now] }
  | .lock i =>
    (w.readings[i]?).map fun now =>
      let ts := nextMonotonicTimestampMs w.lastTimestamp now
      ⟨ts, w.readings.eraseIdx i, w.log ++ [(now, ts)]⟩

/-- All interleavings of the threads. -/
def machine : Machine TimestampClock Action where
  init w := w = new
  step := step

/-- The readings of the calls that have returned. -/
def returned (w : TimestampClock) : List UInt64 := w.log.map Prod.fst

/-- `last_timestamp` after calls with such readings. -/
def lastAfter (nows : List UInt64) : UInt64 := nows.foldl nextMonotonicTimestampMs 0

/-- The `k`-th timestamp that such readings call for. -/
def leastStamp (w : TimestampClock) (k : ℕ) : ℕ :=
  Increasing.least 0 (w.returned.map UInt64.toNat) k

variable {w w' : TimestampClock} {a : Action} {nows : List UInt64} {k : ℕ}

/-! ## Words and numbers -/

/-- While the sequence does not wrap, it is the least one. -/
theorem toNat_lastAfter (hk : k ≤ nows.length)
    (hfit : Increasing.least 0 (nows.map UInt64.toNat) k < 2 ^ 64) :
    (lastAfter (nows.take k)).toNat = Increasing.least 0 (nows.map UInt64.toNat) k := by
  induction k with
  | zero => simp [lastAfter, Increasing.least]
  | succ k ih =>
    -- the values before are smaller, so they do not wrap either
    have hprev := ih (Nat.le_of_succ_le hk)
      (Nat.lt_trans (Increasing.least_lt_succ _ _ k) hfit)
    have hget : (nows.map UInt64.toNat).getD k 0 = (nows[k]).toNat := by
      rw [List.getD_eq_getElem _ _ (by rwa [List.length_map]), List.getElem_map]
    rw [Increasing.least_succ, hget, ← hprev] at hfit ⊢
    rw [← toNat_nextMonotonicTimestampMs (noWrap_iff.mpr hfit)]
    unfold lastAfter
    rw [List.take_succ_eq_append_getElem hk, List.foldl_append]
    rfl

/-! ## What is in the log -/

/-- What every step keeps. -/
structure Inv (w : TimestampClock) : Prop where
  last_eq : w.lastTimestamp = lastAfter w.returned
  stamp_eq : ∀ k e, w.log[k]? = some e → e.2 = lastAfter (w.returned.take (k + 1))

theorem inv_new : new.Inv := ⟨rfl, fun _ _ h => nomatch h⟩

theorem Inv.step (hi : w.Inv) (h : w.step a = some w') : w'.Inv := by
  cases a with
  | readClock now =>
    cases h
    exact ⟨hi.last_eq, hi.stamp_eq⟩
  | lock i =>
    obtain ⟨now, -, rfl⟩ := Option.map_eq_some_iff.mp h
    have hreturned : w.returned ++ [now] =
        (w.log ++ [(now, nextMonotonicTimestampMs w.lastTimestamp now)]).map Prod.fst := by
      rw [List.map_append]
      rfl
    have hlast : nextMonotonicTimestampMs w.lastTimestamp now =
        lastAfter (w.returned ++ [now]) := by
      unfold lastAfter
      rw [List.foldl_append, hi.last_eq]
      rfl
    constructor
    · unfold returned
      rw [← hreturned]
      exact hlast
    · intro k e he
      unfold returned
      rw [← hreturned]
      dsimp only at he
      rcases Nat.lt_or_ge k w.log.length with hk | hk
      · rw [List.getElem?_append_left hk] at he
        rw [List.take_append_of_le_length (by rw [returned, List.length_map]; exact hk)]
        exact hi.stamp_eq k e he
      · rw [List.getElem?_append_right hk] at he
        have hlen : (w.returned ++ [now]).length ≤ k + 1 := by
          rw [List.length_append, returned, List.length_map]
          simpa using hk
        rw [List.take_of_length_le hlen, ← hlast]
        rw [List.mem_singleton.mp (List.mem_of_getElem? he)]

theorem inv_of_run {as : List Action} (h : machine.run new as = some w) : w.Inv :=
  Machine.keep_run inv_new (fun _ _ _ hi h => hi.step h) h

/-- While it does not wrap, the `k`-th timestamp is the `k`-th of the least sequence. -/
theorem Inv.stamp (hi : w.Inv) {e : UInt64 × UInt64} (he : w.log[k]? = some e)
    (hfit : w.leastStamp (k + 1) < 2 ^ 64) : e.2.toNat = w.leastStamp (k + 1) := by
  have hk := (List.getElem?_eq_some_iff.mp he).1
  rw [hi.stamp_eq k e he]
  apply toNat_lastAfter _ hfit
  rw [returned, List.length_map]
  exact hk

theorem leastStamp_lt {j : ℕ} (hjk : j < k) : w.leastStamp j < w.leastStamp k :=
  Increasing.least_strictMono _ _ hjk

/-- **Timestamps.** In every run of the threads the `k`-th call under the lock, from 0 on, returns
the `k + 1`-th value of the least sequence, if that fits: it is not 0, not below the reading of the
call, greater than all timestamps before, and no sequence of naturals that increases from 0 and
respects the readings has a smaller one. -/
theorem timestamps_least {as : List Action} (hrun : machine.run new as = some w) {now ts : UInt64}
    (hk : w.log[k]? = some (now, ts)) (hfit : w.leastStamp (k + 1) < 2 ^ 64) :
    ts.toNat = w.leastStamp (k + 1) ∧ 0 < ts ∧ now ≤ ts ∧
      (∀ i e, i < k → w.log[i]? = some e → e.2 < ts) ∧
      ∀ t : ℕ → ℕ, (∀ j ≤ k, t j < t (j + 1)) →
        (∀ j ≤ k, (w.returned.map UInt64.toNat).getD j 0 ≤ t (j + 1)) → ts.toNat ≤ t (k + 1) := by
  have hi := inv_of_run hrun
  have hts : ts.toNat = w.leastStamp (k + 1) := hi.stamp hk hfit
  have hget : (w.returned.map UInt64.toNat).getD k 0 = now.toNat := by
    rw [List.getD_eq_getElem?_getD, returned, List.map_map, List.getElem?_map, hk]
    rfl
  refine ⟨hts, ?_, ?_, ?_, ?_⟩
  · rw [UInt64.lt_iff_toNat_lt, hts]
    exact Nat.zero_lt_of_lt (leastStamp_lt (Nat.lt_succ_self k))
  · rw [UInt64.le_iff_toNat_le, hts, ← hget]
    exact Increasing.le_least_succ _ _ k
  · intro i e hik he
    have hlt : w.leastStamp (i + 1) < w.leastStamp (k + 1) := leastStamp_lt (Nat.succ_lt_succ hik)
    rw [UInt64.lt_iff_toNat_lt, hts, hi.stamp he (Nat.lt_trans hlt hfit)]
    exact hlt
  · intro t hlt hle
    rw [hts]
    exact Increasing.least_le (Nat.zero_le _) (fun j hj => hlt j (Nat.le_of_lt_succ hj))
      fun j hj => hle j (Nat.le_of_lt_succ hj)

/-- The second thread to read the clock comes first, and then the clock is set back. -/
def clockSetBack : List Action :=
  [.readClock 5, .readClock 9, .lock 1, .readClock 0, .lock 0, .lock 0]

theorem timestamps_least_clockSetBack :
    ∃ w, machine.run new clockSetBack = some w ∧ w.log = [(9, 9), (5, 10), (0, 11)] ∧
      w.leastStamp 3 = 11 ∧ ∀ i e, i < 2 → w.log[i]? = some e → e.2 < 11 := by
  have h : ∀ w, machine.run new clockSetBack = some w → w.log[2]? = some (0, 11) →
      w.leastStamp 3 = 11 → ∀ i e, i < 2 → w.log[i]? = some e → e.2 < 11 := by
    intro w hrun hk hleast
    have hfit : w.leastStamp (2 + 1) < 2 ^ 64 := by
      rw [hleast]
      decide
    exact (timestamps_least hrun hk hfit).2.2.2.1
  exact ⟨_, rfl, rfl, rfl, h _ rfl rfl rfl⟩

end TimestampClock

end Eye
