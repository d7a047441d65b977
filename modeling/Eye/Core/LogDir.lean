import Mathlib.Data.Int.Notation
import Mathlib.Data.Nat.Notation
import Eye.Lib.Calls

/-!
# The directory of the logs

`ensure_dir` makes a directory with all that lead to it. It copies the path into a buffer, puts a
NUL in the place of one `'/'` after the other, hands what is before it to `access` and `mkdir`, and
puts the `'/'` back.

`ensureDir_outcome` says what it does whatever the file system answers, other processes that make
and remove directories included.
-/

namespace Eye

open Calls

/-- The bytes of a C string, without the NUL that ends it. -/
structure CString where
  bytes : List UInt8
  noNul : 0 ∉ bytes
  deriving DecidableEq

/-- The string that starts at a buffer. -/
def cstr (buffer : List UInt8) : List UInt8 := buffer.takeWhile (· ≠ 0)

/-- `'/'` -/
def slash : UInt8 := 0x2f

/-- `EEXIST` -/
def EEXIST : ℤ := 17

/-- The calls of `ensure_dir`. -/
inductive FileCall
  | access (path : List UInt8)
  | mkdir (path : List UInt8)
  deriving DecidableEq

namespace FileCall

/-- `access` finds the path or not; `mkdir` succeeds or sets `errno`. -/
abbrev Answer : FileCall → Type
  | access _ => Bool
  | mkdir _ => Option ℤ

end FileCall

namespace Logger

/-- `mkdir(path, 0755) != 0 && errno != EEXIST` -/
def mkdirFails (path : List UInt8) : Calls FileCall FileCall.Answer Bool := do
  let answer : Option ℤ ← ask (FileCall.mkdir path)
  match answer with
  | none => return false
  | some errno => return decide (errno ≠ EEXIST)

/-- The loop of `ensure_dir` from `i` on, with `n` bytes to go: the buffer that it leaves, or
nothing where it has returned false. -/
def ensureParents : ℕ → ℕ → List UInt8 → Calls FileCall FileCall.Answer (Option (List UInt8))
  | 0, _, tmp => return some tmp
  | n + 1, i, tmp =>
    if tmp[i]? = some slash then do
      let cut := tmp.set i 0
      if ← ask (.access (cstr cut)) then
        ensureParents n (i + 1) (cut.set i slash)
      else if ← mkdirFails (cstr cut) then return none
      else ensureParents n (i + 1) (cut.set i slash)
    else ensureParents n (i + 1) tmp

/-- `sizeof(tmp)` -/
def tmpSize : ℕ := 256

/-- `tmp` after `snprintf`. -/
def buffer (path : List UInt8) : List UInt8 := path ++ List.replicate (tmpSize - path.length) 0

/-- `ensure_dir` -/
def ensureDir (path : CString) : Calls FileCall FileCall.Answer Bool := do
  if ← ask (.access path.bytes) then return true
  else if tmpSize ≤ path.bytes.length then return false
  else match ← ensureParents (path.bytes.length - 1) 1 (buffer path.bytes) with
    | none => return false
    | some tmp => return !(← mkdirFails (cstr tmp))

/-! ## The buffer -/

variable {path p q : List UInt8} {c : UInt8} {i n : ℕ}

theorem cstr_append_nul (h : 0 ∉ p) (rest : List UInt8) : cstr (p ++ 0 :: rest) = p := by
  have hp : ∀ b ∈ p, decide (b ≠ 0) = true := by
    rintro b hb
    exact decide_eq_true fun h0 => h (h0 ▸ hb)
  unfold cstr
  rw [List.takeWhile_append_of_pos hp, List.takeWhile_cons_of_neg (by decide), List.append_nil]

theorem cstr_buffer (path : CString) (h : path.bytes.length < tmpSize) :
    cstr (buffer path.bytes) = path.bytes := by
  unfold buffer
  rw [show tmpSize - path.bytes.length = (tmpSize - path.bytes.length - 1) + 1 by omega,
    List.replicate_succ]
  exact cstr_append_nul path.noNul _

theorem buffer_getElem? (hi : i < path.length) : (buffer path)[i]? = path[i]? :=
  List.getElem?_append_left hi

theorem cstr_buffer_set (path : CString) (hi : i < path.bytes.length) :
    cstr ((buffer path.bytes).set i 0) = path.bytes.take i := by
  have hlt : i < (buffer path.bytes).length := by
    unfold buffer
    rw [List.length_append]
    omega
  rw [List.set_eq_take_append_cons_drop, if_pos hlt, buffer,
    List.take_append_of_le_length (Nat.le_of_lt hi)]
  exact cstr_append_nul (fun h => path.noNul (List.mem_of_mem_take h)) _

theorem set_set_slash {tmp : List UInt8} (h : tmp[i]? = some slash) :
    (tmp.set i 0).set i slash = tmp := by
  obtain ⟨hi, hs⟩ := List.getElem?_eq_some_iff.mp h
  rw [List.set_set, ← hs, List.set_getElem_self]

/-! ## What has been found to be there -/

/-- `q` leads to `p`: it is what stands before a `'/'` of `p`, unless that is nothing. -/
def Leads (q p : List UInt8) : Prop := q ≠ [] ∧ ∃ rest, p = q ++ slash :: rest

theorem Leads.length_lt (h : Leads q p) : q.length < p.length := by
  obtain ⟨-, rest, rfl⟩ := h
  rw [List.length_append, List.length_cons]
  omega

theorem leads_append_singleton : Leads q (p ++ [c]) ↔ Leads q p ∨ c = slash ∧ q = p ∧ p ≠ [] := by
  constructor
  · rintro ⟨hq, rest, hrest⟩
    rcases List.eq_nil_or_concat rest with rfl | ⟨rest, b, rfl⟩
    · obtain ⟨rfl, hc⟩ := List.append_inj' hrest rfl
      exact .inr ⟨List.singleton_inj.mp hc, rfl, hq⟩
    · have hsplit : p ++ [c] = (q ++ slash :: rest) ++ [b] := by
        rw [hrest, List.concat_eq_append, List.append_assoc, List.cons_append]
      exact .inl ⟨hq, rest, (List.append_inj' hsplit rfl).1⟩
  · rintro (⟨hq, rest, rfl⟩ | ⟨rfl, rfl, hq⟩)
    · exact ⟨hq, rest ++ [c], by rw [List.append_assoc, List.cons_append]⟩
    · exact ⟨hq, [], rfl⟩

/-- The paths that were found, or made, or that `mkdir` said were there; and the `errno` that ended
the work. -/
structure Found where
  known : List (List UInt8)
  refused : Option ℤ

/-- Of the directories, only the path itself and those that lead to it are made: each where it has
not been found, after all that lead to it, and none after a refusal. -/
def journal (path : List UInt8) : Monitor Found FileCall FileCall.Answer where
  Allowed s
    | .access p => s.refused = none ∧ (p = path ∨ Leads p path)
    | .mkdir p => s.refused = none ∧ (p = path ∨ Leads p path) ∧ p ∉ s.known ∧
      ∀ q, Leads q p → q ∈ s.known
  after s
    | .access p, found => if found then { s with known := s.known ++ [p] } else s
    | .mkdir p, none => { s with known := s.known ++ [p] }
    | .mkdir p, some errno =>
      if errno = EEXIST then { s with known := s.known ++ [p] }
      else { s with refused := some errno }

/-- All that leads to `p` is known, and nothing else. -/
def Found.Up (s : Found) (p : List UInt8) : Prop :=
  s.refused = none ∧ ∀ q, q ∈ s.known ↔ Leads q p

/-- Some `mkdir` failed. -/
def Found.Failed (s : Found) : Prop := ∃ errno, errno ≠ EEXIST ∧ s.refused = some errno

variable {s : Found}

theorem Found.Up.next_other (hs : s.Up p) (hc : c ≠ slash) : s.Up (p ++ [c]) := by
  refine ⟨hs.1, fun q => (hs.2 q).trans ?_⟩
  rw [leads_append_singleton]
  exact ⟨.inl, fun h => h.resolve_right fun h => hc h.1⟩

theorem Found.Up.next_slash (hs : s.Up p) (hp : p ≠ []) :
    ({ s with known := s.known ++ [p] } : Found).Up (p ++ [slash]) := by
  refine ⟨hs.1, fun q => ?_⟩
  show q ∈ s.known ++ [p] ↔ _
  rw [List.mem_append, List.mem_singleton, leads_append_singleton, hs.2 q]
  exact or_congr_right ⟨fun h => ⟨rfl, h, hp⟩, fun h => h.2.1⟩

/-- `mkdir` is called with what is not known yet, and what leads to it is. -/
theorem mkdirFails_wp (hs : s.Up p) (hp : p = path ∨ Leads p path) :
    wp (journal path) (mkdirFails p) (fun failed s' =>
      (failed = true ∧ s'.Failed) ∨
        (failed = false ∧ s' = { s with known := s.known ++ [p] })) s := by
  have hnew : p ∉ s.known := fun h => Nat.lt_irrefl _ ((hs.2 p).mp h).length_lt
  unfold mkdirFails
  rw [wp_bind]
  refine ⟨⟨hs.1, hp, hnew, fun q => (hs.2 q).mpr⟩, ?_⟩
  rintro (_ | errno)
  · exact .inr ⟨rfl, rfl⟩
  · show _ ∨ _
    by_cases herrno : errno = EEXIST
    · exact .inr ⟨decide_eq_false (not_not.mpr herrno), if_pos herrno⟩
    · exact .inl ⟨decide_eq_true herrno, errno, herrno, congrArg Found.refused (if_neg herrno)⟩

/-- Where the work goes on after the loop, and where it has ended in it. -/
theorem ensureParents_wp (path : CString) (hi : 0 < i) (hn : i + n = path.bytes.length)
    (hs : s.Up (path.bytes.take i)) :
    wp (journal path.bytes) (ensureParents n i (buffer path.bytes)) (fun left s' =>
      (left = none ∧ s'.Failed) ∨ (left = some (buffer path.bytes) ∧ s'.Up path.bytes)) s := by
  induction n generalizing i s with
  | zero =>
    rw [Nat.add_zero] at hn
    rw [hn, List.take_length] at hs
    exact .inr ⟨rfl, hs⟩
  | succ n ih =>
    have hlt : i < path.bytes.length := by omega
    have hnext := List.take_append_getElem hlt
    have hp : path.bytes.take i ≠ [] := by
      rw [← List.length_pos_iff, List.length_take]
      omega
    unfold ensureParents
    dsimp only
    rw [buffer_getElem? hlt, List.getElem?_eq_getElem hlt]
    by_cases hc : path.bytes[i] = slash
    · have hback : ((buffer path.bytes).set i 0).set i slash = buffer path.bytes := by
        refine set_set_slash ?_
        rw [buffer_getElem? hlt, List.getElem?_eq_getElem hlt, hc]
      have hleads : Leads (path.bytes.take i) path.bytes := by
        refine ⟨hp, path.bytes.drop (i + 1), ?_⟩
        rw [← hc, ← List.drop_eq_getElem_cons hlt, List.take_append_drop]
      have hdone : ({ s with known := s.known ++ [path.bytes.take i] } : Found).Up
          (path.bytes.take (i + 1)) := by
        rw [← hnext, hc]
        exact hs.next_slash hp
      rw [if_pos (congrArg some hc), hback, cstr_buffer_set path hlt]
      rw [wp_bind]
      refine ⟨⟨hs.1, .inr hleads⟩, ?_⟩
      rintro (_ | _)
      · refine (wp_bind _ _).mpr (wp.mono (mkdirFails_wp hs (.inr hleads)) ?_)
        rintro failed s' (⟨rfl, hfailed⟩ | ⟨rfl, rfl⟩)
        · exact .inl ⟨rfl, hfailed⟩
        · exact ih (Nat.succ_pos i) (by omega) hdone
      · exact ih (Nat.succ_pos i) (by omega) hdone
    · rw [if_neg fun h => hc (Option.some.inj h)]
      refine ih (Nat.succ_pos i) (by omega) ?_
      rw [← hnext]
      exact hs.next_other hc

theorem ensureParents_start (path : CString) :
    wp (journal path.bytes) (ensureParents (path.bytes.length - 1) 1 (buffer path.bytes))
      (fun left s => (left = none ∧ s.Failed) ∨
        (left = some (buffer path.bytes) ∧ s.Up path.bytes)) ⟨[], none⟩ := by
  have hnothing : ∀ p : List UInt8, p.length ≤ 1 → (⟨[], none⟩ : Found).Up p := by
    refine fun p hp => ⟨rfl, fun q => ⟨nofun, fun h => ?_⟩⟩
    have := h.length_lt
    have := List.length_pos_iff.mpr h.1
    omega
  by_cases hlen : path.bytes.length ≤ 1
  · rw [show path.bytes.length - 1 = 0 by omega]
    exact .inr ⟨rfl, hnothing _ hlen⟩
  · refine ensureParents_wp path Nat.one_pos (by omega) (hnothing _ ?_)
    rw [List.length_take]
    exact Nat.min_le_left ..

/-- What `ensure_dir` returns, and what is known then. -/
inductive DirOutcome (path : List UInt8) : Bool → Found → Prop
  /-- The path was there. -/
  | found : DirOutcome path true ⟨[path], none⟩
  /-- The path and all that leads to it are there. -/
  | made {s : Found} (hs : s.refused = none) (h : ∀ q, q ∈ s.known ↔ q = path ∨ Leads q path) :
    DirOutcome path true s
  /-- The path does not fit the buffer. -/
  | tooLong (h : tmpSize ≤ path.length) : DirOutcome path false ⟨[], none⟩
  /-- A `mkdir` failed. -/
  | failed {s : Found} (hs : s.Failed) : DirOutcome path false s

/-- **The directory is made, with all that leads to it.** Whatever the file system answers: a
directory is made only after all that lead to it have been found, made, or said to exist; nothing is
made that was found; and true is returned exactly if the path was found, or it and all that leads to
it were found, made, or said to exist. Else the path does not fit the buffer, and nothing was made,
or the last call was a `mkdir` that failed. -/
theorem ensureDir_outcome (path : CString) {l : List ((c : FileCall) × c.Answer)} {r : Bool}
    (h : Run (ensureDir path) l r) :
    (journal path.bytes).Allows ⟨[], none⟩ l ∧
      DirOutcome path.bytes r ((journal path.bytes).final ⟨[], none⟩ l) := by
  refine wp.sound ?_ h
  unfold ensureDir
  rw [wp_bind]
  refine ⟨⟨rfl, .inl rfl⟩, ?_⟩
  rintro (_ | _)
  · show wp (journal path.bytes) (if tmpSize ≤ path.bytes.length then _ else _) _ ⟨[], none⟩
    split
    · rename_i hlong
      exact .tooLong hlong
    rename_i hshort
    have hfits := Nat.lt_of_not_le hshort
    refine (wp_bind _ _).mpr ((ensureParents_start path).mono ?_)
    rintro left s (⟨rfl, hfailed⟩ | ⟨rfl, hs⟩)
    · exact .failed hfailed
    show wp (journal path.bytes) (mkdirFails (cstr (buffer path.bytes)) >>= _) _ s
    rw [cstr_buffer path hfits]
    refine (wp_bind _ _).mpr ((mkdirFails_wp hs (.inl rfl)).mono ?_)
    rintro failed s' (⟨rfl, hfailed⟩ | ⟨rfl, rfl⟩)
    · exact .failed hfailed
    · refine .made hs.1 fun q => ?_
      show q ∈ s.known ++ [path.bytes] ↔ _
      rw [List.mem_append, List.mem_singleton, hs.2 q, or_comm]
  · exact .found

/-- `LOG_DIR`: "/data/eyeLog". -/
def logDir : CString :=
  ⟨[0x2f, 0x64, 0x61, 0x74, 0x61, 0x2f, 0x65, 0x79, 0x65, 0x4c, 0x6f, 0x67], by decide⟩

/-- Nothing is there, and whatever is made is made. -/
def makesAll : (c : FileCall) → Option c.Answer
  | .access _ => some false
  | .mkdir _ => some none

/-- "/data" is made, then the directory of the logs. -/
theorem ensureDir_outcome_logDir :
    ∃ l r, Run (ensureDir logDir) l r ∧
      (journal logDir.bytes).Allows ⟨[], none⟩ l ∧ r = true ∧
      l.map Sigma.fst = [.access logDir.bytes, .access (logDir.bytes.take 5),
        .mkdir (logDir.bytes.take 5), .mkdir logDir.bytes] := by
  have hsome : ((ensureDir logDir).exec makesAll).isSome = true := by decide
  have hrun := run_of_exec (Option.some_get hsome).symm
  exact ⟨_, _, hrun, (ensureDir_outcome logDir hrun).1, rfl, rfl⟩

end Logger

end Eye
