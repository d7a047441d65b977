import Mathlib.Data.List.Infix
import Mathlib.Data.Nat.Notation

/-!
# Cutting a list at delimiters

`code p` is the length of the delimiter that the list `p` starts with, zero if it starts with none.
`pieces code` reads a list from left to right, jumps over each delimiter it meets, and returns what
stands before the first delimiter and what follows each of them.

Two rules compute it: `pieces_code` at a delimiter, and `pieces_append` over a part in which no
delimiter begins, even looking past its end. Where no delimiter straddles the end of a part and one
follows, the part is cut by itself (`pieces_append_pieces`).
-/

namespace Delimiter

variable {α : Type} (code : List α → ℕ)

/-- What stands before the first delimiter, and what follows each delimiter up to the next. -/
def pieces : List α → List α × List (List α)
  | [] => ([], [])
  | x :: xs =>
    if 0 < code (x :: xs) then
      let r := pieces (xs.drop (code (x :: xs) - 1))
      ([], r.1 :: r.2)
    else
      let r := pieces xs
      (x :: r.1, r.2)
termination_by l => l.length
decreasing_by
  · simp only [List.length_drop, List.length_cons]
    omega
  · exact Nat.lt_succ_self _

variable {code} {a b d p : List α} {x : α}

@[simp] theorem pieces_nil : pieces code [] = ([], []) := by rw [pieces]

/-- No delimiter here: the element belongs to the piece being read. -/
theorem pieces_cons (h : code (x :: a) = 0) :
    pieces code (x :: a) = (x :: (pieces code a).1, (pieces code a).2) := by
  rw [pieces, if_neg (by omega)]

/-- A delimiter here: a new piece begins behind it. -/
theorem pieces_drop (hp : p ≠ []) (h : 0 < code p) :
    pieces code p =
      ([], (pieces code (p.drop (code p))).1 :: (pieces code (p.drop (code p))).2) := by
  cases p with
  | nil => exact absurd rfl hp
  | cons y ys =>
    rw [pieces, if_pos h]
    obtain ⟨k, hk⟩ : ∃ k, code (y :: ys) = k + 1 := ⟨code (y :: ys) - 1, by omega⟩
    rw [hk]
    rfl

theorem pieces_code (hd : d ≠ []) (h : code (d ++ a) = d.length) :
    pieces code (d ++ a) = ([], (pieces code a).1 :: (pieces code a).2) := by
  have hpos : 0 < d.length := List.length_pos_iff.mpr hd
  rw [pieces_drop (by simp [hd]) (h ▸ hpos), h, List.drop_left]

theorem pieces_append (h : ∀ s, s ≠ [] → s <:+ a → code (s ++ b) = 0) :
    pieces code (a ++ b) = (a ++ (pieces code b).1, (pieces code b).2) := by
  induction a with
  | nil => rfl
  | cons y ys ih =>
    have hy : code (y :: (ys ++ b)) = 0 := h (y :: ys) (List.cons_ne_nil _ _) List.suffix_rfl
    have hys := ih fun s hs hsuf => h s hs (hsuf.trans (List.suffix_cons y ys))
    rw [List.cons_append, pieces_cons hy, hys]
    rfl

theorem pieces_snd_ne_nil (ha : a ≠ []) (h : (pieces code a).1 = []) : (pieces code a).2 ≠ [] := by
  cases a with
  | nil => exact absurd rfl ha
  | cons x xs =>
    rcases Nat.eq_zero_or_pos (code (x :: xs)) with hzero | hpos
    · rw [pieces_cons hzero] at h
      exact absurd h (List.cons_ne_nil _ _)
    · rw [pieces_drop ha hpos]
      exact List.cons_ne_nil _ _

/-- What follows begins with a delimiter, and no delimiter reaches over to it: the two parts are cut
each by itself. -/
theorem pieces_append_pieces (hle : ∀ s, code s ≤ s.length) (hb : (pieces code b).1 = [])
    (h : ∀ s, s ≠ [] → s <:+ a → code (s ++ b) = code s) :
    pieces code (a ++ b) = ((pieces code a).1, (pieces code a).2 ++ (pieces code b).2) := by
  induction a using pieces.induct code with
  | case1 =>
    rw [List.nil_append, pieces_nil, List.nil_append, ← hb]
  | case2 x xs hpos ih =>
    have hne : x :: xs ≠ [] := List.cons_ne_nil _ _
    have hcode := h (x :: xs) hne List.suffix_rfl
    have hdrop : xs.drop (code (x :: xs) - 1) = (x :: xs).drop (code (x :: xs)) := by
      obtain ⟨k, hk⟩ : ∃ k, code (x :: xs) = k + 1 := ⟨code (x :: xs) - 1, by omega⟩
      rw [hk]
      rfl
    rw [hdrop] at ih
    have hrest := ih fun s hs hsuf => h s hs (hsuf.trans (List.drop_suffix _ _))
    rw [pieces_drop hne hpos, pieces_drop (List.append_ne_nil_of_left_ne_nil hne b) (by omega),
      hcode, List.drop_append_of_le_length (hle _), hrest]
    rfl
  | case3 x xs hzero ih =>
    have hne : x :: xs ≠ [] := List.cons_ne_nil _ _
    have hcode : code (x :: (xs ++ b)) = 0 := by
      have := h (x :: xs) hne List.suffix_rfl
      rw [List.cons_append] at this
      omega
    have hrest := ih fun s hs hsuf => h s hs (hsuf.trans (List.suffix_cons x xs))
    rw [List.cons_append, pieces_cons hcode, hrest, pieces_cons (by omega)]

end Delimiter
