import Mathlib.Data.Nat.Notation

/-!
# Base64

The base64 encoding of a byte string with padding: `encode_injective`, and `mem_encode`, which
bounds the characters that occur, so that text with a separator outside of the alphabet can be taken
apart again (`append_inj_of_notMem`).
-/

namespace Base64

/-- The character of a six-bit digit. -/
def char (n : ℕ) : Char :=
  if n < 26 then Char.ofNat (65 + n)
  else if n < 52 then Char.ofNat (71 + n)
  else if n < 62 then Char.ofNat (n - 4)
  else if n = 62 then '+'
  else '/'

/-- The digit of a character. -/
def digit (c : Char) : ℕ :=
  if 97 ≤ c.toNat then c.toNat - 71
  else if 65 ≤ c.toNat then c.toNat - 65
  else if 48 ≤ c.toNat then c.toNat + 4
  else if c.toNat = 43 then 62
  else 63

/-- Three bytes make four characters; what is left over is padded. -/
def encode : List UInt8 → List Char
  | [] => []
  | [a] => [char (a.toNat / 4), char (a.toNat % 4 * 16), '=', '=']
  | [a, b] =>
    [char (a.toNat / 4), char (a.toNat % 4 * 16 + b.toNat / 16), char (b.toNat % 16 * 4), '=']
  | a :: b :: c :: rest =>
    char (a.toNat / 4) :: char (a.toNat % 4 * 16 + b.toNat / 16) ::
      char (b.toNat % 16 * 4 + c.toNat / 64) :: char (c.toNat % 64) :: encode rest

theorem digit_char {n : ℕ} (h : n < 64) : digit (char n) = n := by
  have : ∀ i : Fin 64, digit (char i) = i := by decide
  exact this ⟨n, h⟩

theorem char_inj {m n : ℕ} (hm : m < 64) (hn : n < 64) (h : char m = char n) : m = n := by
  rw [← digit_char hm, h, digit_char hn]

theorem char_ne_pad {n : ℕ} (h : n < 64) : char n ≠ '=' := by
  have : ∀ i : Fin 64, char i ≠ '=' := by decide
  exact this ⟨n, h⟩

/-- The characters that occur in an encoding. -/
def IsChar (c : Char) : Prop := c = '=' ∨ ∃ n < 64, c = char n

theorem isChar_char {n : ℕ} (h : n < 64) : IsChar (char n) := .inr ⟨n, h, rfl⟩

theorem mem_encode {xs : List UInt8} {c : Char} (h : c ∈ encode xs) : IsChar c := by
  induction xs using encode.induct with
  | case1 => cases h
  | case2 a =>
    have ha := a.toNat_lt
    simp only [encode, List.mem_cons, List.not_mem_nil, or_false] at h
    rcases h with rfl | rfl | rfl | rfl
    · exact isChar_char (by omega)
    · exact isChar_char (by omega)
    · exact .inl rfl
    · exact .inl rfl
  | case3 a b =>
    have ha := a.toNat_lt
    have hb := b.toNat_lt
    simp only [encode, List.mem_cons, List.not_mem_nil, or_false] at h
    rcases h with rfl | rfl | rfl | rfl
    · exact isChar_char (by omega)
    · exact isChar_char (by omega)
    · exact isChar_char (by omega)
    · exact .inl rfl
  | case4 a b d rest ih =>
    have ha := a.toNat_lt
    have hb := b.toNat_lt
    have hd := d.toNat_lt
    simp only [encode, List.mem_cons] at h
    rcases h with rfl | rfl | rfl | rfl | h
    · exact isChar_char (by omega)
    · exact isChar_char (by omega)
    · exact isChar_char (by omega)
    · exact isChar_char (by omega)
    · exact ih h

theorem encode_eq_nil {xs : List UInt8} (h : encode xs = []) : xs = [] := by
  match xs, h with
  | [], _ => rfl
  | [a], h => exact absurd h (List.cons_ne_nil _ _)
  | [a, b], h => exact absurd h (List.cons_ne_nil _ _)
  | a :: b :: c :: rest, h => exact absurd h (List.cons_ne_nil _ _)

theorem encode_injective {xs ys : List UInt8} (h : encode xs = encode ys) : xs = ys := by
  induction xs using encode.induct generalizing ys with
  | case1 => exact (encode_eq_nil h.symm).symm
  | case2 a =>
    have ha := a.toNat_lt
    match ys, h with
    | [c], h =>
      have hc := c.toNat_lt
      simp only [encode, List.cons.injEq] at h
      have h1 := char_inj (by omega) (by omega) h.1
      have h2 := char_inj (by omega) (by omega) h.2.1
      rw [show a = c from UInt8.toNat_inj.mp (by omega)]
    | [c, d], h =>
      have hd := d.toNat_lt
      simp only [encode, List.cons.injEq] at h
      exact absurd h.2.2.1.symm (char_ne_pad (by omega))
    | c :: d :: e :: rest, h =>
      have hd := d.toNat_lt
      have he := e.toNat_lt
      simp only [encode, List.cons.injEq] at h
      exact absurd h.2.2.1.symm (char_ne_pad (by omega))
  | case3 a b =>
    have ha := a.toNat_lt
    have hb := b.toNat_lt
    match ys, h with
    | [c], h =>
      simp only [encode, List.cons.injEq] at h
      exact absurd h.2.2.1 (char_ne_pad (by omega))
    | [c, d], h =>
      have hc := c.toNat_lt
      have hd := d.toNat_lt
      simp only [encode, List.cons.injEq] at h
      have h1 := char_inj (by omega) (by omega) h.1
      have h2 := char_inj (by omega) (by omega) h.2.1
      have h3 := char_inj (by omega) (by omega) h.2.2.1
      rw [show a = c from UInt8.toNat_inj.mp (by omega),
        show b = d from UInt8.toNat_inj.mp (by omega)]
    | c :: d :: e :: rest, h =>
      have he := e.toNat_lt
      simp only [encode, List.cons.injEq] at h
      exact absurd h.2.2.2.1.symm (char_ne_pad (by omega))
  | case4 a b e rest ih =>
    have ha := a.toNat_lt
    have hb := b.toNat_lt
    have he := e.toNat_lt
    match ys, h with
    | [c], h =>
      simp only [encode, List.cons.injEq] at h
      exact absurd h.2.2.1 (char_ne_pad (by omega))
    | [c, d], h =>
      simp only [encode, List.cons.injEq] at h
      exact absurd h.2.2.2.1 (char_ne_pad (by omega))
    | c :: d :: f :: rest', h =>
      have hc := c.toNat_lt
      have hd := d.toNat_lt
      have hf := f.toNat_lt
      simp only [encode, List.cons.injEq] at h
      have h1 := char_inj (by omega) (by omega) h.1
      have h2 := char_inj (by omega) (by omega) h.2.1
      have h3 := char_inj (by omega) (by omega) h.2.2.1
      have h4 := char_inj (by omega) (by omega) h.2.2.2.1
      rw [ih h.2.2.2.2, show a = c from UInt8.toNat_inj.mp (by omega),
        show b = d from UInt8.toNat_inj.mp (by omega),
        show e = f from UInt8.toNat_inj.mp (by omega)]

/-- Two texts are taken apart at a separator that occurs in neither first part. -/
theorem append_inj_of_notMem {α : Type} {sep : α} {as bs cs ds : List α} (ha : sep ∉ as)
    (hc : sep ∉ cs) (h : as ++ sep :: bs = cs ++ sep :: ds) : as = cs ∧ bs = ds := by
  induction as generalizing cs with
  | nil =>
    match cs, h with
    | [], h => exact ⟨rfl, (List.cons.inj h).2⟩
    | c :: cs, h => exact absurd ((List.cons.inj h).1 ▸ List.mem_cons_self) hc
  | cons a as ih =>
    match cs, h with
    | [], h => exact absurd ((List.cons.inj h).1 ▸ List.mem_cons_self) ha
    | c :: cs, h =>
      obtain ⟨hac, h⟩ := List.cons.inj h
      obtain ⟨h1, h2⟩ := ih (fun hm => ha (List.mem_cons_of_mem _ hm))
        (fun hm => hc (List.mem_cons_of_mem _ hm)) h
      exact ⟨by rw [hac, h1], h2⟩

end Base64
