import Mathlib.Data.List.Infix
import Mathlib.Data.List.Basic
import Mathlib.Tactic.Cases

/-!
# Records in lines of text

What a line-oriented reader does with a record: find a key, take what stands behind its last
occurrence, cut the line at a separator.  A key is *tight* when its last character occurs nowhere
else in it, as in `size=`; then two occurrences cannot overlap, and the text behind a key is found
again.
-/

namespace Pxeos.Lib

/-- Texts are equal if their characters are. -/
instance lawfulBEq_text : LawfulBEq (List Char) := inferInstance

lemma isAlpha_eq (c : Char) : c.isAlpha = (c.isUpper || c.isLower) := rfl

lemma isUpper_eq (c : Char) : c.isUpper = decide (c.val ≥ 'A'.val ∧ c.val ≤ 'Z'.val) := rfl

lemma isLower_eq (c : Char) : c.isLower = (decide (c.val ≥ 'a'.val) && decide (c.val ≤ 'z'.val)) :=
  rfl

/-- A property of all members, checked one by one. -/
lemma forall_mem_of_all {α : Type} {p : α → Prop} [DecidablePred p] {l : List α}
    (h : (l.all fun x => decide (p x)) = true) :
    ∀ x ∈ l, p x := fun x hx => of_decide_eq_true (List.all_eq_true.mp h x hx)

section Keys

variable {α : Type} [DecidableEq α]

/-- The text behind the last occurrence of a key. -/
def afterLast (key : List α) : List α → Option (List α)
  | [] => none
  | c :: t =>
    match afterLast key t with
    | some r => some r
    | none => if key <+: c :: t then some ((c :: t).drop key.length) else none

/-- The text behind the first occurrence of a key. -/
def afterFirst (key : List α) : List α → Option (List α)
  | [] => none
  | c :: t => if key <+: c :: t then some ((c :: t).drop key.length) else afterFirst key t

/-- The text before the first occurrence of a key, all of it if there is none. -/
def beforeFirst (key : List α) : List α → List α
  | [] => []
  | c :: t => if key <+: c :: t then [] else c :: beforeFirst key t

/-- The last element of the key occurs only there. -/
def Tight (key : List α) : Prop := ∃ k c, key = k ++ [c] ∧ c ∉ k

variable {key : List α}

lemma afterLast_eq_none (hkey : key ≠ []) {t : List α} : afterLast key t = none ↔ ¬ key <:+: t := by
  induction t with
  | nil => simp [afterLast, hkey]
  | cons c t ih =>
    unfold afterLast
    rw [List.infix_cons_iff, not_or, ← ih]
    cases h : afterLast key t with
    | none => simp
    | some r => simp

lemma afterLast_append {t r : List α} (h : afterLast key t = some r) (pre : List α) :
    afterLast key (pre ++ t) = some r := by
  induction pre with
  | nil => exact h
  | cons c pre ih => simp only [List.cons_append, afterLast, ih]

/-- What follows the last occurrence has none. -/
lemma not_infix_of_afterLast {t r : List α} (hkey : key ≠ []) (h : afterLast key t = some r) :
    ¬ key <:+: r := by
  induction t with
  | nil => simp [afterLast] at h
  | cons c t ih =>
    unfold afterLast at h
    cases ht : afterLast key t with
    | some r' =>
      rw [ht] at h
      exact ih (ht.trans h)
    | none =>
      simp only [ht] at h
      split at h
      · obtain rfl := Option.some.inj h
        obtain ⟨x, key', rfl⟩ := List.exists_cons_of_ne_nil hkey
        intro hin
        refine (afterLast_eq_none hkey).mp ht (hin.trans ?_)
        rw [List.length_cons, List.drop_succ_cons]
        exact (List.drop_suffix _ t).isInfix
      · cases h

/-- The key stands before what follows it. -/
lemma exists_of_afterLast {t r : List α} (h : afterLast key t = some r) :
    ∃ s, t = s ++ (key ++ r) := by
  induction t with
  | nil => simp [afterLast] at h
  | cons c t ih =>
    unfold afterLast at h
    cases ht : afterLast key t with
    | some r' =>
      rw [ht] at h
      obtain ⟨s, hs⟩ := ih (ht.trans h)
      exact ⟨c :: s, by rw [hs, List.cons_append]⟩
    | none =>
      simp only [ht] at h
      split at h
      next hp =>
        obtain rfl := Option.some.inj h
        obtain ⟨u, hu⟩ := hp
        exact ⟨[], by simp [← hu]⟩
      next => cases h

omit [DecidableEq α] in
/-- An occurrence cannot begin within the end of another one. -/
lemma not_infix_short {k : List α} {c : α} (hc : c ∉ k) {rest : List α}
    (hrest : ¬ k ++ [c] <:+: rest) :
    ∀ {u : List α}, u.length < k.length → ¬ k ++ [c] <:+: u ++ c :: rest
  | [], hu => by
    rw [List.nil_append, List.infix_cons_iff, not_or]
    refine ⟨fun h => hc ?_, hrest⟩
    obtain ⟨x, k, rfl⟩ := List.exists_cons_of_ne_nil (List.ne_nil_of_length_pos hu)
    rw [List.cons_append, List.cons_prefix_cons] at h
    exact h.1 ▸ List.mem_cons_self
  | x :: u, hu => by
    rw [List.cons_append, List.infix_cons_iff, not_or]
    refine ⟨fun h => hc ?_, not_infix_short hc hrest (Nat.lt_of_succ_lt hu)⟩
    have h1 : k <+: x :: (u ++ c :: rest) := (List.prefix_append k [c]).trans h
    have h2 : (x :: u) ++ [c] <+: x :: (u ++ c :: rest) := ⟨rest, by simp⟩
    have h3 := List.prefix_of_prefix_length_le h2 h1 (by simp at hu ⊢; omega)
    exact h3.subset (by simp)

/-- **The text behind a key is found again.** -/
theorem afterLast_key (hkey : Tight key) {rest : List α} (hrest : ¬ key <:+: rest) (pre : List α) :
    afterLast key (pre ++ (key ++ rest)) = some rest := by
  refine afterLast_append ?_ pre
  obtain ⟨k, c, rfl, hc⟩ := hkey
  have htail : ∀ x k', k = x :: k' → afterLast (k ++ [c]) (k' ++ c :: rest) = none := by
    rintro x k' rfl
    exact (afterLast_eq_none (by simp)).mpr (not_infix_short hc hrest (by simp))
  cases k with
  | nil =>
    have : afterLast [c] rest = none := (afterLast_eq_none (by simp)).mpr hrest
    simp [afterLast, this]
  | cons x k' =>
    have := htail x k' rfl
    rw [List.cons_append, List.cons_append, List.append_assoc, List.singleton_append, afterLast]
    rw [List.cons_append] at this
    rw [this, if_pos ⟨rest, by simp⟩]
    simp

lemma afterFirst_append {pre t : List α} (h : ∀ u, u <:+ pre → u ≠ [] → ¬ key <+: u ++ t) :
    afterFirst key (pre ++ t) = afterFirst key t := by
  induction pre with
  | nil => rfl
  | cons c pre ih =>
    rw [List.cons_append, afterFirst, if_neg]
    · exact ih fun u hu => h u (hu.trans (List.suffix_cons c pre))
    · exact h _ List.suffix_rfl (by simp)

lemma beforeFirst_append {pre t : List α} (h : ∀ u, u <:+ pre → u ≠ [] → ¬ key <+: u ++ t) :
    beforeFirst key (pre ++ t) = pre ++ beforeFirst key t := by
  induction pre with
  | nil => rfl
  | cons c pre ih =>
    rw [List.cons_append, beforeFirst, if_neg]
    · rw [ih fun u hu => h u (hu.trans (List.suffix_cons c pre)), List.cons_append]
    · exact h _ List.suffix_rfl (by simp)

omit [DecidableEq α] in
/-- A key that does not begin in `pre`. -/
lemma not_prefix_of_suffix {k : List α} {c : α} {pre : List α} (hpre : ¬ k ++ [c] <:+: pre ++ k)
    (rest : List α) :
    ∀ u, u <:+ pre → u ≠ [] → ¬ k ++ [c] <+: u ++ (k ++ [c] ++ rest) := by
  intro u hu hne h
  have h1 : k ++ [c] <+: (u ++ k) ++ (c :: rest) := by simpa using h
  have h2 : u ++ k <+: (u ++ k) ++ (c :: rest) := List.prefix_append _ _
  have hlen : 0 < u.length := List.length_pos_of_ne_nil hne
  have h3 := List.prefix_of_prefix_length_le h1 h2 (by simp; omega)
  obtain ⟨v, rfl⟩ := hu
  refine hpre (h3.isInfix.trans ?_)
  rw [List.append_assoc]
  exact (List.suffix_append v _).isInfix

/-- The first occurrence of a key. -/
lemma afterFirst_key {k : List α} {c : α} {pre : List α} (hpre : ¬ k ++ [c] <:+: pre ++ k)
    (rest : List α) :
    afterFirst (k ++ [c]) (pre ++ (k ++ [c] ++ rest)) = some rest := by
  rw [afterFirst_append (not_prefix_of_suffix hpre rest)]
  cases k with
  | nil => simp [afterFirst]
  | cons x k =>
    rw [List.cons_append, List.cons_append, afterFirst, if_pos ⟨rest, by simp⟩]
    simp

lemma beforeFirst_key {k : List α} {c : α} {pre : List α} (hpre : ¬ k ++ [c] <:+: pre ++ k)
    (rest : List α) :
    beforeFirst (k ++ [c]) (pre ++ (k ++ [c] ++ rest)) = pre := by
  rw [beforeFirst_append (not_prefix_of_suffix hpre rest)]
  cases k with
  | nil => simp [beforeFirst]
  | cons x k =>
    rw [List.cons_append, List.cons_append, beforeFirst, if_pos ⟨rest, by simp⟩, List.append_nil]

omit [DecidableEq α] in
/-- Where a tight key can end: at the first occurrence of its last element, or behind it. -/
lemma infix_split {k a b : List α} {c : α} (hk : c ∉ k) (ha : c ∉ a)
    (h : k ++ [c] <:+: a ++ c :: b) :
    k <:+ a ∨ k ++ [c] <:+: b := by
  obtain ⟨s, t, hst⟩ := h
  have hst : (s ++ k) ++ c :: t = a ++ c :: b := by simpa using hst
  rcases List.append_eq_append_iff.mp hst with ⟨d, had, hd⟩ | ⟨d, had, hd⟩
  · cases d with
    | nil => exact .inl ⟨s, by simpa using had.symm⟩
    | cons x d =>
      rw [List.cons_append, List.cons.injEq] at hd
      exact absurd (by rw [had, ← hd.1]; simp) ha
  · cases d with
    | nil => exact .inl ⟨s, by simpa using had⟩
    | cons x d =>
      rw [List.cons_append, List.cons.injEq] at hd
      obtain ⟨rfl, rfl⟩ := hd
      have h1 : k <:+ a ++ c :: d := ⟨s, had⟩
      have h2 : k <:+ d := by
        have h3 : c :: d <:+ a ++ c :: d := List.suffix_append _ _
        rcases Nat.lt_or_ge d.length k.length with hlt | hle
        · exact absurd ((List.suffix_of_suffix_length_le h3 h1 hlt).subset (by simp)) hk
        · exact List.suffix_of_suffix_length_le h1 ((List.suffix_cons c d).trans h3) hle
      obtain ⟨e, rfl⟩ := h2
      exact .inr ⟨e, t, by simp⟩

omit [DecidableEq α] in
/-- Of two tight keys with the same last element that begin a text, one is the other. -/
lemma tight_prefix_eq {k k' t : List α} {c : α} (hk : c ∉ k) (hk' : c ∉ k') (h : k ++ [c] <+: t)
    (h' : k' ++ [c] <+: t) :
    k = k' := by
  have hp : k <+: t := (List.prefix_append k [c]).trans h
  have hp' : k' <+: t := (List.prefix_append k' [c]).trans h'
  rcases Nat.lt_trichotomy k.length k'.length with hlt | heq | hlt
  · exact absurd
      ((List.prefix_of_prefix_length_le h hp' (by rw [List.length_append]; exact hlt)).subset
        (by simp)) hk'
  · exact (List.prefix_of_prefix_length_le hp hp' heq.le).eq_of_length heq
  · exact absurd
      ((List.prefix_of_prefix_length_le h' hp (by rw [List.length_append]; exact hlt)).subset
        (by simp)) hk

lemma beforeFirst_eq_self {t : List α} (h : ¬ key <:+: t) : beforeFirst key t = t := by
  induction t with
  | nil => rfl
  | cons c t ih =>
    rw [List.infix_cons_iff, not_or] at h
    rw [beforeFirst, if_neg h.1, ih h.2]

end Keys

/-! ### Decimal numbers -/

/-- `%d`. -/
def decimal : ℤ → List Char
  | .ofNat n => Nat.toDigits 10 n
  | .negSucc n => '-' :: Nat.toDigits 10 (n + 1)

lemma isDigit_of_mem_toDigits {n : ℕ} {c : Char} (h : c ∈ Nat.toDigits 10 n) : c.isDigit = true :=
  Nat.isDigit_of_mem_toDigits (by decide) (by decide) h

lemma toDigits_injective {m n : ℕ} (h : Nat.toDigits 10 m = Nat.toDigits 10 n) : m = n := by
  have hm := Nat.ofDigitChars_ten_toDigits (n := m)
  rw [h, Nat.ofDigitChars_ten_toDigits] at hm
  exact hm.symm

end Pxeos.Lib
