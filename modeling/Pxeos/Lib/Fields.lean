import Pxeos.Lib.Text
import Pxeos.Lib.Shell
import Mathlib.Data.List.TakeWhile
import Mathlib.Data.List.DropRight

/-!
# Fields behind commas

How a field is found in a line such as `start=1, size=2, name="a"` by the pattern
`(^|,)[[:space:]]*key=`: at the beginning or behind the leftmost comma where it matches, in quotes
or not.  A character that is no blank and not in the key is a barrier, across which nothing matches.
-/

namespace Pxeos.Lib

/-- `^[[:space:]]*key`: what follows the match. -/
def behindKey (key t : List Char) : Option (List Char) :=
  if key <+: t.dropWhile isSpace then some ((t.dropWhile isSpace).drop key.length) else none

/-- `,[[:space:]]*key`: what follows the leftmost match. -/
def behindComma (key : List Char) : List Char → Option (List Char)
  | [] => none
  | c :: t => if c = ',' then (behindKey key t).or (behindComma key t) else behindComma key t

/-- `(^|,)[[:space:]]*key`: what follows the leftmost match. -/
def behindField (key t : List Char) : Option (List Char) := (behindKey key t).or (behindComma key t)

/-- `^([[:space:]]*,|[[:space:]]*$)`. -/
def endsField (t : List Char) : Bool :=
  match t.dropWhile isSpace with
  | [] => true
  | c :: _ => c == ','

/-- `^[[:space:]]*key([[:space:]]*,|[[:space:]]*$)`. -/
def flagHere (key t : List Char) : Bool := ((behindKey key t).map endsField).getD false

/-- `,[[:space:]]*key([[:space:]]*,|[[:space:]]*$)`. -/
def flagComma (key : List Char) : List Char → Bool
  | [] => false
  | c :: t => (c == ',' && flagHere key t) || flagComma key t

/-- `(^|,)[[:space:]]*key([[:space:]]*,|[[:space:]]*$)`. -/
def flagField (key t : List Char) : Bool := flagHere key t || flagComma key t

/-- Without blanks at its ends, and without carriage returns. -/
def trim (t : List Char) : List Char :=
  ((t.filter (· != '\r')).dropWhile isSpace).rdropWhile isSpace

/-! ### Barriers -/

variable {key : List Char}

lemma dropWhile_barrier {q : Char} (hq : isSpace q = false) (t u : List Char) :
    (t ++ q :: u).dropWhile isSpace = t.dropWhile isSpace ++ q :: u := by
  rw [List.dropWhile_append]
  split
  next h =>
    rw [List.isEmpty_iff.mp h, List.dropWhile_cons_of_neg (by simp [hq]), List.nil_append]
  next => rfl

/-- A key that does not have the barrier stands before it. -/
lemma prefix_barrier {q : Char} (hq : q ∉ key) (t u : List Char) :
    key <+: t ++ q :: u ↔ key <+: t := by
  constructor
  · intro h
    by_contra hn
    have hlen : t.length < key.length := by
      by_contra hle
      exact hn (List.prefix_of_prefix_length_le h (List.prefix_append t (q :: u)) (by omega))
    have hsub : t ++ [q] <+: key :=
      List.prefix_of_prefix_length_le ⟨u, by simp⟩ h (by rw [List.length_append]; exact hlen)
    exact hq (hsub.subset (by simp))
  · intro h
    exact h.trans (List.prefix_append _ _)

lemma behindKey_barrier {q : Char} (hs : isSpace q = false) (hq : q ∉ key) (t u : List Char) :
    behindKey key (t ++ q :: u) = (behindKey key t).map (· ++ q :: u) := by
  unfold behindKey
  rw [dropWhile_barrier hs]
  by_cases h : key <+: t.dropWhile isSpace
  · rw [if_pos h, if_pos ((prefix_barrier hq _ _).mpr h), Option.map_some,
      List.drop_append_of_le_length h.length_le]
  · rw [if_neg h, if_neg (mt (prefix_barrier hq _ _).mp h), Option.map_none]

/-- **A match does not reach across a barrier.** -/
lemma behindComma_barrier {q : Char} (hs : isSpace q = false) (hq : q ∉ key) (t u : List Char) :
    behindComma key (t ++ q :: u) = ((behindComma key t).map (· ++ q :: u)).or
      (behindComma key (q :: u)) := by
  induction t with
  | nil => rfl
  | cons c t ih =>
    rw [List.cons_append, behindComma, behindComma]
    split
    · rw [behindKey_barrier hs hq, ih]
      cases behindKey key t with
      | none => rfl
      | some r => rfl
    · exact ih

lemma behindComma_cons_of_ne {c : Char} (hc : c ≠ ',') (t : List Char) :
    behindComma key (c :: t) = behindComma key t := if_neg hc

/-- There is no match before the first comma. -/
lemma behindComma_append {a : List Char} (ha : ',' ∉ a) (t : List Char) :
    behindComma key (a ++ t) = behindComma key t := by
  induction a with
  | nil => rfl
  | cons c a ih =>
    rw [List.mem_cons, not_or] at ha
    rw [List.cons_append, behindComma_cons_of_ne (Ne.symm ha.1), ih ha.2]

lemma behindComma_of_notMem {a : List Char} (ha : ',' ∉ a) : behindComma key a = none := by
  have : behindComma key (a ++ []) = behindComma key [] := behindComma_append ha []
  rwa [List.append_nil] at this

/-- **Where a key is found behind a comma**: blanks stand between the two. -/
lemma behindComma_isSome {t : List Char} :
    (behindComma key t).isSome = true ↔ ∃ a b c, t = a ++ ',' :: (b ++ c) ∧
      (∀ x ∈ b, isSpace x = true) ∧ key <+: c ∧
      c.dropWhile isSpace = c := by
  induction t with
  | nil => simp [behindComma]
  | cons x t ih =>
    have hhere : (behindKey key t).isSome = true ↔ ∃ b c, t = b ++ c ∧
        (∀ x ∈ b, isSpace x = true) ∧ key <+: c ∧
        c.dropWhile isSpace = c := by
      unfold behindKey
      constructor
      · intro h
        split at h
        next hp =>
          exact ⟨t.takeWhile isSpace, t.dropWhile isSpace, (List.takeWhile_append_dropWhile).symm,
            fun x hx => List.mem_takeWhile_imp hx, hp, List.dropWhile_idempotent _ _⟩
        next => cases h
      · rintro ⟨b, c, rfl, hb, hp, hc⟩
        rw [List.dropWhile_append_of_pos hb, hc, if_pos hp]
        rfl
    constructor
    · intro h
      rw [behindComma] at h
      split at h
      next hx =>
        rw [Option.isSome_or, Bool.or_eq_true, hhere, ih] at h
        rcases h with ⟨b, c, ht, h⟩ | ⟨a, b, c, ht, h⟩
        · exact ⟨[], b, c, by rw [ht, hx]; rfl, h⟩
        · exact ⟨x :: a, b, c, by rw [ht]; rfl, h⟩
      next =>
        obtain ⟨a, b, c, ht, h⟩ := ih.mp h
        exact ⟨x :: a, b, c, by rw [ht]; rfl, h⟩
    · rintro ⟨a, b, c, ht, h⟩
      cases a with
      | nil =>
        obtain ⟨rfl, rfl⟩ := List.cons.inj ht
        rw [behindComma, if_pos rfl, Option.isSome_or, hhere.mpr ⟨b, c, rfl, h⟩, Bool.true_or]
      | cons y a =>
        obtain ⟨rfl, rfl⟩ := List.cons.inj ht
        have hrest := ih.mpr ⟨a, b, c, rfl, h⟩
        rw [behindComma]
        split
        · rw [Option.isSome_or, hrest, Bool.or_true]
        · exact hrest

/-- What follows a match ends the text. -/
lemma behindComma_suffix {t r : List Char} (h : behindComma key t = some r) : r <:+ t := by
  induction t with
  | nil => cases h
  | cons c t ih =>
    rw [behindComma] at h
    split at h
    · rcases Option.or_eq_some_iff.mp h with h | ⟨-, h⟩
      · unfold behindKey at h
        split at h
        · rw [← Option.some.inj h]
          exact (List.drop_suffix _ _).trans
            ((List.dropWhile_suffix _).trans (List.suffix_cons c t))
        · cases h
      · exact (ih h).trans (List.suffix_cons c t)
    · exact (ih h).trans (List.suffix_cons c t)

lemma flagHere_barrier {q : Char} (hs : isSpace q = false) (hq : q ∉ key) (t u : List Char) :
    flagHere key (t ++ q :: u) = flagHere key (t ++ [q]) := by
  unfold flagHere
  rw [behindKey_barrier hs hq, behindKey_barrier hs hq, Option.map_map, Option.map_map]
  congr 2
  funext r
  -- the flag ends before the barrier, or not at all
  unfold Function.comp endsField
  rw [dropWhile_barrier hs, dropWhile_barrier hs]
  cases r.dropWhile isSpace with
  | nil => rfl
  | cons x r => rfl

lemma flagComma_barrier {q : Char} (hs : isSpace q = false) (hq : q ∉ key) (hc : q ≠ ',')
    (t u : List Char) :
    flagComma key (t ++ q :: u) = (flagComma key (t ++ [q]) || flagComma key u) := by
  induction t with
  | nil =>
    have hq : (q == ',') = false := by simpa using hc
    simp [flagComma, hq]
  | cons c t ih =>
    rw [List.cons_append, List.cons_append, flagComma, flagComma, flagHere_barrier hs hq,
      ih, Bool.or_assoc]

lemma flagComma_append {a : List Char} (ha : ',' ∉ a) (t : List Char) :
    flagComma key (a ++ t) = flagComma key t := by
  induction a with
  | nil => rfl
  | cons c a ih =>
    rw [List.mem_cons, not_or] at ha
    have hc : (c == ',') = false := by simpa using Ne.symm ha.1
    rw [List.cons_append, flagComma, hc, Bool.false_and, Bool.false_or, ih ha.2]

/-! ### Keys and values -/

/-- A word and the equals sign behind it. -/
def FieldKey (key : List Char) : Prop := ∃ k, key = k ++ ['='] ∧ k ≠ [] ∧ ∀ c ∈ k, c.isAlpha = true

/-- A field behind another one. -/
def fieldText (key value : List Char) : List Char := ',' :: ' ' :: (key ++ value)

lemma isSpace_of_isAlpha {c : Char} (h : c.isAlpha = true) : isSpace c = false := by
  by_contra hs
  have hs : isSpace c = true := by simpa using hs
  simp only [isSpace, Bool.or_eq_true, Bool.and_eq_true, beq_iff_eq, decide_eq_true_eq, Char.le_def,
    UInt32.le_iff_toNat_le] at hs
  simp only [isAlpha_eq, isUpper_eq, isLower_eq, Bool.or_eq_true, Bool.and_eq_true,
    decide_eq_true_eq, ge_iff_le,
    UInt32.le_iff_toNat_le] at h
  rcases hs with rfl | hs
  · exact absurd h (by decide)
  · have h13 : '\r'.val.toNat = 13 := rfl
    have h65 : 'A'.val.toNat = 65 := rfl
    have h97 : 'a'.val.toNat = 97 := rfl
    omega

lemma FieldKey.notMem (hk : FieldKey key) {c : Char} (hc : c.isAlpha = false) (he : c ≠ '=') :
    c ∉ key := by
  obtain ⟨k, rfl, -, hall⟩ := hk
  simp only [List.mem_append, List.mem_singleton, not_or]
  refine ⟨fun h => ?_, he⟩
  rw [hall c h] at hc
  cases hc

lemma FieldKey.dropWhile (hk : FieldKey key) (t : List Char) :
    (key ++ t).dropWhile isSpace = key ++ t := by
  obtain ⟨k, rfl, hne, hall⟩ := hk
  obtain ⟨c, k, rfl⟩ := List.exists_cons_of_ne_nil hne
  have hc := isSpace_of_isAlpha (hall c (by simp))
  rw [List.cons_append, List.cons_append, List.dropWhile_cons_of_neg (by simp [hc])]

lemma behindKey_self (hk : FieldKey key) (v : List Char) : behindKey key (key ++ v) = some v := by
  unfold behindKey
  rw [hk.dropWhile, if_pos (List.prefix_append _ _), List.drop_left]

lemma behindKey_blank (t : List Char) : behindKey key (' ' :: t) = behindKey key t := by
  unfold behindKey
  rw [List.dropWhile_cons_of_pos (by decide)]

/-- One key is not found in the place of another. -/
lemma behindKey_other {key' : List Char} (hk : FieldKey key) (hk' : FieldKey key')
    (hne : key ≠ key') (v : List Char) :
    behindKey key (key' ++ v) = none := by
  unfold behindKey
  rw [hk'.dropWhile, if_neg]
  intro h
  obtain ⟨k, rfl, -, hall⟩ := hk
  obtain ⟨k', rfl, -, hall'⟩ := hk'
  have hno : ∀ l : List Char, (∀ c ∈ l, c.isAlpha = true) → '=' ∉ l :=
    fun l hl hm => absurd (hl _ hm) (by decide)
  exact hne (by rw [tight_prefix_eq (hno k hall) (hno k' hall') h (List.prefix_append _ _)])

lemma behindComma_field (hk : FieldKey key) (v rest : List Char) :
    behindComma key (fieldText key v ++ rest) = some (v ++ rest) := by
  unfold fieldText
  rw [List.cons_append, List.cons_append, List.append_assoc, behindComma, if_pos rfl,
    behindKey_blank, behindKey_self hk,
    Option.some_or]

lemma behindComma_field_other {key' : List Char} (hk : FieldKey key) (hk' : FieldKey key')
    (hne : key ≠ key') (v rest : List Char) :
    behindComma key (fieldText key' v ++ rest) = behindComma key (v ++ rest) := by
  have hcomma : ',' ∉ ' ' :: key' := by
    rw [List.mem_cons, not_or]
    exact ⟨by decide, hk'.notMem (by decide) (by decide)⟩
  unfold fieldText
  rw [List.cons_append, List.cons_append, List.append_assoc, behindComma, if_pos rfl,
    behindKey_blank,
    behindKey_other hk hk' hne, Option.none_or, ← List.cons_append, behindComma_append hcomma]

/-- A field is no flag. -/
lemma flagComma_field {flag key' : List Char} (hflag : '=' ∉ flag) (hk : FieldKey key')
    (hne : ¬ flag <+: key') (v rest : List Char) :
    flagComma flag (fieldText key' v ++ rest) = flagComma flag (v ++ rest) := by
  have hcomma : ',' ∉ ' ' :: key' := by
    rw [List.mem_cons, not_or]
    exact ⟨by decide, hk.notMem (by decide) (by decide)⟩
  have hhere : flagHere flag (' ' :: (key' ++ (v ++ rest))) = false := by
    unfold flagHere
    rw [behindKey_blank]
    unfold behindKey
    rw [hk.dropWhile, if_neg]
    · rfl
    · intro h
      obtain ⟨k, rfl, -, -⟩ := hk
      rw [List.append_assoc, List.singleton_append, prefix_barrier hflag] at h
      exact hne (h.trans (List.prefix_append _ _))
  unfold fieldText
  rw [List.cons_append, List.cons_append, List.append_assoc, flagComma, hhere,
    Bool.and_false, Bool.false_or,
    ← List.cons_append, flagComma_append hcomma]

/-! ### Cutting a printed line -/

/-- What stands before the first separator, and behind it, is found again. -/
lemma cut_inj {α : Type*} {c : α} {a b s t : List α} (ha : c ∉ a) (hb : c ∉ b)
    (h : a ++ c :: s = b ++ c :: t) : a = b ∧ s = t := by
  induction a generalizing b with
  | nil =>
    cases b with
    | nil => exact ⟨rfl, (List.cons.inj h).2⟩
    | cons y b => exact absurd (List.mem_cons.mpr (.inl (List.cons.inj h).1)) hb
  | cons x a ih =>
    cases b with
    | nil => exact absurd (List.mem_cons.mpr (.inl (List.cons.inj h).1.symm)) ha
    | cons y b =>
      rw [List.cons_append, List.cons_append, List.cons.injEq] at h
      obtain ⟨rfl, h⟩ := h
      obtain ⟨rfl, rfl⟩ :=
        ih (fun hm => ha (List.mem_cons_of_mem _ hm)) (fun hm => hb (List.mem_cons_of_mem _ hm)) h
      exact ⟨rfl, rfl⟩

end Pxeos.Lib
