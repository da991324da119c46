import Mathlib.Data.List.Nodup
import Mathlib.Logic.Equiv.Basic

/-!
# Giving out the members of a list

Two ways to give the members of a list to requests, one after the other.  With `onlyFree` a request
asks for a value, and fails unless exactly one free member has it: it succeeds exactly if there is
one assignment in all.  With `firstFree` a request takes the first free member that fits it, and a
request that none fits is passed over.
-/

namespace Pxeos.Lib

variable {α β : Type*} [DecidableEq α] [DecidableEq β]

/-- Each value gets the only free member that has it. -/
def onlyFree (value : α → β) : List α → List β → Option (List α)
  | _, [] => some []
  | free, b :: bs =>
    match free.filter fun a => value a = b with
    | [a] => (onlyFree value (free.erase a) bs).map (a :: ·)
    | _ => none

/-- Different members, in the order of the values that they have. -/
structure Injection (value : α → β) (members : List α) (bs : List β) (as : List α) : Prop where
  nodup : as.Nodup
  subset : ∀ a ∈ as, a ∈ members
  values : as.map value = bs

omit [DecidableEq α] [DecidableEq β] in
lemma injection_nil_iff {value : α → β} {free as : List α} :
    Injection value free [] as ↔ as = [] := by
  constructor
  · intro h
    exact List.map_eq_nil_iff.mp h.values
  · rintro rfl
    exact ⟨List.nodup_nil, fun a ha => absurd ha List.not_mem_nil, rfl⟩

omit [DecidableEq β] in
lemma injection_cons_iff {value : α → β} {free as : List α} {b : β} {bs : List β}
    (hnd : free.Nodup) :
    Injection value free (b :: bs) as ↔
      ∃ a as', as = a :: as' ∧ a ∈ free ∧ value a = b ∧ Injection value (free.erase a) bs as' := by
  constructor
  · intro h
    obtain ⟨a, as', rfl, ha, has⟩ := List.map_eq_cons_iff.mp h.values
    obtain ⟨hnot, hnd'⟩ := List.nodup_cons.mp h.nodup
    refine ⟨a, as', rfl, h.subset a List.mem_cons_self, ha, hnd', fun x hx => ?_, has⟩
    refine (hnd.mem_erase_iff).mpr ⟨?_, h.subset x (List.mem_cons_of_mem _ hx)⟩
    rintro rfl
    exact hnot hx
  · rintro ⟨a, as', rfl, ha, hb, h⟩
    refine ⟨List.nodup_cons.mpr ⟨fun hmem => ?_, h.nodup⟩, ?_, by rw [List.map_cons, hb, h.values]⟩
    · exact ((hnd.mem_erase_iff).mp (h.subset a hmem)).1 rfl
    · intro x hx
      rcases List.mem_cons.mp hx with rfl | hx
      · exact ha
      · exact List.mem_of_mem_erase (h.subset x hx)

omit [DecidableEq β] in
/-- Two members of one value change places. -/
lemma Injection.swap {value : α → β} {free as : List α} {bs : List β}
    (h : Injection value free bs as) {x y : α} (hx : x ∈ free) (hy : y ∈ free)
    (hxy : value x = value y) : Injection value free bs (as.map (Equiv.swap x y)) := by
  refine ⟨h.nodup.map (Equiv.swap x y).injective, ?_, ?_⟩
  · intro a ha
    obtain ⟨c, hc, rfl⟩ := List.mem_map.mp ha
    rw [Equiv.swap_apply_def]
    split_ifs
    · exact hy
    · exact hx
    · exact h.subset c hc
  · rw [List.map_map, ← h.values]
    refine List.map_congr_left fun a _ => ?_
    rw [Function.comp_apply, Equiv.swap_apply_def]
    split_ifs with h1 h2
    · rw [h1, hxy]
    · rw [h2, hxy]
    · rfl

/-- **One free member for each value** is found exactly if there is one assignment in all. -/
theorem onlyFree_iff {value : α → β} {free : List α} (hnd : free.Nodup) {bs : List β}
    {as : List α} :
    onlyFree value free bs = some as ↔ Injection value free bs as ∧ ∀ as',
      Injection value free bs as' → as' = as := by
  induction bs generalizing free as with
  | nil =>
    rw [onlyFree, Option.some.injEq, injection_nil_iff]
    constructor
    · rintro rfl
      exact ⟨rfl, fun as' h => injection_nil_iff.mp h⟩
    · rintro ⟨rfl, -⟩
      rfl
  | cons b bs ih =>
    have hmem : ∀ a, a ∈ free.filter (fun a => value a = b) ↔ a ∈ free ∧ value a = b := fun a => by
      rw [List.mem_filter, decide_eq_true_iff]
    have hndf : (free.filter fun a => value a = b).Nodup := hnd.filter _
    rw [onlyFree]
    generalize free.filter (fun a => value a = b) = cands at hmem hndf
    match cands with
    | [] =>
      -- no member has the value
      refine iff_of_false (by simp) ?_
      rintro ⟨h, -⟩
      obtain ⟨a, as', -, ha, hb, -⟩ := (injection_cons_iff hnd).mp h
      exact List.not_mem_nil ((hmem a).mpr ⟨ha, hb⟩)
    | [m] =>
      have hm := (hmem m).mp List.mem_cons_self
      have honly : ∀ a ∈ free, value a = b → a = m :=
        fun a ha hb => List.mem_singleton.mp ((hmem a).mpr ⟨ha, hb⟩)
      simp only [Option.map_eq_some_iff]
      constructor
      · rintro ⟨as', hrun, rfl⟩
        obtain ⟨hinj, huniq⟩ := (ih (hnd.erase m)).mp hrun
        refine ⟨(injection_cons_iff hnd).mpr ⟨m, as', rfl, hm.1, hm.2, hinj⟩, fun bs' h => ?_⟩
        obtain ⟨a, as'', rfl, ha, hb, htail⟩ := (injection_cons_iff hnd).mp h
        obtain rfl := honly a ha hb
        rw [huniq as'' htail]
      · rintro ⟨h, huniq⟩
        obtain ⟨a, as', rfl, ha, hb, htail⟩ := (injection_cons_iff hnd).mp h
        obtain rfl := honly a ha hb
        refine ⟨as', (ih (hnd.erase a)).mpr ⟨htail, fun as'' h'' => ?_⟩, rfl⟩
        exact (List.cons.inj
          (huniq (a :: as'') ((injection_cons_iff hnd).mpr ⟨a, as'', rfl, ha, hb, h''⟩))).2
    | x :: y :: rest =>
      -- with two members of the value every assignment has a second one
      refine iff_of_false (by simp) ?_
      rintro ⟨h, huniq⟩
      obtain ⟨a, as', rfl, ha, hb, -⟩ := (injection_cons_iff hnd).mp h
      have hxy : x ≠ y := by
        rintro rfl
        exact (List.nodup_cons.mp hndf).1 List.mem_cons_self
      obtain ⟨e, he, hne⟩ : ∃ e, e ∈ x :: y :: rest ∧ e ≠ a := by
        rcases eq_or_ne x a with rfl | hxa
        · exact ⟨y, List.mem_cons_of_mem _ List.mem_cons_self, hxy.symm⟩
        · exact ⟨x, List.mem_cons_self, hxa⟩
      obtain ⟨hefree, heb⟩ := (hmem e).mp he
      have hswap := huniq _ (h.swap ha hefree (hb.trans heb.symm))
      rw [List.map_cons, Equiv.swap_apply_left] at hswap
      exact hne (List.cons.inj hswap).1

/-- The members that are not taken. -/
def untaken (l taken : List α) : List α := l.filter (· ∉ taken)

lemma mem_untaken {l taken : List α} {a : α} : a ∈ untaken l taken ↔ a ∈ l ∧ a ∉ taken := by
  rw [untaken, List.mem_filter, decide_eq_true_iff]

lemma untaken_nil (l : List α) : untaken l [] = l := by
  rw [untaken, List.filter_eq_self]
  exact fun a _ => decide_eq_true List.not_mem_nil

lemma untaken_concat {l taken : List α} (hnd : l.Nodup) (a : α) :
    untaken l (taken ++ [a]) = (untaken l taken).erase a := by
  unfold untaken
  rw [(hnd.filter _).erase_eq_filter, List.filter_filter]
  refine List.filter_congr fun x _ => ?_
  rw [Bool.eq_iff_iff]
  simp [and_comm]

/-! ### The first that fits -/

/-- Each request takes the first free member that fits it. -/
def firstFree (fits : β → α → Bool) : List α → List β → List α
  | _, [] => []
  | free, b :: bs =>
    match free.find? (fits b) with
    | none => firstFree fits free bs
    | some a => a :: firstFree fits (free.erase a) bs

lemma erase_alone (a : α) : [a].erase a = [] := List.erase_cons_head a []

omit [DecidableEq β] in
lemma firstFree_subset {fits : β → α → Bool} {free : List α} {bs : List β} :
    ∀ a ∈ firstFree fits free bs, a ∈ free := by
  induction bs generalizing free with
  | nil => exact fun a ha => absurd ha List.not_mem_nil
  | cons b bs ih =>
    intro a ha
    rw [firstFree] at ha
    cases hf : free.find? (fits b) with
    | none =>
      rw [hf] at ha
      exact ih a ha
    | some c =>
      rw [hf] at ha
      rcases List.mem_cons.mp ha with rfl | ha
      · exact List.mem_of_find?_eq_some hf
      · exact List.mem_of_mem_erase (ih a ha)

omit [DecidableEq β] in
/-- No member is given out twice. -/
lemma firstFree_nodup {fits : β → α → Bool} {free : List α} (hnd : free.Nodup) {bs : List β} :
    (firstFree fits free bs).Nodup := by
  induction bs generalizing free with
  | nil => exact List.nodup_nil
  | cons b bs ih =>
    rw [firstFree]
    cases hf : free.find? (fits b) with
    | none => exact ih hnd
    | some c =>
      refine List.nodup_cons.mpr ⟨fun hmem => ?_, ih (hnd.erase c)⟩
      exact ((hnd.mem_erase_iff).mp (firstFree_subset c hmem)).1 rfl

lemma find?_erase {p : α → Bool} {l : List α} {a x : α} (h : l.find? p = some x) (hne : x ≠ a) :
    (l.erase a).find? p = some x := by
  induction l with
  | nil => cases h
  | cons y l ih =>
    rcases eq_or_ne y a with rfl | hya
    · rw [List.erase_cons_head]
      rw [List.find?_cons] at h
      split at h
      · exact absurd (Option.some.inj h).symm hne
      · exact h
    · rw [List.erase_cons_tail (by simpa using hya), List.find?_cons]
      rw [List.find?_cons] at h
      split at h
      · exact h
      · exact ih h

/-- What each request would take alone. -/
def firstFits (fits : β → α → Bool) (members : List α) (bs : List β) : List α :=
  bs.filterMap fun b => members.find? (fits b)

omit [DecidableEq α] [DecidableEq β] in
lemma firstFits_cons (fits : β → α → Bool) (members : List α) (b : β) (bs : List β) :
    firstFits fits members (b :: bs) =
      match members.find? (fits b) with
      | none => firstFits fits members bs
      | some a => a :: firstFits fits members bs := List.filterMap_cons

omit [DecidableEq β] in
/-- Requests that do not meet take what each would take alone. -/
theorem firstFree_eq {fits : β → α → Bool} {free : List α} {bs : List β}
    (h : (firstFits fits free bs).Nodup) :
    firstFree fits free bs = firstFits fits free bs := by
  induction bs generalizing free with
  | nil => rfl
  | cons b bs ih =>
    rw [firstFits_cons] at h ⊢
    rw [firstFree]
    cases hf : free.find? (fits b) with
    | none =>
      rw [hf] at h
      exact ih h
    | some a =>
      rw [hf] at h
      obtain ⟨hnot, hnd⟩ := List.nodup_cons.mp h
      -- the others do not miss `a`
      have hsame : ∀ c ∈ bs, (free.erase a).find? (fits c) = free.find? (fits c) := by
        intro c hc
        cases hfc : free.find? (fits c) with
        | none =>
          rw [List.find?_eq_none] at hfc ⊢
          exact fun x hx => hfc x (List.mem_of_mem_erase hx)
        | some x =>
          refine find?_erase hfc ?_
          rintro rfl
          exact hnot (List.mem_filterMap.mpr ⟨c, hc, hfc⟩)
      have heq : firstFits fits (free.erase a) bs = firstFits fits free bs :=
        List.filterMap_congr hsame
      dsimp only
      rw [ih (by rw [heq]; exact hnd), heq]

end Pxeos.Lib
