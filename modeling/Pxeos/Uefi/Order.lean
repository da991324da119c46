import Mathlib.Data.List.Nodup
import Pxeos.Uefi.Steps

/-!
# The order of the entries

What `rootpxe_uefi_register_selected` writes as the new order: the selected entry once, in the place
of an old one, before the first local entry or behind the last one of the network, and the others as
they were.
-/

namespace Pxeos.Uefi

open Pxeos.Lib

/-! ### Where an entry belongs -/

/-- **The place of an entry in the order**: `old` is the entry that it replaces, and `created` says
that it has only just been made. -/
structure Placed (types : List (Str × Str)) (original : List Str) (old : Option Str)
    (created : Bool) (id : Str) (written : List Str) : Prop where
  once : written.count id = 1
  others : written.filter (· ≠ id) = original.filter fun item => item ≠ id ∧ some item ≠ old
  replaced : ∀ o before after, old = some o → original = before ++ o :: after →
    written = before.filter (· ≠ id) ++ id :: after.filter (· ≠ id)
  beforeLocal : (∀ o ∈ original, old ≠ some o) → created = true ∨ id ∉ original →
    ∀ before item after,
    original.filter (· ≠ id) = before ++ item :: after → isLocal types item = true →
      (∀ i ∈ before, isLocal types i = false) →
      written = before ++ id :: item :: after
  behindNetwork : (∀ o ∈ original, old ≠ some o) → created = true ∨ id ∉ original →
    (∀ i ∈ original, i ≠ id → isLocal types i = false) →
    ∀ before item after, original.filter (· ≠ id) = before ++ item :: after →
      isNetwork types item = true →
      (∀ i ∈ after, isNetwork types i = false) → written = before ++ item :: id :: after
  first : (∀ o ∈ original, old ≠ some o) → created = true ∨ id ∉ original →
    (∀ i ∈ original, i ≠ id → isLocal types i = false ∧ isNetwork types i = false) →
      written = id :: original.filter (· ≠ id)
  unchanged : (∀ o ∈ original, old ≠ some o) → created = false → id ∈ original → written = original

/-! ### The loops -/

section Loops

variable {types : List (Str × Str)} {id old : Str} {items : List Str}

lemma replaceOld_eq :
    replaceOld id old items = (items.filter (· ≠ id)).map fun item => if item = old then
      id else item := by
  have hloop : ∀ (rest desired : List Str),
      rest.foldl (fun desired item => desired ++ [if item = old then id else item]) desired =
      desired ++ rest.map fun item => if item = old then id else item := by
    intro rest
    induction rest with
    | nil => simp
    | cons item rest ih =>
      intro desired
      rw [List.foldl_cons, ih, List.map_cons, List.append_assoc]
      rfl
  unfold replaceOld
  have := hloop (items.filter (· ≠ id)) []
  rw [List.foldl_filter] at this
  simpa using this

lemma replaceOld_split (hne : old ≠ id) {before after : List Str} (hbefore : old ∉ before)
    (hafter : old ∉ after) :
    replaceOld id old (before ++ old :: after) = before.filter (· ≠ id) ++
      id :: after.filter (· ≠ id) := by
  have hkeep : ∀ l : List Str, old ∉ l → (l.filter (· ≠ id)).map (fun item => if item = old then
    id else item) = l.filter (· ≠ id) := by
    intro l hl
    conv_rhs => rw [← List.map_id (l.filter (· ≠ id))]
    refine List.map_congr_left fun item hitem => if_neg ?_
    rintro rfl
    exact hl (List.mem_of_mem_filter hitem)
  rw [replaceOld_eq, List.filter_append, List.map_append,
    List.filter_cons_of_pos (by simpa using hne), List.map_cons,
    if_pos rfl, hkeep _ hbefore, hkeep _ hafter]

/-- The two items that are found by the first loop. -/
lemma foldl_anchorStep (rest : List Str) (found : Option Str × Option Str) :
    rest.foldl (anchorStep types) found =
    (found.1.or (rest.find? (isLocal types)),
      (rest.reverse.find? (isNetwork types)).or found.2) := by
  induction rest generalizing found with
  | nil =>
    obtain ⟨a, b⟩ := found
    simp
  | cons item rest ih =>
    rw [List.foldl_cons, ih, List.reverse_cons, List.find?_append, List.find?_cons]
    obtain ⟨a, b⟩ := found
    refine Prod.ext ?_ ?_
    · unfold anchorStep
      cases a with
      | none => cases hl : isLocal types item <;> simp
      | some a => cases hl : isLocal types item <;> simp
    · unfold anchorStep
      cases hn : isNetwork types item <;> cases rest.reverse.find? (isNetwork types) <;> simp [hn]

lemma anchors_eq : anchors types id items =
    ((items.filter (· ≠ id)).find? (isLocal types),
      (items.filter (· ≠ id)).reverse.find? (isNetwork types)) := by
  have h := @foldl_anchorStep types (items.filter (· ≠ id)) (none, none)
  rw [List.foldl_filter] at h
  unfold anchors
  simpa using h

/-- Items that mark no place are put behind the others. -/
lemma foldl_insertStep {anchor lastNetwork : Option Str} {rest : List Str}
    (h : ∀ item ∈ rest, anchor ≠ some item ∧ ¬ (anchor = none ∧ lastNetwork = some item))
    (state : List Str × Bool) :
    rest.foldl (insertStep id anchor lastNetwork) state = (state.1 ++ rest, state.2) := by
  induction rest generalizing state with
  | nil => simp
  | cons item rest ih =>
    obtain ⟨h1, h2⟩ := h item List.mem_cons_self
    have hstep : insertStep id anchor lastNetwork state item = (state.1 ++ [item], state.2) := by
      unfold insertStep
      simp only [if_neg h1, if_neg h2]
    rw [List.foldl_cons, hstep, ih fun i hi => h i (List.mem_cons_of_mem _ hi), List.append_assoc]
    rfl

lemma insertNew_eq {anchor lastNetwork : Option Str}
    (h : anchors types id items = (anchor, lastNetwork)) :
    insertNew types id items =
      (fun state : List Str × Bool => if state.2 then state.1 else state.1 ++ [id])
        ((items.filter (· ≠ id)).foldl (insertStep id anchor lastNetwork)
          (if anchor = none ∧ lastNetwork = none then ([id], true) else ([], false))) := by
  unfold insertNew
  rw [h, List.foldl_filter]
  simp only [decide_eq_true_eq]

variable {before after : List Str} {item : Str}

/-- Before the first local item. -/
lemma insertNew_local (hnd : (items.filter (· ≠ id)).Nodup)
    (hsplit : items.filter (· ≠ id) = before ++ item :: after) (hitem : isLocal types item = true)
    (hbefore : ∀ i ∈ before, isLocal types i = false) :
    insertNew types id items = before ++ id :: item :: after := by
  have hfind : (items.filter (· ≠ id)).find? (isLocal types) = some item := by
    rw [List.find?_eq_some_iff_append]
    exact ⟨hitem, before, after, hsplit, fun a ha => by rw [hbefore a ha]; rfl⟩
  rw [insertNew_eq (anchors_eq.trans (Prod.ext hfind rfl)), hsplit]
  rw [hsplit, List.nodup_append] at hnd
  have hne :
      ¬ ((some item : Option Str) = none ∧
        (before ++ item :: after).reverse.find? (isNetwork types) = none) :=
    fun h => Option.some_ne_none _ h.1
  have hpass : ∀ l : List Str, item ∉ l → ∀ i ∈ l, some item ≠ some i ∧
      ¬ (some item = none ∧
        (before ++ item :: after).reverse.find? (isNetwork types) = some i) := by
    intro l hl i hi
    refine ⟨fun h => hl (Option.some.inj h ▸ hi), fun h => Option.some_ne_none _ h.1⟩
  have h1 : item ∉ before := fun h => hnd.2.2 item h item List.mem_cons_self rfl
  have h2 : item ∉ after := (List.nodup_cons.mp hnd.2.1).1
  rw [if_neg hne, List.foldl_append, foldl_insertStep (hpass before h1), List.foldl_cons,
    foldl_insertStep (hpass after h2)]
  unfold insertStep
  simp

/-- Behind the last item of the network. -/
lemma insertNew_network (hnd : (items.filter (· ≠ id)).Nodup)
    (hsplit : items.filter (· ≠ id) = before ++ item :: after)
    (hlocal : ∀ i ∈ items.filter (· ≠ id), isLocal types i = false)
    (hitem : isNetwork types item = true) (hafter : ∀ i ∈ after, isNetwork types i = false) :
    insertNew types id items = before ++ item :: id :: after := by
  have hnone : (items.filter (· ≠ id)).find? (isLocal types) = none := by
    rw [List.find?_eq_none]
    intro i hi
    rw [hlocal i hi]
    exact Bool.false_ne_true
  have hfind : (items.filter (· ≠ id)).reverse.find? (isNetwork types) = some item := by
    rw [List.find?_eq_some_iff_append]
    refine ⟨hitem, after.reverse, before.reverse, by rw [hsplit]; simp, fun a ha => ?_⟩
    rw [hafter a (List.mem_reverse.mp ha)]
    rfl
  rw [insertNew_eq (anchors_eq.trans (Prod.ext hnone hfind)), hsplit]
  rw [hsplit, List.nodup_append] at hnd
  have hne : ¬ ((none : Option Str) = none ∧ (some item : Option Str) = none) :=
    fun h => Option.some_ne_none _ h.2
  have hpass : ∀ l : List Str, item ∉ l → ∀ i ∈ l, none ≠ some i ∧
      ¬ ((none : Option Str) = none ∧ some item = some i) := by
    intro l hl i hi
    exact ⟨nofun, fun h => hl (Option.some.inj h.2 ▸ hi)⟩
  have h1 : item ∉ before := fun h => hnd.2.2 item h item List.mem_cons_self rfl
  have h2 : item ∉ after := (List.nodup_cons.mp hnd.2.1).1
  rw [if_neg hne, List.foldl_append, foldl_insertStep (hpass before h1), List.foldl_cons,
    foldl_insertStep (hpass after h2)]
  unfold insertStep
  simp

/-- In front of all others. -/
lemma insertNew_first
    (hnone : ∀ i ∈ items.filter (· ≠ id), isLocal types i = false ∧ isNetwork types i = false) :
    insertNew types id items = id :: items.filter (· ≠ id) := by
  have h1 : (items.filter (· ≠ id)).find? (isLocal types) = none := by
    rw [List.find?_eq_none]
    intro i hi
    rw [(hnone i hi).1]
    exact Bool.false_ne_true
  have h2 : (items.filter (· ≠ id)).reverse.find? (isNetwork types) = none := by
    rw [List.find?_eq_none]
    intro i hi
    rw [(hnone i (List.mem_reverse.mp hi)).2]
    exact Bool.false_ne_true
  rw [insertNew_eq (anchors_eq.trans (Prod.ext h1 h2)), if_pos ⟨rfl, rfl⟩, 
    foldl_insertStep fun i _ =>
      ⟨(Option.some_ne_none i).symm, fun h => (Option.some_ne_none i).symm h.2⟩]
  rfl

/-- Somewhere between the others. -/
lemma insertNew_split (hnd : (items.filter (· ≠ id)).Nodup) :
    ∃ before after, items.filter (· ≠ id) = before ++ after ∧
      insertNew types id items = before ++ id :: after := by
  cases hl : (items.filter (· ≠ id)).find? (isLocal types) with
  | some item =>
    obtain ⟨hitem, before, after, hsplit, hbefore⟩ := List.find?_eq_some_iff_append.mp hl
    refine ⟨before, item :: after, hsplit, insertNew_local hnd hsplit hitem fun i hi => ?_⟩
    simpa using hbefore i hi
  | none =>
    have hlocal : ∀ i ∈ items.filter (· ≠ id), isLocal types i = false := fun i hi => by
      simpa using List.find?_eq_none.mp hl i hi
    cases hn : (items.filter (· ≠ id)).reverse.find? (isNetwork types) with
    | some item =>
      obtain ⟨hitem, after, before, hsplit, hafter⟩ := List.find?_eq_some_iff_append.mp hn
      have hsplit' : items.filter (· ≠ id) = before.reverse ++ item :: after.reverse := by
        rw [← List.reverse_reverse (items.filter (· ≠ id)), hsplit]
        simp
      refine ⟨before.reverse ++ [item], after.reverse, by rw [hsplit', List.append_assoc]; rfl, ?_⟩
      rw [insertNew_network hnd hsplit' hlocal hitem
        fun i hi => by simpa using hafter i (List.mem_reverse.mp hi)]
      simp
    | none =>
      refine ⟨[], items.filter (· ≠ id), rfl, insertNew_first fun i hi => ⟨hlocal i hi, ?_⟩⟩
      simpa using List.find?_eq_none.mp hn i (List.mem_reverse.mpr hi)

/-! ### The items -/

/-- A step of the second loop keeps what is there, and what it says of the flag. -/
lemma foldl_insertStep_mem {anchor lastNetwork : Option Str} (rest : List Str)
    (state : List Str × Bool) (hflag : state.2 = true → id ∈ state.1) :
    let result := rest.foldl (insertStep id anchor lastNetwork) state
    (result.2 = true → id ∈ result.1) ∧ ∀ i, i ≠ id → (i ∈ result.1 ↔ i ∈ state.1 ∨ i ∈ rest) := by
  induction rest generalizing state with
  | nil => simpa using hflag
  | cons item rest ih =>
    have hstep : ((insertStep id anchor lastNetwork state item).2 = true →
        id ∈ (insertStep id anchor lastNetwork state item).1) ∧
        ∀ i, i ≠ id → (i ∈ (insertStep id anchor lastNetwork state item).1 ↔ i ∈ state.1 ∨
          i = item) := by
      obtain ⟨desired, inserted⟩ := state
      unfold insertStep
      by_cases h1 : anchor = some item
      · have h2 : ¬ (anchor = none ∧ lastNetwork = some item) :=
          fun h => Option.some_ne_none _ (h1.symm.trans h.1)
        simp only [if_pos h1, if_neg h2]
        refine ⟨fun _ => by simp, fun i hi => by simp [hi]⟩
      · by_cases h2 : anchor = none ∧ lastNetwork = some item
        · simp only [if_neg h1, if_pos h2]
          refine ⟨fun _ => by simp, fun i hi => by simp [hi]⟩
        · simp only [if_neg h1, if_neg h2]
          refine ⟨fun h => List.mem_append_left _ (hflag h), fun i _ => by simp⟩
    obtain ⟨h1, h2⟩ := ih _ hstep.1
    refine ⟨h1, fun i hi => ?_⟩
    rw [List.foldl_cons, h2 i hi, hstep.2 i hi, List.mem_cons, or_assoc]

/-- The items of the new order. -/
lemma mem_insertNew (types : List (Str × Str)) (id : Str) (items : List Str) :
    id ∈ insertNew types id items ∧ ∀ i, i ≠ id → (i ∈ insertNew types id items ↔ i ∈ items) := by
  obtain ⟨anchor, lastNetwork, hanchors⟩ : ∃ a b, anchors types id items = (a, b) := ⟨_, _, rfl⟩
  rw [insertNew_eq hanchors]
  have hstart : (if anchor = none ∧ lastNetwork = none then ([id], true)
    else ([], false) : List Str × Bool).2 = true →
      id ∈ (if anchor = none ∧ lastNetwork = none then ([id], true)
        else ([], false) : List Str × Bool).1 := by
    split
    · simp
    · nofun
  have hothers : ∀ i, i ≠ id →
      i ∉ (if anchor = none ∧ lastNetwork = none then ([id], true)
        else ([], false) : List Str × Bool).1 := by
    intro i hi
    split
    · simpa using hi
    · simp
  obtain ⟨h1, h2⟩ := @foldl_insertStep_mem _ anchor lastNetwork (items.filter (· ≠ id)) _ hstart
  generalize (items.filter (· ≠ id)).foldl (insertStep id anchor lastNetwork) _ = result at h1 h2
  have hmem : ∀ i, i ≠ id → (i ∈ result.1 ↔ i ∈ items) := by
    intro i hi
    rw [h2 i hi, List.mem_filter]
    simp only [hothers i hi, false_or, decide_eq_true_eq]
    exact and_iff_left hi
  dsimp only
  split
  · exact ⟨h1 ‹_›, hmem⟩
  · refine ⟨by simp, fun i hi => ?_⟩
    rw [List.mem_append, List.mem_singleton, hmem i hi]
    exact or_iff_left hi

/-- The items of an order with a replaced one. -/
lemma mem_replaceOld (hne : old ≠ id) (hold : old ∈ items) : id ∈ replaceOld id old items := by
  rw [replaceOld_eq]
  exact List.mem_map.mpr ⟨old, List.mem_filter.mpr ⟨hold, decide_eq_true hne⟩, if_pos rfl⟩

/-- The entry is in the desired order. -/
lemma mem_desiredOrder {o : Option Str} (hne : o ≠ some id) {isListed : Bool}
    (hlisted : isListed = true → id ∈ items) :
    id ∈ desiredOrder types items id o isListed := by
  unfold desiredOrder
  cases ho : o.filter (items.contains ·) with
  | some old =>
    obtain ⟨rfl, hin⟩ := Option.filter_eq_some_iff.mp ho
    exact mem_replaceOld (fun h => hne (by rw [h])) (List.contains_iff_mem.mp hin)
  | none =>
    cases isListed with
    | true => exact hlisted rfl
    | false => exact (mem_insertNew types id items).1

end Loops

/-! ### The order that is written -/

section Desired

variable {types : List (Str × Str)} {original : List Str} {id : Str}

lemma count_between {before after : List Str} (h1 : id ∉ before) (h2 : id ∉ after) :
    (before ++ id :: after).count id = 1 := by
  rw [List.count_append, List.count_cons_self, List.count_eq_zero_of_not_mem h1,
    List.count_eq_zero_of_not_mem h2]

lemma filter_between {before after : List Str} (h1 : id ∉ before) (h2 : id ∉ after) :
    (before ++ id :: after).filter (· ≠ id) = before ++ after := by
  have hkeep : ∀ l : List Str, id ∉ l → l.filter (· ≠ id) = l := fun l hl => by
    rw [List.filter_eq_self]
    exact fun a ha => decide_eq_true fun h => hl (h ▸ ha)
  rw [List.filter_append, List.filter_cons_of_neg (by simp), hkeep _ h1, hkeep _ h2]

lemma notMem_filter_ne (l : List Str) : id ∉ l.filter (· ≠ id) :=
  fun h => by simpa using (List.mem_filter.mp h).2

/-- **The desired order puts the entry in its place.** -/
theorem placed_desiredOrder (hnd : original.Nodup) {old : Option Str} (hold : old ≠ some id)
    {created isListed : Bool} (hlisted : isListed = true ↔ created = false ∧ id ∈ original) :
    Placed types original old created id (desiredOrder types original id old isListed) := by
  have hfilter : (original.filter (· ≠ id)).Nodup := hnd.filter _
  by_cases hin : ∃ o ∈ original, old = some o
  · -- an old entry is in the order
    obtain ⟨o, ho, rfl⟩ := hin
    have hne : o ≠ id := fun h => hold (by rw [h])
    obtain ⟨a, b, hab⟩ := List.append_of_mem ho
    have hnd' := hab ▸ hnd
    rw [List.nodup_append] at hnd'
    have ha : o ∉ a := fun h => hnd'.2.2 o h o List.mem_cons_self rfl
    have hb : o ∉ b := (List.nodup_cons.mp hnd'.2.1).1
    have hdesired : desiredOrder types original id (some o) isListed = a.filter (· ≠ id) ++
        id :: b.filter (· ≠ id) := by
      have hopt : (some o).filter (original.contains ·) = some o := by
        rw [Option.filter_some, if_pos (List.contains_iff_mem.mpr ho)]
      unfold desiredOrder
      rw [hopt]
      show replaceOld id o original = _
      rw [hab]
      exact replaceOld_split hne ha hb
    have hno : ¬ ∀ o' ∈ original, some o ≠ some o' := fun h => h o ho rfl
    rw [hdesired]
    refine ⟨count_between (notMem_filter_ne a) (notMem_filter_ne b), ?_, ?_, fun h => absurd h hno,
      fun h => absurd h hno,
      fun h => absurd h hno, fun h => absurd h hno⟩
    · have hkeep : ∀ l : List Str, o ∉ l →
        l.filter (fun item => decide (item ≠ id ∧ some item ≠ some o)) = l.filter (· ≠ id) := by
        intro l hl
        refine List.filter_congr fun item hitem => decide_eq_decide.mpr ?_
        refine and_iff_left fun h => ?_
        obtain rfl := Option.some.inj h
        exact hl hitem
      rw [filter_between (notMem_filter_ne a) (notMem_filter_ne b), hab, List.filter_append,
        List.filter_cons_of_neg (by simp), hkeep a ha, hkeep b hb]
    · intro o' before after ho' hsplit
      obtain rfl := Option.some.inj ho'
      obtain ⟨rfl, rfl⟩ : a = before ∧ b = after := by
        obtain ⟨h1, -, h2⟩ := (List.append_cons_inj_of_notMem ha hb).mp (hab.symm.trans hsplit)
        exact ⟨h1, h2⟩
      rfl
  · push Not at hin
    have hnone : old.filter (original.contains ·) = none := by
      cases old with
      | none => rfl
      | some o =>
        rw [Option.filter_some, if_neg]
        exact fun h => hin o (List.contains_iff_mem.mp h) rfl
    have hothers : original.filter (fun item => decide (item ≠ id ∧ some item ≠ old)) =
        original.filter (· ≠ id) := by
      refine List.filter_congr fun item hitem => decide_eq_decide.mpr ?_
      exact and_iff_left fun h => hin item hitem h.symm
    have hreplaced : ∀ o before after, old = some o → original = before ++ o :: after →
        desiredOrder types original id old isListed = before.filter (· ≠ id) ++
          id :: after.filter (· ≠ id) := by
      intro o before after ho hsplit
      exact absurd ho (hin o (by rw [hsplit]; simp))
    cases hl : isListed with
    | true =>
      obtain ⟨hc, hid⟩ := hlisted.mp hl
      have hdesired : desiredOrder types original id old true = original := by
        unfold desiredOrder
        rw [hnone]
        rfl
      rw [hl] at hreplaced
      have hnew : ¬ (created = true ∨ id ∉ original) := by
        rintro (h | h)
        · rw [hc] at h
          cases h
        · exact h hid
      refine ⟨?_, ?_, hreplaced, fun _ h => absurd h hnew, fun _ h => absurd h hnew,
        fun _ h => absurd h hnew, fun _ _ _ => hdesired⟩
      · rw [hdesired]
        exact List.count_eq_one_of_mem hnd hid
      · rw [hdesired, hothers]
    | false =>
      have hdesired : desiredOrder types original id old false = insertNew types id original := by
        unfold desiredOrder
        rw [hnone]
        rfl
      rw [hl] at hreplaced
      obtain ⟨before, after, hsplit, hnew⟩ := @insertNew_split types _ _ hfilter
      have hmem := @notMem_filter_ne id original
      rw [hsplit, List.mem_append, not_or] at hmem
      refine ⟨?_, ?_, hreplaced, ?_, ?_, ?_, fun _ hc hid => ?_⟩
      · rw [hdesired, hnew]
        exact count_between hmem.1 hmem.2
      · rw [hdesired, hnew, filter_between hmem.1 hmem.2, hothers, hsplit]
      · intro _ _ b i a hs hi hb
        rw [hdesired]
        exact insertNew_local hfilter hs hi hb
      · intro _ _ hloc b i a hs hi ha
        rw [hdesired]
        refine insertNew_network hfilter hs (fun j hj => ?_) hi ha
        obtain ⟨h1, h2⟩ := List.mem_filter.mp hj
        exact hloc j h1 (of_decide_eq_true h2)
      · intro _ _ hfirst
        rw [hdesired]
        refine insertNew_first fun j hj => ?_
        obtain ⟨h1, h2⟩ := List.mem_filter.mp hj
        exact hfirst j h1 (of_decide_eq_true h2)
      · have := hlisted.mpr ⟨hc, hid⟩
        rw [hl] at this
        cases this

end Desired

/-! ### The run -/

section Run

variable (sel : Selection)

/-- The entry that is to be replaced. -/
def replacedId (r : Reading) : Option Str :=
  if replaces sel r (findEntry sel r) then (findEntry sel r).managedId else none

/-- An order that is written puts the entry that was found last in its place. -/
def Written (r : Reading) (s : Watch) (items : List Str) : Prop :=
  ∃ id, (findEntry sel s.reading).id = some id ∧
    Placed (typesOf r.entries) r.order (replacedId sel r) s.created id items

variable {sel} {fw : Firmware} {r : Reading}

lemma mem_create {e e' : BootEntry} {k : ℕ} (h : e' ∈ fw.entries) :
    e' ∈ (fw.create e k).entries := by
  unfold Firmware.create
  split
  · exact h
  · rw [← List.take_append_drop k fw.entries, List.mem_append] at h
    show e' ∈ fw.entries.take k ++ e :: fw.entries.drop k
    rw [List.mem_append, List.mem_cons]
    tauto

lemma shown_of_rank_one {e : BootEntry} (h : e.rank sel = 1) : e.shown = managedLabel := by
  unfold BootEntry.rank rankOf at h
  split at h
  · assumption
  · split at h
    · cases h
    · cases h

lemma shown_of_rank_two {e : BootEntry} (h : e.rank sel = 2) :
    e.shown = sel.label ∧ e.shown ≠ managedLabel := by
  unfold BootEntry.rank rankOf at h
  split at h
  · cases h
  · split at h
    · exact ⟨‹_›, ‹_›⟩
    · cases h

/-- The entry that has been made is not the one with the managed label. -/
lemma found_ne_managed (hr : fw.reading = some r) {e : BootEntry} {k : ℕ} {r' : Reading}
    (hr' : (fw.create e k).reading = some r') (hcount : (findEntry sel r').desiredCount = 1)
    (hlabel : matchLabel r' (findEntry sel r') = sel.label)
    (hsome : (findEntry sel r').id.isSome = true) :
    (findEntry sel r).managedId ≠ (findEntry sel r').id := by
  intro heq
  obtain ⟨i, hi⟩ := Option.isSome_iff_exists.mp hsome
  have hfound := @isFound_findEntry sel _ _ hr
  have hfound' := @isFound_findEntry sel _ _ hr'
  obtain ⟨e₁, he₁, rfl, hrank₁⟩ := hfound.managedId i (heq.trans hi)
  have hshown₁ : r'.label e₁.id = managedLabel :=
    (label_of_mem hr' (mem_create (List.mem_of_mem_filter he₁))).trans (shown_of_rank_one hrank₁)
  have hpos : 0 < ((fw.create e k).matching sel).countP fun e => e.rank sel = 2 := by
    rw [← hfound'.desiredCount, hcount]
    exact Nat.one_pos
  obtain ⟨e₂, -, hrank₂⟩ := List.countP_pos_iff.mp hpos
  obtain ⟨h1, h2⟩ := shown_of_rank_two (of_decide_eq_true hrank₂)
  unfold matchLabel at hlabel
  rw [hi, Option.getD_some, hshown₁] at hlabel
  exact h2 (h1.trans hlabel.symm)

lemma listed_some {order : List Str} {i : Str} : listed order (some i) = true ↔ i ∈ order :=
  List.contains_iff_mem

/-- The rest, once the entry is known. -/
lemma holds_registerAs {v : Vars} {old : Option Str} {isListed : Bool} (hr : fw.reading = some r)
    (hnd : r.order.Nodup) (hold : old = replacedId sel r)
    (hold' : old = none ∨ old = (findEntry sel r).managedId)
    (hid : v.found.id = none ∨ v.found.id = (findEntry sel r).id ∧ v.found.id ≠ old)
    (hlisted : isListed = listed r.order v.found.id) :
    Script.Holds (watching Documented (Written sel r))
      (registerAs sel (typesOf r.entries) r.order old isListed) v ⟨fw, r, false⟩
      (fun _ _ _ => True) (fun _ _ _ => True) := by
  -- what is known as soon as there is an entry
  let Known : Vars → Watch → Prop := fun v s =>
    ∃ i, v.found.id = some i ∧
      Written sel r s (desiredOrder (typesOf r.entries) r.order i old isListed)
  have hknown : ∀ {v' : Vars} {s : Watch} {i : Str}, v'.found.id = some i →
      (findEntry sel s.reading).id = some i → old ≠ some i →
      (isListed = true ↔ s.created = false ∧ i ∈ r.order) → Known v' s := by
    intro v' s i hv hi hne hiff
    exact ⟨i, hv, i, hi, hold ▸ placed_desiredOrder hnd hne hiff⟩
  unfold registerAs
  refine Script.Holds.bind (Q := fun _ v' s' => v'.found = v.found ∧ s' = ⟨fw, r, false⟩)
    (holds_writeReady (fun _ => ⟨rfl, rfl⟩) (fun _ _ => trivial) fun _ _ => trivial) ?_
  rintro ⟨⟩ v' s' ⟨hv', rfl⟩
  refine Script.Holds.bind (Q := fun _ => Known)
    (holds_ensure (fun hsome => ?_) ?_ fun _ _ _ _ => trivial) ?_
  · rw [hv'] at hsome
    obtain ⟨hfound, hne⟩ := hid.resolve_left hsome
    obtain ⟨i, hi⟩ := Option.ne_none_iff_exists'.mp hsome
    refine hknown (hv' ▸ hi) (hfound ▸ hi) (fun h => hne (hi.trans h.symm)) ?_
    rw [hlisted, hi, listed_some]
    exact (and_iff_right rfl).symm
  · intro hnone e k hdoc text htext r' hr' hsome hcount hlabel
    rw [hv'] at hnone
    obtain ⟨i, hi⟩ := Option.isSome_iff_exists.mp hsome
    have hread : (fw.create e k).reading = some r' := by
      rw [← readEntries_print, ← show text = (fw.create e k).print from htext]
      exact hr'
    have hne := found_ne_managed hr hread hcount hlabel hsome
    refine hknown hi hi ?_ ?_
    · rcases hold' with h | h
      · rw [h]
        exact nofun
      · rw [h]
        exact fun h' => hne (h'.trans hi.symm)
    · rw [hlisted, hnone]
      exact ⟨nofun, fun h => absurd h.1 nofun⟩
  · rintro ⟨⟩ v₁ s₁ hk
    refine Script.Holds.bind (Q := fun _ => Known) (holds_activate (fun _ => hk) (fun _ _ => hk)
      fun _ _ => trivial) ?_
    rintro ⟨⟩ v₂ s₂ ⟨i, hi, hw⟩
    refine Script.Holds.seq (Script.holds_vars ?_)
    rw [hi, Option.getD_some]
    refine Script.Holds.bind (Q := fun _ _ _ => True)
      (holds_writeOrder (fun _ => trivial) (fun _ => hw) (fun _ _ => trivial)
      fun _ _ => trivial) ?_
    rintro ⟨⟩ v₃ s₃ -
    refine Script.Holds.seq (holds_reread (fun _ _ _ _ => ?_) fun _ _ _ => trivial)
    refine Script.Holds.seq (holds_find ?_)
    refine Script.Holds.seq (Script.holds_vars ?_)
    refine Script.Holds.seq (holds_require (fun _ => ?_) fun _ => trivial)
    cases old with
    | none => exact Script.holds_pure trivial
    | some o => exact holds_deleteOld (fun _ _ _ _ _ _ _ _ _ _ => trivial) fun _ _ _ => trivial

/-- **The order that is written.**  Whatever the boot variables are, every order that is written
puts the entry that was found in its place: in that of the old entry, before the first local one,
behind the last one of the network, or in front. -/
theorem order_placed (hr : fw.reading = some r) (hnd : r.order.Nodup) {v : Vars}
    (hv : v.reading = r) {τ : List (Sigma Answer)} {o : Option (Except ℕ Unit × Vars)}
    (h : (registerSelected sel v).Runs τ o)
    (henv : (watching Documented (Written sel r)).Along (watching Documented (Written sel r)).rely
      ⟨fw, r, false⟩ τ) :
    (watching Documented (Written sel r)).Along (watching Documented (Written sel r)).guard
      ⟨fw, r, false⟩ τ := by
  have hall : Script.Holds (watching Documented (Written sel r)) (registerSelected sel)
      v ⟨fw, r, false⟩
      (fun _ _ _ => True) (fun _ _ _ => True) := by
    subst hv
    refine holds_registerSelected (isFound_findEntry hr).managed_isSome (fun _ _ _ => trivial)
      (fun v' old hc _ => ?_)
      fun _ _ _ => trivial
    have hrep : ∀ b, replaces sel v.reading (findEntry sel v.reading) = b →
        replacedId sel v.reading = if b then (findEntry sel v.reading).managedId else none :=
          fun b hb => by rw [replacedId, hb]
    cases hc with
    | keep h =>
      refine holds_registerAs hr hnd (hrep _ h).symm (.inl rfl) ?_ rfl
      by_cases hn : (findEntry sel v.reading).id = none
      · exact .inl hn
      · exact .inr ⟨rfl, hn⟩
    | other h _ hne =>
      exact holds_registerAs hr hnd (hrep _ h).symm (.inr rfl) (.inr ⟨rfl, hne⟩) rfl
    | self h _ heq => exact holds_registerAs hr hnd (hrep _ h).symm (.inr rfl) (.inl rfl) rfl
  exact (Contract.Safe.along hall h henv).1

end Run

/-! ### A number that is listed but has no entry -/

/-- One disk; the order has a number without an entry behind it. -/
def dangling : Firmware where
  header := []
  order := some ["0003".toList, "0005".toList]
  entries :=
    [⟨"0003".toList, true, "Disk".toList, "NVMe(0x1)".toList, by decide +kernel, by decide +kernel,
      by decide +kernel⟩]
  header_ok := header_nil
  order_ok := by decide +kernel
  ids_nodup := by decide +kernel

def danglingReading : Reading :=
  ⟨["0003|yes|||||||local".toList], [("0003".toList, "Disk".toList)],
    ["0003".toList, "0005".toList]⟩

def linuxLoader : Selection where
  disk := "/dev/sda".toList
  number := "1".toList
  kind := "GPT".toList
  signature := "aa".toList
  start := []
  size := []
  pathKey := "\\x.efi".toList
  label := defaultLabel
  label_ok := by decide +kernel

lemma loaderPath_ok :
    '\n' ∉ "HD(1,GPT,AA,0x800,0x800)/\\x.efi".toList ∧
    '\x00' ∉ "HD(1,GPT,AA,0x800,0x800)/\\x.efi".toList ∧
    '\t' ∉ "HD(1,GPT,AA,0x800,0x800)/\\x.efi".toList := by decide +kernel

/-- The entry that is made gets the free number. -/
def madeEntry : BootEntry :=
  ⟨"0005".toList, true, defaultLabel, "HD(1,GPT,AA,0x800,0x800)/\\x.efi".toList, by decide +kernel,
    by decide +kernel, loaderPath_ok⟩

def danglingVars : Vars := ⟨danglingReading, Found.none, true, [], []⟩

/-- The registration up to the new order. -/
def danglingRun : List (Sigma Answer) :=
  ((registerSelected linuxLoader danglingVars).exec (obedient dangling (madeEntry, 1)) []).1.take 4

/-- The new entry stands before the disk. -/
def danglingOrder : List Str := ["0005".toList, "0003".toList]

def madeText : Str := (dangling.create madeEntry 1).print

lemma danglingRun_eq : danglingRun = [⟨.remountRw, true⟩,
    ⟨.create linuxLoader.disk linuxLoader.number linuxLoader.label linuxLoader.pathKey,
      some (madeEntry, 1)⟩,
    ⟨.efibootmgrV, some madeText⟩, ⟨.order danglingOrder, true⟩] := by
  decide +kernel

lemma danglingRun_runs : (registerSelected linuxLoader danglingVars).Runs danglingRun none :=
  (Prog.runs_exec _ _ _).take 4

lemma dangling_along {G : Watch → List Str → Prop} :
    (watching Documented G).Along (watching Documented G).rely
    ⟨dangling, danglingReading, false⟩ danglingRun := by
  have hcreate : Documented dangling
      ⟨.create linuxLoader.disk linuxLoader.number linuxLoader.label linuxLoader.pathKey,
        some (madeEntry, 1)⟩ := by
    decide +kernel
  have horder : Documented (dangling.create madeEntry 1) ⟨.order danglingOrder, true⟩ := by
    decide +kernel
  rw [danglingRun_eq]
  exact ⟨trivial, hcreate, rfl, horder, trivial⟩

/-- The order of the run puts the new entry in its place. -/
theorem order_placed_dangling : (watching Documented (Written linuxLoader danglingReading)).Along
    (watching Documented (Written linuxLoader danglingReading)).guard ⟨dangling, danglingReading,
      false⟩ danglingRun :=
  order_placed (by decide +kernel) (by decide +kernel) rfl danglingRun_runs dangling_along

/-- An order that is written puts the entry in its place, where a new entry with a listed number
counts as a listed one. -/
def WrittenListed (sel : Selection) (r : Reading) (s : Watch) (items : List Str) : Prop :=
  ∃ id, (findEntry sel s.reading).id = some id ∧
    Placed (typesOf r.entries) r.order (replacedId sel r) false id items

/-- The number of the new entry is in the order, and the order is not left as it is. -/
theorem not_unchanged_dangling :
    ¬ ∀ (sel : Selection) (fw : Firmware) (r : Reading) (v : Vars) (τ : List (Sigma Answer)),
    fw.reading = some r → r.order.Nodup → v.reading = r → (registerSelected sel v).Runs τ none →
      (watching Documented (WrittenListed sel r)).Along
        (watching Documented (WrittenListed sel r)).rely ⟨fw, r, false⟩ τ →
        (watching Documented (WrittenListed sel r)).Along
          (watching Documented (WrittenListed sel r)).guard ⟨fw, r, false⟩ τ := by
  intro hall
  have h := hall linuxLoader dangling danglingReading danglingVars danglingRun (by decide +kernel)
    (by decide +kernel) rfl
    danglingRun_runs dangling_along
  rw [danglingRun_eq] at h
  obtain ⟨-, -, -, horder, -⟩ := h
  obtain ⟨id, hid, hplaced⟩ := horder danglingOrder rfl
  have hread : (readEntries madeText).bind (fun r => (findEntry linuxLoader r).id) =
      some "0005".toList := by decide +kernel
  have hfound : id = "0005".toList := by
    obtain ⟨r, hr, hr'⟩ := Option.bind_eq_some_iff.mp hread
    have heq :
        (findEntry linuxLoader
          ((Option.bind (some madeText) readEntries).getD danglingReading)).id = some id := hid
    rw [Option.bind_some, hr, Option.getD_some, hr'] at heq
    exact (Option.some.inj heq).symm
  have hold : replacedId linuxLoader danglingReading = none := by decide +kernel
  have hmem : id ∈ danglingReading.order := by
    rw [hfound]
    decide +kernel
  have := hplaced.unchanged (by rw [hold]; exact fun _ _ => nofun) rfl hmem
  exact absurd this (by decide +kernel)

end Pxeos.Uefi
