import Pxeos.Lib.Search
import Pxeos.Deploy.Geometry
import Mathlib.Algebra.Order.BigOperators.Group.List

/-!
# The remaining partition

The size that `remaining_that_fits` finds.  The end of an allocation does not move back when the
remaining partition grows by whole multiples of the alignment: everything behind it moves by as
much, except that the container's tail, which makes up its minimum, may shrink by no more than that.
-/

namespace Pxeos.Deploy

open Pxeos.Lib

namespace AllocEnv

variable (e : AllocEnv)

/-! ### The loop as a function -/

/-- The cursor behind an item. -/
def next (r c : ℕ) (it : Item) : ℕ := e.leafStart c it.p + e.sizeOf r it + e.tailAfter r it.p

/-- The cursor behind a list of items. -/
def cursorFrom (r c : ℕ) (items : List Item) : ℕ := items.foldl (e.next r) c

/-- The leaves of a list of items. -/
def leavesFrom (r : ℕ) : ℕ → List Item → List ResolvedPart
  | _, [] => []
  | c, it :: items =>
    it.p.placed (e.leafStart c it.p) (e.sizeOf r it) :: leavesFrom r (e.next r c it) items

/-- No item gets less than it had. -/
def Enough (r : ℕ) : Prop := ∀ it ∈ e.items, it.p.originalSectors ≤ e.sizeOf r it

/-- The allocation with `r` sectors for the remaining partition ends by a limit. -/
def EndsBy (limit : ℤ) (r : ℕ) : Prop := ∃ st, e.resolveLeaves r = .ok st ∧ (st.cursor : ℤ) ≤ limit

lemma foldlM_allocStep (r : ℕ) {items : List Item}
    (h : ∀ it ∈ items, it.p.originalSectors ≤ e.sizeOf r it) (st : Cursor) :
    items.foldlM (e.allocStep r) st =
      .ok ⟨e.cursorFrom r st.cursor items, st.out ++ e.leavesFrom r st.cursor items⟩ := by
  induction items generalizing st with
  | nil =>
    rw [List.foldlM_nil, leavesFrom, List.append_nil]
    rfl
  | cons it items ih =>
    have hstep : e.allocStep r st it =
        .ok ⟨e.next r st.cursor it,
          st.out ++ [it.p.placed (e.leafStart st.cursor it.p) (e.sizeOf r it)]⟩ := by
      have := h it List.mem_cons_self
      unfold allocStep errorIf
      rw [decide_eq_false (by omega)]
      rfl
    rw [List.foldlM_cons, hstep, ok_bind, ih fun it hit => h it (List.mem_cons_of_mem _ hit)]
    simp only [leavesFrom, cursorFrom, List.foldl_cons, List.append_assoc, List.singleton_append]

lemma resolveLeaves_eq {r : ℕ} (h : e.Enough r) :
    e.resolveLeaves r = .ok ⟨e.cursorFrom r e.front e.items, e.leavesFrom r e.front e.items⟩ := by
  unfold resolveLeaves
  rw [e.foldlM_allocStep r h]
  rfl

lemma enough_of_resolveLeaves {r : ℕ} {st : Cursor} (h : e.resolveLeaves r = .ok st) : e.Enough r :=
  foldlM_ok (fun items _ _ => ∀ it ∈ items, it.p.originalSectors ≤ e.sizeOf r it) (fun _ => by simp)
    (fun it items _ _ _ h1 h2 => List.forall_mem_cons.mpr ⟨(allocStep_eq_ok e r h1).1, h2⟩) e.items
      h

lemma endsBy_iff {limit : ℤ} {r : ℕ} :
    e.EndsBy limit r ↔ e.Enough r ∧ (e.cursorFrom r e.front e.items : ℤ) ≤ limit := by
  constructor
  · rintro ⟨st, hst, hle⟩
    have hen := e.enough_of_resolveLeaves hst
    rw [e.resolveLeaves_eq hen, Except.ok.injEq] at hst
    subst hst
    exact ⟨hen, hle⟩
  · rintro ⟨hen, hle⟩
    exact ⟨_, e.resolveLeaves_eq hen, hle⟩

lemma cursorFrom_append (r c : ℕ) (items items' : List Item) :
    e.cursorFrom r c (items ++ items') = e.cursorFrom r (e.cursorFrom r c items) items' :=
  List.foldl_append

lemma leavesFrom_append (r c : ℕ) (items items' : List Item) :
    e.leavesFrom r c (items ++ items') = e.leavesFrom r c items ++
      e.leavesFrom r (e.cursorFrom r c items) items' := by
  induction items generalizing c with
  | nil => rfl
  | cons it items ih =>
    rw [List.cons_append, leavesFrom, leavesFrom, ih, List.cons_append]
    rfl

/-! ### Moving the cursor -/

lemma alignUp_add_dvd {a n k : ℕ} (hk : a ∣ k) : alignUp (n + k) a = alignUp n a + k := by
  obtain ⟨m, rfl⟩ := hk
  rcases Nat.eq_zero_or_pos a with rfl | ha
  · simp
  · unfold alignUp
    rw [show n + a * m + a - 1 = n + a - 1 + a * m by omega, Nat.add_mul_div_left _ _ ha,
      Nat.add_mul, Nat.mul_comm m a]

lemma leafStart_add {k : ℕ} (hk : alignment e.logical ∣ k) (c : ℕ) (p : SchemaPart) :
    e.leafStart (c + k) p = e.leafStart c p + k := by
  unfold leafStart
  simp only [alignUp_add_dvd hk]
  rcases e.extended with _ | ⟨x, ebr⟩
  · rfl
  · simp only
    split
    · rw [Nat.add_right_comm, alignUp_add_dvd hk]
    · rfl

lemma leafStart_mono {c c' : ℕ} (h : c ≤ c') (p : SchemaPart) :
    e.leafStart c p ≤ e.leafStart c' p := by
  have hup : alignUp c (alignment e.logical) ≤ alignUp c' (alignment e.logical) := alignUp_mono h
  unfold leafStart
  rcases e.extended with _ | ⟨x, ebr⟩
  · exact hup
  · simp only
    split
    · exact alignUp_mono (by omega)
    · exact hup

/-- A leaf that is moved. -/
def moved (k : ℕ) (q : ResolvedPart) : ResolvedPart := { q with startSectors := q.startSectors + k }

/-- A leaf and what has become of it: it has not moved back, and only the partition `n` may have
another size, a larger one. -/
structure Later (n : ℕ) (q q' : ResolvedPart) : Prop where
  number : q'.number = q.number
  kind : q'.kind = q.kind
  start : q.startSectors ≤ q'.startSectors
  size : q.resolvedSectors ≤ q'.resolvedSectors
  same : q.number ≠ n → q'.resolvedSectors = q.resolvedSectors

lemma later_moved (n k : ℕ) (q : ResolvedPart) : Later n q (moved k q) :=
  ⟨rfl, rfl, Nat.le_add_right _ _, le_rfl, fun _ => rfl⟩

section Same

variable {r r' : ℕ} {items : List Item}

/-- Items that get as much from both. -/
def Alike (r r' : ℕ) (items : List Item) : Prop :=
  ∀ it ∈ items, e.sizeOf r' it = e.sizeOf r it ∧ e.tailAfter r' it.p = e.tailAfter r it.p

variable {e}

lemma Alike.tail {it : Item} (h : e.Alike r r' (it :: items)) : e.Alike r r' items :=
  fun it' hit' => h it' (List.mem_cons_of_mem _ hit')

/-- Behind a cursor that has moved, everything moves with it. -/
lemma Alike.moved (h : e.Alike r r' items) {k : ℕ} (hk : alignment e.logical ∣ k) (c : ℕ) :
    e.cursorFrom r' (c + k) items = e.cursorFrom r c items + k ∧
      e.leavesFrom r' (c + k) items = (e.leavesFrom r c items).map (AllocEnv.moved k) := by
  induction items generalizing c with
  | nil => exact ⟨rfl, rfl⟩
  | cons it items ih =>
    obtain ⟨hsize, htail⟩ := h it List.mem_cons_self
    have hnext : e.next r' (c + k) it = e.next r c it + k := by
      unfold next
      rw [e.leafStart_add hk, hsize, htail]
      omega
    obtain ⟨h1, h2⟩ := ih h.tail (e.next r c it)
    refine ⟨?_, ?_⟩
    · simp only [cursorFrom, List.foldl_cons, hnext] at h1 ⊢
      exact h1
    · simp only [leavesFrom, List.map_cons, hnext, h2, hsize, e.leafStart_add hk]
      rfl

/-- Behind a cursor that has not moved back, nothing moves back. -/
lemma Alike.later (h : e.Alike r r' items) (n : ℕ) {c c' : ℕ} (hc : c ≤ c') :
    e.cursorFrom r c items ≤ e.cursorFrom r' c' items ∧
    List.Forall₂ (Later n) (e.leavesFrom r c items) (e.leavesFrom r' c' items) := by
  induction items generalizing c c' with
  | nil => exact ⟨hc, .nil⟩
  | cons it items ih =>
    obtain ⟨hsize, htail⟩ := h it List.mem_cons_self
    have hstart := e.leafStart_mono hc it.p
    have hnext : e.next r c it ≤ e.next r' c' it := by
      unfold next
      omega
    obtain ⟨h1, h2⟩ := ih h.tail hnext
    exact ⟨h1, .cons ⟨rfl, rfl, hstart, hsize.ge, fun _ => hsize⟩ h2⟩

end Same

/-! ### The tail of the container -/

/-- What the joined documents give an allocation. -/
structure Prepared : Prop where
  numbers : (e.items.map (·.p.number)).Nodup
  sorted : e.extended.isSome → e.items.Pairwise fun a b => StartsBefore a.p b.p
  logicals : e.extended.isSome → ∃ it ∈ e.items, it.p.kind = some .logical

/-- The remaining item, and the items before it and behind it. -/
structure Split (pre : List Item) (it : Item) (post : List Item) : Prop where
  items : e.items = pre ++ it :: post
  mode : it.mode = .remaining
  before : ∀ it' ∈ pre, it'.mode ≠ .remaining
  behind : ∀ it' ∈ post, it'.mode ≠ .remaining

variable {e}

lemma sizeOf_of_ne {r : ℕ} {it : Item} (h : it.mode ≠ .remaining) :
    e.sizeOf r it = preSize e.logical it := if_neg h

lemma sizeOf_remaining {r : ℕ} {it : Item} (h : it.mode = .remaining) : e.sizeOf r it = r :=
  if_pos h

/-- The item behind which the loop keeps the tail. -/
def Closes (e : AllocEnv) (it : Item) : Prop :=
  it.p.kind = some .logical ∧ some it.p.number = e.lastLogicalNumber

lemma tailAfter_closes {r : ℕ} {it : Item} (hx : e.extended.isSome) (h : e.Closes it) :
    e.tailAfter r it.p = e.extendedTailSectors r := by
  obtain ⟨x, hx⟩ := Option.isSome_iff_exists.mp hx
  simp [tailAfter, hx, h.1, h.2]

lemma tailAfter_not_closes {r : ℕ} {it : Item} (h : ¬ (e.extended.isSome ∧ e.Closes it)) :
    e.tailAfter r it.p = 0 := by
  unfold tailAfter
  cases hx : e.extended with
  | none => rfl
  | some x =>
    refine if_neg fun hc => h ⟨?_, hc⟩
    rw [hx]
    rfl

lemma mem_logicalItems {it : Item} (hx : e.extended.isSome) :
    it ∈ e.logicalItems ↔ it ∈ e.items ∧ it.p.kind = some .logical := by
  obtain ⟨x, hx⟩ := Option.isSome_iff_exists.mp hx
  unfold logicalItems
  rw [hx]
  simp only
  rw [(List.perm_insertionSort _ _).mem_iff, List.mem_filter, beq_iff_eq]

/-- With a container there is such an item. -/
lemma Prepared.exists_closes (hp : e.Prepared) (hx : e.extended.isSome) :
    ∃ it ∈ e.items, e.Closes it := by
  obtain ⟨it, hit, hk⟩ := hp.logicals hx
  have hne : e.logicalItems ≠ [] := List.ne_nil_of_mem ((mem_logicalItems hx).mpr ⟨hit, hk⟩)
  obtain ⟨hlast, hlk⟩ := (mem_logicalItems hx).mp (List.getLast_mem hne)
  refine ⟨_, hlast, hlk, ?_⟩
  unfold lastLogicalNumber
  rw [List.getLast?_eq_some_getLast hne]
  rfl

lemma Prepared.logicalItems_eq (hp : e.Prepared) (hx : e.extended.isSome) :
    e.logicalItems = e.items.filter (·.p.kind == some .logical) := by
  have hsorted := hp.sorted hx
  obtain ⟨x, hx⟩ := Option.isSome_iff_exists.mp hx
  unfold logicalItems
  rw [hx]
  exact (hsorted.filter _).insertionSort_eq

/-- A logical partition is not behind the one that closes the container. -/
lemma Prepared.closes_last (hp : e.Prepared) {pre post : List Item} {it : Item}
    (hitems : e.items = pre ++ it :: post) (hx : e.extended.isSome)
    (hk : it.p.kind = some .logical) : ∀ it' ∈ pre, ¬ e.Closes it' := by
  intro it' hit' hc
  have hkb : (it.p.kind == some .logical) = true := beq_iff_eq.mpr hk
  have hlog : e.logicalItems = pre.filter (·.p.kind == some .logical) ++ it :: post.filter
      (·.p.kind == some .logical) := by
    rw [hp.logicalItems_eq hx, hitems, List.filter_append, List.filter_cons_of_pos (by exact hkb)]
  have hnum := hc.2
  unfold lastLogicalNumber at hnum
  rw [hlog, List.getLast?_append_of_ne_nil _ (List.cons_ne_nil _ _),
    List.getLast?_eq_some_getLast (List.cons_ne_nil _ _),
    Option.map_some, Option.some.injEq] at hnum
  -- the last logical item is behind `it'`, so its number is another
  have hmem : (it :: post.filter (·.p.kind == some .logical)).getLast (List.cons_ne_nil _ _) ∈
      it :: post := by
    rcases List.mem_cons.mp
      (List.getLast_mem (List.cons_ne_nil it (post.filter (·.p.kind == some .logical)))) with h | h
    · rw [h]
      exact List.mem_cons_self
    · exact List.mem_cons_of_mem _ (List.mem_of_mem_filter h)
  have hnd := hp.numbers
  rw [hitems, List.map_append, List.nodup_append] at hnd
  exact hnd.2.2 _ (List.mem_map_of_mem hit') _ (List.mem_map_of_mem hmem) hnum

section Tail

variable {pre post : List Item} {it : Item} {r r' : ℕ}

lemma Split.preSize_eq (hs : e.Split pre it post) {it' : Item} (h : it' ∈ pre ∨ it' ∈ post) :
    e.sizeOf r' it' = e.sizeOf r it' := by
  have hm : it'.mode ≠ .remaining := h.elim (hs.before it') (hs.behind it')
  rw [sizeOf_of_ne hm, sizeOf_of_ne hm]

lemma Split.sum_logical (hs : e.Split pre it post) (hr : r ≤ r') :
    ((e.items.filter (·.p.kind == some .logical)).map (e.sizeOf r')).sum =
      ((e.items.filter (·.p.kind == some .logical)).map (e.sizeOf r)).sum + if it.p.kind =
        some .logical then r' - r else 0 := by
  have hsame : ∀ items : List Item, (∀ it' ∈ items, it' ∈ pre ∨ it' ∈ post) →
      (items.filter (·.p.kind == some .logical)).map (e.sizeOf r') =
        (items.filter (·.p.kind == some .logical)).map (e.sizeOf r) :=
    fun items h => List.map_congr_left fun it' hit' =>
      hs.preSize_eq (h it' (List.mem_of_mem_filter hit'))
  rw [hs.items, List.filter_append, List.filter_cons]
  by_cases hk : it.p.kind = some .logical
  · simp only [hk, BEq.rfl, if_true, List.map_append, List.map_cons, List.sum_append, List.sum_cons,
      hsame pre fun _ => .inl,
      hsame post fun _ => .inr, sizeOf_remaining hs.mode]
    omega
  · simp only [beq_eq_false_iff_ne.mpr hk, Bool.false_eq_true, if_false, List.map_append,
      List.sum_append, hsame pre fun _ => .inl,
      hsame post fun _ => .inr, Nat.add_zero, hk]

/-- The tail shrinks by no more than the remaining partition grows. -/
lemma Split.tail_le (hs : e.Split pre it post) (hr : r ≤ r') :
    e.extendedTailSectors r ≤ e.extendedTailSectors r' + (r' - r) := by
  unfold extendedTailSectors logicalFootprint
  rcases e.extended with _ | ⟨x, ebr⟩
  · exact Nat.zero_le _
  · simp only [hs.sum_logical hr]
    split_ifs <;> omega

/-- The tail is the same when the remaining partition is outside the container. -/
lemma Split.tail_eq (hs : e.Split pre it post) (hr : r ≤ r') (hk : it.p.kind ≠ some .logical) :
    e.extendedTailSectors r' = e.extendedTailSectors r := by
  unfold extendedTailSectors logicalFootprint
  rcases e.extended with _ | ⟨x, ebr⟩
  · rfl
  · simp only [hs.sum_logical hr, if_neg hk, Nat.add_zero]

end Tail

/-! ### Growing the remaining partition -/

section Grow

variable {pre post : List Item} {it : Item} {r r' : ℕ}

/-- What comes before the remaining partition stays as it is. -/
lemma Split.alike_before (hs : e.Split pre it post) (hp : e.Prepared) (hr : r ≤ r') :
    e.Alike r r' pre := by
  intro it' hit'
  refine ⟨hs.preSize_eq (.inl hit'), ?_⟩
  by_cases hc : e.extended.isSome ∧ e.Closes it'
  · have hk : it.p.kind ≠ some .logical := fun hk => hp.closes_last hs.items hc.1 hk it' hit' hc.2
    rw [tailAfter_closes hc.1 hc.2, tailAfter_closes hc.1 hc.2, hs.tail_eq hr hk]
  · rw [tailAfter_not_closes hc, tailAfter_not_closes hc]

/-- What comes behind it stays as it is, if the tail does or is not there. -/
lemma Split.alike_behind (hs : e.Split pre it post)
    (h : e.extendedTailSectors r' = e.extendedTailSectors r ∨ ∀ it' ∈ post,
      ¬ (e.extended.isSome ∧ e.Closes it')) :
    e.Alike r r' post := by
  intro it' hit'
  refine ⟨hs.preSize_eq (.inr hit'), ?_⟩
  by_cases hc : e.extended.isSome ∧ e.Closes it'
  · rcases h with h | h
    · rw [tailAfter_closes hc.1 hc.2, tailAfter_closes hc.1 hc.2, h]
    · exact absurd hc (h it' hit')
  · rw [tailAfter_not_closes hc, tailAfter_not_closes hc]

/-- One item closes the container at most. -/
lemma Closes.unique {it₁ it₂ : Item} {L : List Item} (h1 : e.Closes it₁) (h2 : e.Closes it₂)
    (hnd : ((it₁ :: L).map (·.p.number)).Nodup) : it₂ ∉ L := by
  intro hmem
  have hn : it₁.p.number = it₂.p.number := Option.some.inj (h1.2.trans h2.2.symm)
  exact (List.nodup_cons.mp hnd).1 (List.mem_map.mpr ⟨it₂, hmem, hn.symm⟩)

/-- Behind a cursor that has moved by as much as the remaining partition has grown, nothing moves
back. -/
lemma later_behind {L : List Item} (n : ℕ) (hsize : ∀ it ∈ L, e.sizeOf r' it = e.sizeOf r it)
    (hnd : (L.map (·.p.number)).Nodup) {d : ℕ} (hd : alignment e.logical ∣ d)
    (htail : e.extendedTailSectors r ≤ e.extendedTailSectors r' + d) (c : ℕ) :
    e.cursorFrom r c L ≤ e.cursorFrom r' (c + d) L ∧ List.Forall₂ (Later n) (e.leavesFrom r c L)
      (e.leavesFrom r' (c + d) L) := by
  induction L generalizing c with
  | nil => exact ⟨Nat.le_add_right _ _, .nil⟩
  | cons it L ih =>
    have hit := hsize it List.mem_cons_self
    have hstart := e.leafStart_add hd c it.p
    have hleaf : Later n (it.p.placed (e.leafStart c it.p) (e.sizeOf r it))
        (it.p.placed (e.leafStart (c + d) it.p) (e.sizeOf r' it)) :=
      ⟨rfl, rfl, by rw [hstart]; exact Nat.le_add_right _ _, hit.ge, fun _ => hit⟩
    by_cases hc : e.extended.isSome ∧ e.Closes it
    · -- the container is closed here, and there is no tail behind
      have halike : e.Alike r r' L := by
        intro it' hit'
        have hn : ¬ (e.extended.isSome ∧ e.Closes it') := fun h => hc.2.unique h.2 hnd hit'
        exact ⟨hsize it' (List.mem_cons_of_mem _ hit'),
          by rw [tailAfter_not_closes hn, tailAfter_not_closes hn]⟩
      have hnext : e.next r c it ≤ e.next r' (c + d) it := by
        unfold next
        rw [tailAfter_closes hc.1 hc.2, tailAfter_closes hc.1 hc.2]
        omega
      obtain ⟨h1, h2⟩ := halike.later n hnext
      exact ⟨h1, .cons hleaf h2⟩
    · have hnext : e.next r' (c + d) it = e.next r c it + d := by
        unfold next
        rw [tailAfter_not_closes hc, tailAfter_not_closes hc, hstart, hit]
        omega
      obtain ⟨h1, h2⟩ :=
        ih (fun it' hit' => hsize it' (List.mem_cons_of_mem _ hit')) (List.nodup_cons.mp hnd).2
          (e.next r c it)
      refine ⟨?_, .cons hleaf ?_⟩
      · simp only [cursorFrom, List.foldl_cons, hnext] at h1 ⊢
        exact h1
      · rw [hnext]
        exact h2

/-- The logical leaves, compared: all of them have moved by as much, or the first of them has not
moved. -/
def Kept (qs qs' : List ResolvedPart) : Prop :=
  (∃ k,
    qs'.filter (·.kind == some .logical) = (qs.filter (·.kind == some .logical)).map (moved k)) ∨
    ∃ q q' L L', qs.filter (·.kind == some .logical) = q :: L ∧
      qs'.filter (·.kind == some .logical) = q' :: L' ∧
      q'.startSectors = q.startSectors

lemma filter_moved (k : ℕ) (qs : List ResolvedPart) :
    (qs.map (moved k)).filter (·.kind == some .logical) = (qs.filter (·.kind == some .logical)).map
      (moved k) := List.filter_map

/-- **The remaining partition grows.**  The allocation does not end before, and no leaf moves
back. -/
theorem Split.grow (hs : e.Split pre it post) (hp : e.Prepared) (hr : r ≤ r')
    (hd : alignment e.logical ∣ r' - r) :
    e.cursorFrom r e.front e.items ≤ e.cursorFrom r' e.front e.items ∧
      List.Forall₂ (Later it.p.number) (e.leavesFrom r e.front e.items)
        (e.leavesFrom r' e.front e.items) ∧
      Kept (e.leavesFrom r e.front e.items) (e.leavesFrom r' e.front e.items) := by
  set c := e.cursorFrom r e.front pre with hc
  obtain ⟨hcpre, hlpre⟩ := (hs.alike_before hp hr).moved (Nat.dvd_zero _) e.front
  simp only [Nat.add_zero] at hcpre hlpre
  have hmap : (e.leavesFrom r e.front pre).map (moved 0) = e.leavesFrom r e.front pre :=
    List.map_id _
  rw [hmap] at hlpre
  have hsplit : ∀ r, e.cursorFrom r e.front pre = c →
      e.cursorFrom r e.front e.items = e.cursorFrom r (e.next r c it) post ∧
      e.leavesFrom r e.front e.items = e.leavesFrom r e.front pre ++
        it.p.placed (e.leafStart c it.p) (e.sizeOf r it) :: e.leavesFrom r
          (e.next r c it) post := by
    intro r hrc
    rw [hs.items, cursorFrom_append, leavesFrom_append, hrc]
    exact ⟨rfl, rfl⟩
  obtain ⟨h1, h2⟩ := hsplit r rfl
  obtain ⟨h1', h2'⟩ := hsplit r' hcpre
  have hrefl : List.Forall₂ (Later it.p.number) (e.leavesFrom r e.front pre)
      (e.leavesFrom r e.front pre) :=
    List.forall₂_same.mpr fun q _ => later_moved it.p.number 0 q
  have hleaf : Later it.p.number (it.p.placed (e.leafStart c it.p) (e.sizeOf r it))
      (it.p.placed (e.leafStart c it.p) (e.sizeOf r' it)) :=
    ⟨rfl, rfl, le_rfl, by rw [sizeOf_remaining hs.mode, sizeOf_remaining hs.mode]; exact hr,
      fun hn => absurd rfl hn⟩
  rw [h1, h2, h1', h2', hlpre]
  have hsize : e.sizeOf r it = r ∧ e.sizeOf r' it = r' :=
    ⟨sizeOf_remaining hs.mode, sizeOf_remaining hs.mode⟩
  -- a logical leaf before the remaining one, or the remaining one itself, stays where it is
  have hkept : ∀ post', (e.leavesFrom r e.front pre).filter (·.kind == some .logical) ≠ [] ∨
      it.p.kind = some .logical →
      Kept (e.leavesFrom r e.front pre ++ it.p.placed (e.leafStart c it.p) (e.sizeOf r it) ::
        e.leavesFrom r (e.next r c it) post)
        (e.leavesFrom r e.front pre ++ it.p.placed (e.leafStart c it.p)
          (e.sizeOf r' it) :: post') := by
    intro post' h
    refine .inr ?_
    rw [List.filter_append, List.filter_append]
    cases hl : (e.leavesFrom r e.front pre).filter (·.kind == some .logical) with
    | cons q L => exact ⟨q, q, _, _, rfl, rfl, rfl⟩
    | nil =>
      have hk : it.p.kind = some .logical := h.resolve_left (by simp [hl])
      have hkb : ∀ size, ((it.p.placed (e.leafStart c it.p) size).kind == some .logical) = true :=
        fun _ => beq_iff_eq.mpr hk
      rw [List.filter_cons_of_pos (by exact hkb _), List.filter_cons_of_pos (by exact hkb _)]
      exact ⟨_, _, _, _, rfl, rfl, rfl⟩
  by_cases hk : it.p.kind = some .logical
  · have hnd : ((it :: post).map (·.p.number)).Nodup := by
      have := hp.numbers
      rw [hs.items, List.map_append] at this
      exact this.of_append_right
    by_cases hclose : e.extended.isSome ∧ e.Closes it
    · have halike : e.Alike r r' post :=
        hs.alike_behind (.inr fun it' hit' h => hclose.2.unique h.2 hnd hit')
      have htail := hs.tail_le hr
      have hnext : e.next r c it ≤ e.next r' c it := by
        unfold next
        rw [tailAfter_closes hclose.1 hclose.2, tailAfter_closes hclose.1 hclose.2,
          hsize.1, hsize.2]
        omega
      obtain ⟨h3, h4⟩ := halike.later it.p.number hnext
      exact ⟨h3, List.rel_append hrefl (.cons hleaf h4), hkept _ (.inr hk)⟩
    · have hnext : e.next r' c it = e.next r c it + (r' - r) := by
        unfold next
        rw [tailAfter_not_closes hclose, tailAfter_not_closes hclose, hsize.1, hsize.2]
        omega
      obtain ⟨h3, h4⟩ :=
        later_behind it.p.number (fun it' hit' => hs.preSize_eq (.inr hit'))
          (List.nodup_cons.mp hnd).2 hd
        (hs.tail_le hr) (e.next r c it)
      rw [← hnext] at h3 h4
      exact ⟨h3, List.rel_append hrefl (.cons hleaf h4), hkept _ (.inr hk)⟩
  · -- the tail stays as it is, and everything behind the remaining partition moves
    have htail := hs.tail_eq hr hk
    have hclose : ¬ (e.extended.isSome ∧ e.Closes it) := fun h => hk h.2.1
    have hnext : e.next r' c it = e.next r c it + (r' - r) := by
      unfold next
      rw [tailAfter_not_closes hclose, tailAfter_not_closes hclose, hsize.1, hsize.2]
      omega
    obtain ⟨h3, h4⟩ := (hs.alike_behind (.inl htail)).moved hd (e.next r c it)
    rw [hnext, h3, h4]
    have hmoved : List.Forall₂ (Later it.p.number) (e.leavesFrom r (e.next r c it) post)
        ((e.leavesFrom r (e.next r c it) post).map (moved (r' - r))) := by
      rw [List.forall₂_map_right_iff]
      exact List.forall₂_same.mpr fun q _ => later_moved it.p.number _ q
    refine ⟨Nat.le_add_right _ _, List.rel_append hrefl (.cons hleaf hmoved), ?_⟩
    by_cases hpre : (e.leavesFrom r e.front pre).filter (·.kind == some .logical) = []
    · refine .inl ⟨r' - r, ?_⟩
      have hkb : ∀ size, ¬ ((it.p.placed (e.leafStart c it.p) size).kind == some .logical) = true :=
        fun _ h => hk (beq_iff_eq.mp h)
      rw [List.filter_append, List.filter_append, hpre, List.filter_cons_of_neg (by exact hkb _),
        List.filter_cons_of_neg (by exact hkb _),
        List.nil_append, List.nil_append, filter_moved]
    · exact hkept _ (.inl hpre)

end Grow

/-! ### Bounds -/

section Bounds

variable {r : ℕ}

/-- The sectors of an item, with the gap before it and the tail behind it. -/
def span (e : AllocEnv) (r : ℕ) (it : Item) : ℕ := e.gap it.p + e.sizeOf r it + e.tailAfter r it.p

lemma next_ge (c : ℕ) (it : Item) : c + e.span r it ≤ e.next r c it := by
  have := e.add_gap_le_leafStart c it.p
  unfold span next
  omega

lemma cursorFrom_ge (c : ℕ) (items : List Item) :
    c + (items.map (e.span r)).sum ≤ e.cursorFrom r c items := by
  induction items generalizing c with
  | nil => exact le_rfl
  | cons it items ih =>
    have h1 := next_ge (e := e) (r := r) c it
    have h2 := ih (e.next r c it)
    rw [List.map_cons, List.sum_cons]
    show _ ≤ e.cursorFrom r (e.next r c it) items
    omega

lemma le_cursorFrom (c : ℕ) (items : List Item) : c ≤ e.cursorFrom r c items := by
  have := cursorFrom_ge (e := e) (r := r) c items
  omega

/-- The leaves lie between the two cursors, a logical one behind its EBR. -/
lemma leavesFrom_bounds {c : ℕ} {items : List Item} :
    ∀ q ∈ e.leavesFrom r c items, c + e.gap q.toSchemaPart ≤ q.startSectors ∧
      q.stop ≤ e.cursorFrom r c items := by
  induction items generalizing c with
  | nil => simp [leavesFrom]
  | cons it items ih =>
    have hge := next_ge (e := e) (r := r) c it
    intro q hq
    rcases List.mem_cons.mp hq with rfl | hq
    · refine ⟨e.add_gap_le_leafStart c it.p, ?_⟩
      have h1 : (it.p.placed (e.leafStart c it.p) (e.sizeOf r it)).stop ≤ e.next r c it :=
        Nat.le_add_right _ _
      exact h1.trans (le_cursorFrom _ _)
    · obtain ⟨h1, h2⟩ := ih q hq
      exact ⟨by omega, h2⟩

lemma leavesFrom_sorted {c : ℕ} {items : List Item} :
    (e.leavesFrom r c items).Pairwise fun q q' => q.startSectors ≤ q'.startSectors := by
  induction items generalizing c with
  | nil => exact .nil
  | cons it items ih =>
    refine .cons (fun q hq => ?_) ih
    have h1 := (leavesFrom_bounds q hq).1
    have h2 : e.leafStart c it.p ≤ e.next r c it := by
      unfold next
      omega
    show e.leafStart c it.p ≤ _
    omega

lemma mem_leavesFrom {c : ℕ} {items : List Item} {it : Item} (hit : it ∈ items) :
    ∃ start, it.p.placed start (e.sizeOf r it) ∈ e.leavesFrom r c items := by
  induction items generalizing c with
  | nil => cases hit
  | cons it' items ih =>
    rcases List.mem_cons.mp hit with rfl | hit
    · exact ⟨_, List.mem_cons_self⟩
    · obtain ⟨start, h⟩ := ih (c := e.next r c it') hit
      exact ⟨start, List.mem_cons_of_mem _ h⟩

lemma map_number_leavesFrom {c : ℕ} {items : List Item} :
    (e.leavesFrom r c items).map (·.number) = items.map (·.p.number) := by
  induction items generalizing c with
  | nil => rfl
  | cons it items ih =>
    rw [leavesFrom, List.map_cons, List.map_cons, ih]
    rfl

end Bounds

/-! ### The container -/

/-- The container that is derived from a list of leaves. -/
def Box (x : SchemaPart) (ebr : ℕ) (leaves : List ResolvedPart) (box : ResolvedPart) : Prop :=
  ∃ first last, ((leaves.filter (·.kind == some .logical)).map (·.startSectors)).min? = some first ∧
    ((leaves.filter (·.kind == some .logical)).map (·.stop)).max? = some last ∧
    box = x.placed (first - ebr) (max last (first - ebr + x.minSectors) - (first - ebr))

lemma containerOf_eq_ok {x : SchemaPart} {ebr : ℕ} {leaves plan : List ResolvedPart} {limit : ℤ} :
    containerOf x ebr leaves limit = .ok plan ↔ ∃ box, Box x ebr leaves box ∧
      (box.stop : ℤ) ≤ limit ∧
      plan = (leaves ++ [box]).insertionSort (fun a b => a.number ≤ b.number) := by
  have hmax : ∀ a b : ℕ, (if a > b then a else b) = max a b := by
    intro a b
    split <;> omega
  unfold containerOf
  simp only [hmax]
  constructor
  · intro h
    split at h
    next first last h1 h2 =>
      split at h
      · cases h
      next hle =>
        refine ⟨_, ⟨first, last, h1, h2, rfl⟩, ?_, (Except.ok.inj h).symm⟩
        have :
            (x.placed (first - ebr) (max last (first - ebr + x.minSectors) - (first - ebr))).stop =
          max last (first - ebr + x.minSectors) := by
          show first - ebr + (max last (first - ebr + x.minSectors) - (first - ebr)) = _
          omega
        rw [this]
        omega
    · cases h
  · rintro ⟨box, ⟨first, last, h1, h2, rfl⟩, hle, rfl⟩
    rw [h1, h2]
    have : (x.placed (first - ebr) (max last (first - ebr + x.minSectors) - (first - ebr))).stop =
        max last (first - ebr + x.minSectors) := by
      show first - ebr + (max last (first - ebr + x.minSectors) - (first - ebr)) = _
      omega
    rw [this] at hle
    simp only
    rw [if_neg (by omega)]

section Container

variable {x : SchemaPart} {ebr r : ℕ}

lemma gap_of_logical (hx : e.extended = some (x, ebr)) {p : SchemaPart}
    (hk : p.kind = some .logical) : e.gap p = ebr := by
  simp [gap, hx, hk]

/-- The footprint and the tail of the container are within the spans of its items. -/
lemma Prepared.minimum_le_span (hp : e.Prepared) (hx : e.extended = some (x, ebr))
    {pre post : List Item} (hitems : e.items = pre ++ post)
    (hpre : ∀ it ∈ pre, it.p.kind ≠ some .logical) : x.minSectors ≤ (post.map (e.span r)).sum := by
  have hsome : e.extended.isSome := by rw [hx]; rfl
  have hfilter : e.items.filter (·.p.kind == some .logical) =
      post.filter (·.p.kind == some .logical) := by
    rw [hitems, List.filter_append,
      List.filter_eq_nil_iff.mpr fun it hit => by simpa using hpre it hit, List.nil_append]
  have hfoot : e.logicalFootprint ebr r ≤ (post.map fun it => e.gap it.p + e.sizeOf r it).sum := by
    unfold logicalFootprint
    rw [hp.logicalItems_eq hsome, hfilter]
    clear hfilter hitems
    induction post with
    | nil => simp
    | cons it post ih =>
      rw [List.filter_cons, List.map_cons, List.sum_cons]
      split
      next hk =>
        rw [gap_of_logical hx (beq_iff_eq.mp hk), List.length_cons, List.map_cons,
          List.sum_cons, Nat.add_mul]
        omega
      next => omega
  have htail : e.extendedTailSectors r ≤ (post.map fun it => e.tailAfter r it.p).sum := by
    obtain ⟨it, hit, hc⟩ := hp.exists_closes hsome
    have hmem : it ∈ post := by
      rw [hitems] at hit
      exact (List.mem_append.mp hit).resolve_left fun h => hpre it h hc.1
    rw [← tailAfter_closes hsome hc]
    exact List.single_le_sum (fun _ _ => Nat.zero_le _) _
      (List.mem_map_of_mem (f := fun it : Item => e.tailAfter r it.p) hmem)
  have hsum : (post.map (e.span r)).sum = (post.map fun it => e.gap it.p + e.sizeOf r it).sum +
      (post.map fun it => e.tailAfter r it.p).sum := by
    rw [← List.sum_map_add]
    rfl
  have hmin : x.minSectors ≤ e.logicalFootprint ebr r + e.extendedTailSectors r := by
    simp only [extendedTailSectors, hx]
    split <;> omega
  omega

/-- The first logical item. -/
lemma Prepared.first_logical (hp : e.Prepared) (hx : e.extended.isSome) :
    ∃ pre it post, e.items = pre ++ it :: post ∧
    (∀ it' ∈ pre, it'.p.kind ≠ some .logical) ∧ it.p.kind = some .logical := by
  obtain ⟨it₀, hit₀, hk₀⟩ := hp.logicals hx
  have hfound : (e.items.find? (·.p.kind == some .logical)).isSome :=
    List.find?_isSome.mpr ⟨it₀, hit₀, by simpa using hk₀⟩
  obtain ⟨it, hit⟩ := Option.isSome_iff_exists.mp hfound
  obtain ⟨hk, pre, post, hitems, hpre⟩ := List.find?_eq_some_iff_append.mp hit
  exact ⟨pre, it, post, hitems, fun it' hit' => by simpa using hpre it' hit', by simpa using hk⟩

/-- **The container ends by the cursor**, so that its own check never fails. -/
lemma Prepared.exists_box (hp : e.Prepared) (hx : e.extended = some (x, ebr)) :
    ∃ box, Box x ebr (e.leavesFrom r e.front e.items) box ∧
      box.stop ≤ e.cursorFrom r e.front e.items := by
  have hsome : e.extended.isSome := by rw [hx]; rfl
  obtain ⟨pre, it, post, hitems, hpre, hk⟩ := hp.first_logical hsome
  set c := e.cursorFrom r e.front pre with hc
  set leaf := it.p.placed (e.leafStart c it.p) (e.sizeOf r it) with hleaf
  have hmem : leaf ∈ (e.leavesFrom r e.front e.items).filter (·.kind == some .logical) := by
    refine List.mem_filter.mpr ⟨?_, by simpa [hleaf, SchemaPart.placed] using hk⟩
    rw [hitems, leavesFrom_append]
    exact List.mem_append_right _ List.mem_cons_self
  set logs := (e.leavesFrom r e.front e.items).filter (·.kind == some .logical) with hlogs
  have hne : logs ≠ [] := List.ne_nil_of_mem hmem
  have hstarts : logs.map (·.startSectors) ≠ [] := by simpa using hne
  have hstops : logs.map (·.stop) ≠ [] := by simpa using hne
  obtain ⟨first, hfirst⟩ := Option.isSome_iff_exists.mp (List.isSome_min?_iff.mpr hstarts)
  obtain ⟨last, hlast⟩ := Option.isSome_iff_exists.mp (List.isSome_max?_iff.mpr hstops)
  refine ⟨_, ⟨first, last, hfirst, hlast, rfl⟩, ?_⟩
  obtain ⟨hfmem, hfmin⟩ := List.min?_eq_some_iff.mp hfirst
  obtain ⟨hlmem, -⟩ := List.max?_eq_some_iff.mp hlast
  have hlastle : last ≤ e.cursorFrom r e.front e.items := by
    obtain ⟨q, hq, rfl⟩ := List.mem_map.mp hlmem
    exact (leavesFrom_bounds q (List.mem_of_mem_filter hq)).2
  -- the minimum is within the spans from the first logical item on
  have hspan := hp.minimum_le_span (r := r) hx hitems hpre
  have hfirstle : first ≤ e.leafStart c it.p :=
    hfmin _ (List.mem_map_of_mem (f := (·.startSectors)) hmem)
  have hend : e.leafStart c it.p - ebr + x.minSectors ≤ e.cursorFrom r e.front e.items := by
    have hge := cursorFrom_ge (e := e) (r := r) (e.next r c it) post
    have hcur : e.cursorFrom r e.front e.items = e.cursorFrom r (e.next r c it) post := by
      rw [hitems, cursorFrom_append]
      rfl
    have hgap := e.add_gap_le_leafStart c it.p
    rw [List.map_cons, List.sum_cons] at hspan
    unfold span next at *
    rw [gap_of_logical hx hk] at hspan hgap
    omega
  show first - ebr + (max last (first - ebr + x.minSectors) - (first - ebr)) ≤ _
  omega

/-- The container does not shrink. -/
lemma box_le {leaves leaves' : List ResolvedPart} {box box' : ResolvedPart} {n : ℕ}
    (hb : Box x ebr leaves box) (hb' : Box x ebr leaves' box')
    (hlater : List.Forall₂ (Later n) leaves leaves') (hkept : Kept leaves leaves')
    (hsorted : leaves.Pairwise fun q q' => q.startSectors ≤ q'.startSectors) :
    box.resolvedSectors ≤ box'.resolvedSectors := by
  obtain ⟨first, last, h1, h2, rfl⟩ := hb
  obtain ⟨first', last', h1', h2', rfl⟩ := hb'
  obtain ⟨hfmem, -⟩ := List.min?_eq_some_iff.mp h1
  obtain ⟨hlmem, -⟩ := List.max?_eq_some_iff.mp h2
  have hfmin' := (List.min?_eq_some_iff.mp h1').2
  have hlmax' := (List.max?_eq_some_iff.mp h2').2
  obtain ⟨a, ha, rfl⟩ := List.mem_map.mp hfmem
  obtain ⟨b, hb, rfl⟩ := List.mem_map.mp hlmem
  show max b.stop (a.startSectors - ebr + x.minSectors) - (a.startSectors - ebr) ≤
    max last' (first' - ebr + x.minSectors) - (first' - ebr)
  rcases hkept with ⟨k, hk⟩ | ⟨q, q', L, L', hq, hq', hstart⟩
  · -- everything has moved by `k`
    rw [hk, List.map_map] at hfmin' hlmax'
    have hfirst : first' ≤ a.startSectors + k :=
      hfmin' _ (List.mem_map_of_mem (f := (·.startSectors) ∘ moved k) ha)
    have hlast : b.startSectors + k + b.resolvedSectors ≤ last' :=
      hlmax' _ (List.mem_map_of_mem (f := ResolvedPart.stop ∘ moved k) hb)
    have hstop : b.stop = b.startSectors + b.resolvedSectors := rfl
    omega
  · -- the first logical leaf has not moved, and the others have not moved back
    have hfirst : first' ≤ a.startSectors := by
      have hsorted' := hsorted.filter (·.kind == some .logical)
      rw [hq] at hsorted' ha
      have hqa : q.startSectors ≤ a.startSectors := by
        rcases List.mem_cons.mp ha with rfl | ha
        · exact le_rfl
        · exact (List.pairwise_cons.mp hsorted').1 a ha
      have hqmem : q' ∈ leaves'.filter (·.kind == some .logical) := by
        rw [hq']
        exact List.mem_cons_self
      have := hfmin' _ (List.mem_map_of_mem (f := (·.startSectors)) hqmem)
      omega
    have hlast : b.stop ≤ last' := by
      obtain ⟨hb, hbk⟩ := List.mem_filter.mp hb
      obtain ⟨b', hb', hbb⟩ := exists_right_of_forall₂ hlater hb
      have hmem : b' ∈ leaves'.filter (·.kind == some .logical) :=
        List.mem_filter.mpr ⟨hb', by rw [hbb.kind]; exact hbk⟩
      have h3 := hlmax' _ (List.mem_map_of_mem (f := ResolvedPart.stop) hmem)
      have h4 : b.startSectors + b.resolvedSectors ≤ b'.startSectors + b'.resolvedSectors :=
        Nat.add_le_add hbb.start hbb.size
      exact h4.trans h3
    omega

end Container

/-! ### The search -/

/-- The sizes of the remaining partition that fit. -/
def Fitting (e : AllocEnv) (limit : ℤ) : Set ℕ := {r | alignment e.logical ∣ r ∧ e.EndsBy limit r}

/-- The sectors between the front and the limit, without the EBRs. -/
def between (e : AllocEnv) (limit : ℤ) : ℤ :=
  limit - e.front - ((e.items.map fun it => e.gap it.p).sum : ℕ)

section Search

variable {pre post : List Item} {it : Item} {r r' : ℕ} {limit : ℤ}

lemma Split.eq_of_remaining (hs : e.Split pre it post) {it' : Item} (hit' : it' ∈ e.items)
    (hr : it'.mode = .remaining) : it' = it := by
  rw [hs.items, List.mem_append, List.mem_cons] at hit'
  rcases hit' with h | h | h
  · exact absurd hr (hs.before it' h)
  · exact h
  · exact absurd hr (hs.behind it' h)

/-- Only the remaining item can get too little. -/
lemma Split.enough_of (hs : e.Split pre it post) (h : e.Enough r')
    (hmin : it.p.originalSectors ≤ r) : e.Enough r := by
  intro it' hit'
  have h1 := h it' hit'
  rw [hs.items, List.mem_append, List.mem_cons] at hit'
  rcases hit' with hm | rfl | hm
  · rwa [hs.preSize_eq (r := r) (.inl hm)] at h1
  · rwa [sizeOf_remaining hs.mode]
  · rwa [hs.preSize_eq (r := r) (.inr hm)] at h1

lemma Split.original_le (hs : e.Split pre it post) (h : e.Enough r) : it.p.originalSectors ≤ r := by
  have := h it (by rw [hs.items]; simp)
  rwa [sizeOf_remaining hs.mode] at this

/-- What is smaller fits as well, as long as nothing shrinks. -/
lemma Split.fits_down (hs : e.Split pre it post) (hp : e.Prepared) (hr : r ≤ r')
    (hd : alignment e.logical ∣ r) (hd' : alignment e.logical ∣ r')
    (hmin : it.p.originalSectors ≤ r) (h : e.EndsBy limit r') : e.EndsBy limit r := by
  obtain ⟨hen, hle⟩ := e.endsBy_iff.mp h
  obtain ⟨hcur, -⟩ := hs.grow hp hr (Nat.dvd_sub hd' hd)
  exact e.endsBy_iff.mpr ⟨hs.enough_of hen hmin, by omega⟩

lemma Split.sum_sizeOf (hs : e.Split pre it post) :
    (e.items.map (e.sizeOf r)).sum = (e.items.map (preSize e.logical)).sum + r := by
  have hsame : ∀ items : List Item, (∀ it' ∈ items, it'.mode ≠ .remaining) →
      items.map (e.sizeOf r) = items.map (preSize e.logical) :=
    fun items h => List.map_congr_left fun it' hit' => sizeOf_of_ne (h it' hit')
  have hzero : preSize e.logical it = 0 := by
    unfold preSize
    rw [hs.mode]
  rw [hs.items]
  simp only [List.map_append, List.map_cons, List.sum_append, List.sum_cons, hsame pre hs.before,
    hsame post hs.behind,
    sizeOf_remaining hs.mode, hzero]
  omega

/-- **The upper bound of the search excludes nothing.** -/
lemma Split.le_between (hs : e.Split pre it post) (h : e.EndsBy limit r) :
    ((e.items.map (preSize e.logical)).sum : ℤ) + r ≤ e.between limit := by
  obtain ⟨-, hle⟩ := e.endsBy_iff.mp h
  have hge := cursorFrom_ge (e := e) (r := r) e.front e.items
  have hsum : (e.items.map (e.span r)).sum = (e.items.map fun it => e.gap it.p).sum +
      (e.items.map (e.sizeOf r)).sum +
      (e.items.map fun it => e.tailAfter r it.p).sum := by
    rw [← List.sum_map_add, ← List.sum_map_add]
    rfl
  have hsize := hs.sum_sizeOf (r := r)
  unfold between
  omega

lemma Split.head? (hs : e.Split pre it post) :
    (e.items.filter (·.mode == .remaining)).head? = some it := by
  have hpre : pre.filter (·.mode == .remaining) = [] := List.filter_eq_nil_iff.mpr fun it' h => by
    simpa using hs.before it' h
  rw [hs.items, List.filter_append, hpre, List.nil_append,
    List.filter_cons_of_pos (by simp [hs.mode])]
  rfl

/-- The search of the program is the search of the last unit that fits. -/
lemma remainingThatFits_eq {low : ℕ} (hen : ∀ u, low ≤ u → e.Enough (u * alignment e.logical))
    {fuel : ℕ} :
    ∀ {low' high : ℕ}, low ≤ low' → e.remainingThatFits limit fuel low' high =
      .ok (lastThat
        (fun u => decide ((e.cursorFrom (u * alignment e.logical) e.front e.items : ℤ) ≤ limit))
          fuel low' high) := by
  induction fuel with
  | zero =>
    intro low' high _
    rfl
  | succ fuel ih =>
    intro low' high hlow
    unfold remainingThatFits lastThat
    split
    · rfl
    · have hmid : low ≤ (low' + high + 1) / 2 := by omega
      simp only [e.resolveLeaves_eq (hen _ hmid), ok_bind, decide_eq_true_eq]
      split
      · exact ih hmid
      · exact ih hlow

/-- **The search finds the largest size that fits**, if there is any. -/
lemma Split.resolvedRemaining_eq (hs : e.Split pre it post) (hp : e.Prepared) {r₀ : ℕ}
    (h₀ : r₀ ∈ e.Fitting limit) :
    ∃ r, IsGreatest (e.Fitting limit) r ∧
      resolvedRemaining e (e.between limit) limit (e.items.map (preSize e.logical)).sum =
        .ok r := by
  obtain ⟨hd₀, hends₀⟩ := h₀
  have ha := alignment_pos e.logical
  set a := alignment e.logical with hadef
  set used := (e.items.map (preSize e.logical)).sum with hused
  set high := (e.between limit - used).toNat / a with hhigh
  set low := alignUp it.p.originalSectors a / a with hlow
  have hlowmul : low * a = alignUp it.p.originalSectors a := Nat.div_mul_cancel (dvd_alignUp _ _)
  have hhighmul : alignDown (e.between limit - used).toNat a / a = high := Nat.mul_div_cancel _ ha
  obtain ⟨hen₀, -⟩ := e.endsBy_iff.mp hends₀
  -- a size that fits is within the interval
  have hinside : ∀ r, a ∣ r → e.EndsBy limit r → low * a ≤ r ∧
      r ≤ alignDown (e.between limit - used).toNat a := by
    intro r hd hr
    have h1 := hs.le_between hr
    have h2 := hs.original_le (e.endsBy_iff.mp hr).1
    refine ⟨by rw [hlowmul]; exact alignUp_le_of_dvd ha hd h2, le_alignDown_of_dvd hd ?_⟩
    omega
  obtain ⟨hl₀, hh₀⟩ := hinside r₀ hd₀ hends₀
  have hen : ∀ u, low ≤ u → e.Enough (u * a) := by
    intro u hu
    refine hs.enough_of hen₀ ?_
    have h1 := le_alignUp ha it.p.originalSectors
    have h2 : low * a ≤ u * a := Nat.mul_le_mul_right a hu
    omega
  set fits : ℕ → Bool :=
    fun u => decide ((e.cursorFrom (u * a) e.front e.items : ℤ) ≤ limit) with hfits
  have hiff : ∀ u, low ≤ u → (fits u = true ↔ e.EndsBy limit (u * a)) := by
    intro u hu
    rw [e.endsBy_iff, hfits, decide_eq_true_eq]
    exact ⟨fun h => ⟨hen u hu, h⟩, fun h => h.2⟩
  have hdown : ∀ m n, low ≤ m → m ≤ n → fits n = true → fits m = true := by
    intro m n hm hmn hn
    refine (hiff m hm).mpr ?_
    exact hs.fits_down hp (Nat.mul_le_mul_right a hmn) (Dvd.intro_left _ rfl) (Dvd.intro_left _ rfl)
      (hs.original_le (hen m hm)) ((hiff n (hm.trans hmn)).mp hn)
  have hin : ∀ r ∈ e.Fitting limit, ∃ u, r = u * a ∧ low ≤ u ∧ u ≤ high ∧ fits u = true := by
    rintro r ⟨⟨u, hu⟩, hr⟩
    rw [Nat.mul_comm] at hu
    subst hu
    obtain ⟨h1, h2⟩ := hinside (u * a) (Dvd.intro_left _ rfl) hr
    have h3 : low ≤ u := Nat.le_of_mul_le_mul_right h1 ha
    refine ⟨u, rfl, h3, ?_, (hiff u h3).mpr hr⟩
    rw [← hhighmul]
    exact (Nat.le_div_iff_mul_le ha).mpr h2
  set u := lastThat fits (high - low) low high with hu
  have hulow : low ≤ u := le_lastThat
  have hmax : ∀ r ∈ e.Fitting limit, r ≤ u * a := by
    intro r hr
    obtain ⟨v, rfl, -, hv, hfv⟩ := hin r hr
    exact Nat.mul_le_mul_right a (lastThat_spec le_rfl hdown hv hfv)
  have hmem : u * a ∈ e.Fitting limit := by
    refine ⟨Dvd.intro_left _ rfl, (hiff u hulow).mp ?_⟩
    rcases @lastThat_passes fits (high - low) low high with h | h
    · -- nothing but the lower end is left, which fits because something does
      rw [← hu] at h
      rw [h]
      obtain ⟨v, -, hlv, -, hfv⟩ := hin r₀ ⟨hd₀, hends₀⟩
      exact hdown low v le_rfl hlv hfv
    · exact h
  refine ⟨u * a, ⟨hmem, hmax⟩, ?_⟩
  unfold resolvedRemaining
  simp only [hs.head?, ← hadef]
  rw [if_neg (by rw [← hlowmul]; omega), hhighmul, remainingThatFits_eq hen le_rfl, ok_bind]
  rfl

end Search

/-! ### The plan -/

/-- The plan of an allocation: its leaves, and the container around them. -/
def Planned (e : AllocEnv) (r : ℕ) (plan : List ResolvedPart) : Prop :=
  match e.extended with
  | none => plan = e.leavesFrom r e.front e.items
  | some (x, ebr) => ∃ box, Box x ebr (e.leavesFrom r e.front e.items) box ∧
      plan = (e.leavesFrom r e.front e.items ++ [box]).insertionSort
        (fun a b => a.number ≤ b.number)

section Plan

variable {pre post : List Item} {it : Item} {r : ℕ} {limit : ℤ} {plan : List ResolvedPart}

/-- **The program succeeds when some size fits**, and gives the largest one. -/
theorem Split.resolveAdjusted_of_fitting (hs : e.Split pre it post) (hp : e.Prepared) {r₀ : ℕ}
    (h₀ : r₀ ∈ e.Fitting limit) :
    ∃ r plan, IsGreatest (e.Fitting limit) r ∧ e.Planned r plan ∧
      resolveAdjusted e (e.between limit) limit = .ok plan := by
  obtain ⟨r, hgreatest, hr⟩ := hs.resolvedRemaining_eq hp h₀
  obtain ⟨hen, hle⟩ := e.endsBy_iff.mp hgreatest.1.2
  have hused := hs.le_between h₀.2
  have hrun : ∀ plan, e.extended.elim (pure (e.leavesFrom r e.front e.items))
      (fun c => containerOf c.1 c.2 (e.leavesFrom r e.front e.items) limit) = .ok plan →
        resolveAdjusted e (e.between limit) limit = .ok plan := by
    intro plan hplan
    unfold resolveAdjusted
    simp only [errorIf,
      decide_eq_false
        (show ¬ (((e.items.map (preSize e.logical)).sum : ℕ) : ℤ) > e.between limit by omega), hr,
      e.resolveLeaves_eq hen, ok_bind,
        decide_eq_false (show ¬ ((e.cursorFrom r e.front e.items : ℕ) : ℤ) > limit by omega)]
    cases hx : e.extended with
    | none =>
      rw [hx] at hplan
      exact hplan
    | some c =>
      rw [hx] at hplan
      exact hplan
  rcases hx : e.extended with _ | ⟨x, ebr⟩
  · refine ⟨r, e.leavesFrom r e.front e.items, hgreatest, ?_, hrun _ ?_⟩
    · unfold Planned
      rw [hx]
    · rw [hx]
      rfl
  · obtain ⟨box, hbox, hstop⟩ := hp.exists_box (r := r) hx
    have hlim : (box.stop : ℤ) ≤ limit := by omega
    refine ⟨r,
      (e.leavesFrom r e.front e.items ++ [box]).insertionSort (fun a b => a.number ≤ b.number),
        hgreatest, ?_, hrun _ ?_⟩
    · unfold Planned
      rw [hx]
      exact ⟨box, hbox, rfl⟩
    · rw [hx]
      exact containerOf_eq_ok.mpr ⟨box, hbox, hlim, rfl⟩

lemma dvd_of_resolvedRemaining {available : ℤ} {used : ℕ}
    (hit : (e.items.filter (·.mode == .remaining)).head? = some it)
    (h : resolvedRemaining e available limit used = .ok r) : alignment e.logical ∣ r := by
  unfold resolvedRemaining at h
  rw [hit] at h
  simp only at h
  split at h
  · rw [pure_eq_ok] at h
    exact h ▸ dvd_alignDown _ _
  · rw [bind_eq_ok] at h
    obtain ⟨u, -, h⟩ := h
    rw [pure_eq_ok] at h
    exact h ▸ Dvd.intro_left _ rfl

/-- **What a run that succeeds has found.** -/
theorem Split.greatest_of_ok (hs : e.Split pre it post) (hp : e.Prepared)
    (h : resolveAdjusted e (e.between limit) limit = .ok plan) :
    ∃ r, IsGreatest (e.Fitting limit) r ∧ e.Planned r plan := by
  obtain ⟨r₀, st, hr₀, hst, hle, -⟩ := resolveAdjusted_ok h
  have h₀ : r₀ ∈ e.Fitting limit := ⟨dvd_of_resolvedRemaining hs.head? hr₀, st, hst, hle⟩
  obtain ⟨r, plan', hgreatest, hplan, hok⟩ := hs.resolveAdjusted_of_fitting hp h₀
  rw [h, Except.ok.injEq] at hok
  exact ⟨r, hgreatest, hok ▸ hplan⟩

end Plan

end AllocEnv

end Pxeos.Deploy
