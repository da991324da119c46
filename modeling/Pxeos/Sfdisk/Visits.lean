import Pxeos.Sfdisk.FillRun

/-!
# The visits of the placement loop

Which partitions the placement loop meets, and in which order.  `partition_starts` keeps one
partition for each start, so a partition can be hidden by another with the same start.  After
`check_all_partitions` this can happen to the container only.
-/

namespace Pxeos.Sfdisk

open Pxeos.Lib

instance : Std.Total StartsBefore := ⟨fun p q => le_total p.start q.start⟩

instance : IsTrans Part StartsBefore := ⟨fun _ _ _ => le_trans⟩

/-- No empty partition starts where the container starts. -/
def ContainerVisible (t : Table) : Prop :=
  ∀ p ∈ t.parts, ∀ x ∈ t.parts, p.number ≠ x.number → isExtendedType x.type = true → x.size ≠ 0 →
    p.size = 0 ∨ isExtendedType p.type = true → p.start ≠ x.start

section Visits

variable {c : Settings} {t : Table} {tr : Traversal t.numbers}

/-- A partition that is not empty does not share its start. -/
lemma start_ne (hcons : Consistent c.diskSize t.parts) (hvis : ContainerVisible t) {p q : Part}
    (hp : p ∈ t.parts) (hq : q ∈ t.parts) (hn : p.number ≠ q.number) (hq0 : q.size ≠ 0) :
    p.start ≠ q.start := by
  intro he
  have hqs : 0 < q.size := lt_of_le_of_ne (t.nonneg q hq).2.1 hq0.symm
  cases hqe : isExtendedType q.type with
  | false =>
    have := pairOk_start (hcons p hp q hq hn.symm) hqs hqe he.ge
    unfold Part.stop at this
    omega
  | true =>
    by_cases hp' : p.size = 0 ∨ isExtendedType p.type = true
    · exact hvis p hp q hq hn hqe hq0 hp' he
    · rw [not_or, Bool.not_eq_true] at hp'
      have hps : 0 < p.size := lt_of_le_of_ne (t.nonneg p hp).2.1 (Ne.symm hp'.1)
      have := pairOk_start (hcons q hq p hp hn) hps hp'.2 he.le
      unfold Part.stop at this
      omega

lemma mem_lastWins {p : Part} : ∀ {l : List Part}, l.Nodup → p ∈ l →
    (∀ q ∈ l, q ≠ p → q.start ≠ p.start) →
    p ∈ lastWins l
  | a :: l, hn, hp, h => by
    rw [List.nodup_cons] at hn
    unfold lastWins
    rcases List.mem_cons.mp hp with rfl | hp
    · have hany : l.any (·.start == p.start) = false := by
        rw [List.any_eq_false]
        intro q hq he
        exact h q (List.mem_cons_of_mem _ hq) (fun e => hn.1 (e ▸ hq)) (by simpa using he)
      rw [hany, if_neg Bool.false_ne_true]
      exact List.mem_cons_self
    · have ih := mem_lastWins hn.2 hp fun q hq => h q (List.mem_cons_of_mem _ hq)
      split
      · exact ih
      · exact List.mem_cons_of_mem _ ih

/-- An empty partition stays empty. -/
lemma size_ne_zero_of_wantSize {p : Part} (h : wantSize c t p ≠ 0) : p.size ≠ 0 := by
  intro h0
  unfold wantSize at h
  by_cases hc : p.isContainer t.label = true
  · rw [if_pos (by simp [hc])] at h
    exact h h0
  · rw [if_pos (by simp [isFixed, autoFixed, h0, hc])] at h
    exact h h0

/-- The partitions in the order of their starts. -/
def sourceOrder (t : Table) (tr : Traversal t.numbers) : List Part :=
  (lastWins (walk tr false .starts t.parts)).insertionSort StartsBefore

lemma sourceOrder_subset {p : Part} (h : p ∈ sourceOrder t tr) : p ∈ t.parts :=
  (walk_parts_perm t tr false .starts).mem_iff.mp
    ((lastWins_sublist _).subset ((List.perm_insertionSort _ _).mem_iff.mp h))

lemma mem_sourceOrder (hcons : Consistent c.diskSize t.parts) (hvis : ContainerVisible t) {p : Part}
    (hp : p ∈ t.parts) (h0 : p.size ≠ 0) : p ∈ sourceOrder t tr := by
  have hperm := walk_parts_perm t tr false .starts
  refine (List.perm_insertionSort _ _).mem_iff.mpr
    (mem_lastWins ?_ (hperm.mem_iff.mpr hp) fun q hq hne => ?_)
  · exact hperm.nodup_iff.mpr (List.Nodup.of_map _ t.nodup_numbers)
  · have hq := hperm.mem_iff.mp hq
    exact start_ne hcons hvis hq hp (fun hn => hne (eq_of_number t.nodup_numbers hq hp hn)) h0

/-- Records looked up by number. -/
lemma visit_map_wantPart : ∀ {xs : List Part}, (∀ p ∈ xs, p ∈ t.parts) →
    visit (xs.map (·.number)) (wanted c t) = xs.map (wantPart c t)
  | [], _ => rfl
  | p :: xs, h => by
    have hfind : (wanted c t).find? (fun q => q.number == p.number) = some (wantPart c t p) :=
      find?_number (wanted_nodup c t) (List.mem_map_of_mem (h p List.mem_cons_self))
    have ih := visit_map_wantPart fun q hq => h q (List.mem_cons_of_mem p hq)
    unfold visit at ih ⊢
    rw [List.map_cons, List.map_cons, ← ih, List.filterMap_cons]
    simp only [hfind]

/-- With `sorted_in` set the partitions are visited in the order of their starts. -/
lemma visited_of_sorted (hs : sortsIn c t = true) :
    visited c t tr = (sourceOrder t tr).map (wantPart c t) := by
  unfold visited placeOrder
  rw [if_pos hs]
  exact visit_map_wantPart fun p hp => sourceOrder_subset hp

variable (tr) in
/-- Every partition that is not empty is visited. -/
lemma visited_perm (hcons : Consistent c.diskSize t.parts) (hvis : ContainerVisible t) :
    ((visited c t tr).filter Part.present).Perm ((wanted c t).filter Part.present) := by
  have hnodup : (visited c t tr).Nodup := nodup_visit placeOrder_nodup
  refine (List.perm_ext_iff_of_nodup (hnodup.filter _)
    ((List.Nodup.of_map _ (wanted_nodup c t)).filter _)).mpr
    fun w => ?_
  rw [List.mem_filter, List.mem_filter]
  refine and_congr_left fun hw0 => ?_
  unfold visited
  rw [mem_visit (wanted_nodup c t)]
  refine ⟨And.left, fun hw => ⟨hw, ?_⟩⟩
  obtain ⟨p, hp, rfl⟩ := List.mem_map.mp hw
  have h0 : p.size ≠ 0 := size_ne_zero_of_wantSize (c := c) (t := t) (by simpa using hw0)
  have hord : p.number ∈ orderedStarts tr t.parts :=
    List.mem_map_of_mem (mem_sourceOrder hcons hvis hp h0)
  unfold placeOrder
  split
  · exact hord
  · have hmem : p.number ∈ t.numbers := List.mem_map_of_mem hp
    exact List.mem_filter.mpr ⟨(tr .place).2.mem_iff.mpr hmem, decide_eq_true hord⟩

/-- With `sorted_in` set, or with one partition, the visits do not depend on the traversal. -/
lemma visited_unique (hcons : Consistent c.diskSize t.parts) (hvis : ContainerVisible t)
    (tr' : Traversal t.numbers)
    (h : sortsIn c t = true ∨ ((wanted c t).filter Part.present).length ≤ 1) :
    (visited c t tr).filter Part.present = (visited c t tr').filter Part.present := by
  have hperm := (visited_perm tr hcons hvis).trans (visited_perm tr' hcons hvis).symm
  rcases h with hs | hlen
  · have hsorted : ∀ tr, ((visited c t tr).filter Part.present).Pairwise StartsBefore := by
      intro tr
      rw [visited_of_sorted hs]
      exact ((List.pairwise_insertionSort StartsBefore _).map (wantPart c t) fun _ _ h => h).filter
        _
    refine hperm.eq_of_pairwise (fun a b ha hb hab hba => ?_) (hsorted tr) (hsorted tr')
    -- two partitions that are not empty and have the same start are the same
    obtain ⟨ha, ha0⟩ := List.mem_filter.mp ((visited_perm tr hcons hvis).mem_iff.mp ha)
    obtain ⟨hb, hb0⟩ := List.mem_filter.mp ((visited_perm tr' hcons hvis).mem_iff.mp hb)
    obtain ⟨p, hp, rfl⟩ := List.mem_map.mp ha
    obtain ⟨q, hq, rfl⟩ := List.mem_map.mp hb
    by_contra hne
    refine start_ne hcons hvis hp hq (fun hn => hne ?_) ?_ (le_antisymm hab hba)
    · rw [eq_of_number t.nodup_numbers hp hq hn]
    · exact size_ne_zero_of_wantSize (c := c) (t := t) (by simpa using hb0)
  · have hl := (visited_perm tr hcons hvis).length_eq
    match h1 : (visited c t tr).filter Part.present, hl with
    | [], _ =>
      rw [h1] at hperm
      exact hperm.nil_eq
    | [a], _ =>
      rw [h1] at hperm
      exact hperm.singleton_eq
    | a :: b :: l, hl =>
      simp only [List.length_cons] at hl
      omega

end Visits

end Pxeos.Sfdisk
