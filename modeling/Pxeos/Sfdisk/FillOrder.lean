import Pxeos.Sfdisk.Visits
import Pxeos.Sfdisk.FillSizes

/-!
# The order of the loops

When `fill_disk` gives the same result for every order in which its loops visit the partitions, and
keeps the order of the starts.  Three loops depend on the order: the check of the container, which
knows its bounds only after the first logical partition; `partition_starts`, where the last visited
of two partitions with one start stays; and the placement loop itself, when no partition has caused
`PROCINFO["sorted_in"]` to be set.
-/

namespace Pxeos.Sfdisk

open Pxeos.Lib

/-! ### Empty partitions do not matter -/

section Filter

variable {minStart : ℕ} {label : Label}

lemma plan_filter : ∀ (ps : List Part) (curr : ℤ) (k : ℕ),
    (plan minStart label curr k ps).filter Part.present =
      plan minStart label curr k (ps.filter Part.present)
  | [], _, _ => rfl
  | p :: ps, curr, k => by
    by_cases h0 : p.size = 0
    · have hp : p.present = false := by simp [Part.present, h0]
      rw [List.filter_cons_of_neg (by simp [hp]), ← plan_filter ps curr k]
      conv_lhs => unfold plan
      rw [if_pos h0, List.filter_cons_of_neg (by simp [hp])]
    · have hp : ∀ a, ({ p with start := a } : Part).present = true :=
        fun a => by simp [Part.present, h0]
      rw [List.filter_cons_of_pos (hp p.start)]
      unfold plan
      rw [if_neg h0, if_neg h0]
      split
      · rw [List.filter_cons_of_pos (hp _), plan_filter]
      · dsimp only
        rw [List.filter_cons_of_pos (hp _), plan_filter]

/-- The plan leaves empty partitions as they are. -/
lemma mem_of_mem_plan_of_size_eq_zero {q : Part} (h0 : q.size = 0) :
    ∀ {ps : List Part} {curr : ℤ} {k : ℕ},
    q ∈ plan minStart label curr k ps → q ∈ ps
  | p :: ps, curr, k, hq => by
    unfold plan at hq
    split at hq
    · rcases List.mem_cons.mp hq with rfl | hq
      · exact List.mem_cons_self
      · exact List.mem_cons_of_mem _ (mem_of_mem_plan_of_size_eq_zero h0 hq)
    next hp =>
      split at hq
      · rcases List.mem_cons.mp hq with rfl | hq
        · exact absurd h0 hp
        · exact List.mem_cons_of_mem _ (mem_of_mem_plan_of_size_eq_zero h0 hq)
      · rcases List.mem_cons.mp hq with rfl | hq
        · exact absurd h0 hp
        · exact List.mem_cons_of_mem _ (mem_of_mem_plan_of_size_eq_zero h0 hq)

lemma lastContainer_filter : ∀ (ps : List Part) (o : Option ℕ),
    lastContainer label o (ps.filter Part.present) = lastContainer label o ps
  | [], _ => rfl
  | p :: ps, o => by
    by_cases h0 : p.size = 0
    · rw [List.filter_cons_of_neg (by simp [Part.present, h0]), lastContainer_filter]
      conv_rhs => unfold lastContainer
      rw [if_neg (by simp [h0])]
    · rw [List.filter_cons_of_pos (by simp [Part.present, h0])]
      unfold lastContainer
      exact lastContainer_filter ps _

lemma all_fits_filter (sectorSize : ℕ) (e : ℤ) (qs : List Part) :
    (qs.filter Part.present).all (fits sectorSize label e) = qs.all (fits sectorSize label e) := by
  rw [Bool.eq_iff_iff, List.all_eq_true, List.all_eq_true]
  refine ⟨fun h q hq => ?_, fun h q hq => h q (List.mem_filter.mp hq).1⟩
  by_cases hp : q.present = true
  · exact h q (List.mem_filter.mpr ⟨hq, hp⟩)
  · simp [fits, Part.isData, hp]

end Filter

section Moved

variable {c : Settings} {t : Table} {tr : Traversal t.numbers}

/-- The table after the placement loop depends only on the partitions that are not empty. -/
lemma moved_eq : moved c t tr =
    overwrite
      (((planned c t tr).filter Part.present).map (clamp c.sectorSize t.label (diskEnd c t)))
        (wanted c t) := by
  unfold moved overwrite
  refine List.map_congr_left fun w hw => ?_
  set f := clamp c.sectorSize t.label (diskEnd c t) with hf
  have hnum : ∀ qs : List Part, (qs.map f).map (·.number) = qs.map (·.number) := fun qs => by
    rw [List.map_map]
    exact List.map_congr_left fun q _ => clamp_number _ _ _ q
  have hnodup : (((planned c t tr).map f).map (·.number)).Nodup := by
    rw [hnum]
    exact planned_nodup
  have hnodup' : ((((planned c t tr).filter Part.present).map f).map (·.number)).Nodup := by
    rw [hnum]
    exact ((List.filter_sublist).map _).nodup planned_nodup
  have hnone : ∀ qs : List Part, (∀ q ∈ qs, q.number ≠ w.number) →
      (qs.map f).find? (fun q => q.number == w.number) = none := by
    intro qs h
    rw [List.find?_eq_none]
    intro q hq
    obtain ⟨r, hr, rfl⟩ := List.mem_map.mp hq
    rw [hf, clamp_number]
    simpa using h r hr
  have hsome : ∀ qs : List Part, ((qs.map f).map (·.number)).Nodup → ∀ r ∈ qs, r.number = w.number →
      (qs.map f).find? (fun q => q.number == w.number) = some (f r) := by
    intro qs hn r hr he
    have := find?_number hn (List.mem_map_of_mem (f := f) hr)
    rwa [hf, clamp_number, he] at this
  by_cases hex : ∃ r ∈ planned c t tr, r.number = w.number
  · obtain ⟨r, hr, he⟩ := hex
    rw [hsome _ hnodup r hr he]
    by_cases hp : r.present = true
    · rw [hsome _ hnodup' r (List.mem_filter.mpr ⟨hr, hp⟩) he]
    · -- an empty record is written back as it was
      have h0 : r.size = 0 := by simpa using hp
      rw [hnone]
      · have hrw : r ∈ wanted c t :=
          ((mem_visit (wanted_nodup c t)).mp (mem_of_mem_plan_of_size_eq_zero h0 hr)).1
        obtain rfl := eq_of_number (wanted_nodup c t) hrw hw he
        have hd : r.isData t.label = false := by simp [Part.isData, hp]
        simp [hf, clamp, hd]
      · intro q hq hqn
        obtain ⟨hq, hqp⟩ := List.mem_filter.mp hq
        obtain rfl := eq_of_number planned_nodup hq hr (hqn.trans he.symm)
        exact hp hqp
  · have hno : ∀ r ∈ planned c t tr, r.number ≠ w.number := fun r hr he => hex ⟨r, hr, he⟩
    rw [hnone _ hno, hnone _ fun r hr => hno r (List.mem_filter.mp hr).1]

end Moved

/-! ### The check of the container -/

/-- What `validate_mbr_ebr_layout` accepts when it does not look at primary partitions. -/
structure EbrSound (t : Table) : Prop where
  number : ∀ x ∈ t.parts, isExtendedType x.type = true → 1 ≤ x.number ∧ x.number ≤ 4
  one : (t.parts.filter fun x => isExtendedType x.type).length ≤ 1
  inside : ∀ p ∈ t.parts, 4 < p.number → ∃ x ∈ t.parts, isExtendedType x.type = true ∧
    LogicalInside x p

/-- When there are logical partitions, no primary partition meets the container. -/
def PrimariesApart (t : Table) : Prop :=
  t.label ≠ .gpt → (∃ l ∈ t.parts, 4 < l.number) → ∀ x ∈ t.parts, isExtendedType x.type = true →
    ∀ p ∈ t.parts, p.number ≤ 4 → p.number ≠ x.number → ¬ MeetsContainer x p

section Ebr

variable {t : Table} {tr : Traversal t.numbers}

lemma ebrExts_perm : (ebrExts tr t.parts).Perm (t.parts.filter fun x => isExtendedType x.type) :=
  (walk_parts_perm t tr false .ebrTypes).filter _

lemma mem_ebrExts {x : Part} :
    x ∈ ebrExts tr t.parts ↔ x ∈ t.parts ∧ isExtendedType x.type = true := by
  rw [ebrExts_perm.mem_iff, List.mem_filter]

/-- The container the first loop finds. -/
lemma getLast?_ebrExts (h : EbrSound t) {x : Part} (hx : x ∈ t.parts)
    (he : isExtendedType x.type = true) :
    (ebrExts tr t.parts).getLast? = some x := by
  have hlen : (ebrExts tr t.parts).length ≤ 1 := ebrExts_perm.length_eq ▸ h.one
  obtain ⟨y, hy⟩ :=
    List.length_eq_one_iff.mp (le_antisymm hlen (List.length_pos_of_mem (mem_ebrExts.mpr ⟨hx, he⟩)))
  have hxy : x ∈ [y] := hy ▸ mem_ebrExts.mpr ⟨hx, he⟩
  rw [hy, List.mem_singleton.mp hxy]
  rfl

/-- Whatever the order, an accepted table has one container at most, and its logical partitions lie
inside it. -/
theorem ebrSound (hl : t.label ≠ .gpt) (h : validateMbrEbrLayout tr t.label t.parts = true) :
    EbrSound t := by
  obtain ⟨h1, h2, h3⟩ := (validateMbrEbrLayout_iff tr hl t.parts).mp h
  refine ⟨fun x hx he => h1 x (mem_ebrExts.mpr ⟨hx, he⟩), ebrExts_perm.length_eq ▸ h2,
    fun p hp hn => ?_⟩
  obtain ⟨x, hx, hin⟩ := ebr_logical hn h3 ((walk_parts_perm t tr false .ebrExtents).mem_iff.mpr hp)
  obtain ⟨hx, he⟩ := mem_ebrExts.mp (List.mem_of_getLast? hx)
  exact ⟨x, hx, he, hin⟩

/-- With the primary partitions apart the verdict does not depend on the order. -/
lemma validate_iff (hl : t.label ≠ .gpt) (ha : PrimariesApart t) :
    validateMbrEbrLayout tr t.label t.parts = true ↔ EbrSound t := by
  refine ⟨ebrSound hl, fun h => (validateMbrEbrLayout_iff tr hl t.parts).mpr ⟨?_, ?_, ?_⟩⟩
  · exact fun p hp => h.number p (mem_ebrExts.mp hp).1 (mem_ebrExts.mp hp).2
  · exact ebrExts_perm.length_eq ▸ h.one
  · have hmem : ∀ p, p ∈ walk tr false .ebrExtents t.parts ↔ p ∈ t.parts := fun p =>
      (walk_parts_perm t tr false .ebrExtents).mem_iff
    have hlast : ∀ x ∈ t.parts, isExtendedType x.type = true →
        (ebrExts tr t.parts).getLast? = some x :=
      fun x hx he => getLast?_ebrExts h hx he
    refine ebr_isSome (.inl rfl) (fun p hp => (t.nonneg p ((hmem p).mp hp)).1) ?_ ?_
    · intro p hp hn
      obtain ⟨x, hx, he, hin⟩ := h.inside p ((hmem p).mp hp) hn
      exact ⟨x, hlast x hx he, hin⟩
    · by_cases hex : ∃ l ∈ t.parts, 4 < l.number
      · refine .inr fun p hp hn x hx hne => ?_
        obtain ⟨hx, he⟩ := mem_ebrExts.mp (List.mem_of_getLast? hx)
        exact ha hl hex x hx he p ((hmem p).mp hp) hn hne
      · exact .inl ⟨rfl, fun p hp => not_lt.mp fun hn => hex ⟨p, (hmem p).mp hp, hn⟩⟩

lemma validate_congr (ha : PrimariesApart t) (tr' : Traversal t.numbers) :
    validateMbrEbrLayout tr t.label t.parts = validateMbrEbrLayout tr' t.label t.parts := by
  by_cases hl : t.label = .gpt
  · simp [validateMbrEbrLayout, hl]
  · rw [Bool.eq_iff_iff, validate_iff hl ha, validate_iff hl ha]

end Ebr

/-! ### The whole function -/

/-- **Tables on which the order of the loops does not matter.**  Some partition that is neither
fixed nor the container makes the script sort its loops, or there is one partition at most; no empty
partition starts where the container does; and no primary partition meets a container with logical
partitions. -/
structure OrderSafe (c : Settings) (t : Table) : Prop where
  sorted : sortsIn c t = true ∨ (t.parts.filter Part.present).length ≤ 1
  visible : ContainerVisible t
  apart : PrimariesApart t

/-- **Tables on which the script ends before the order matters.**  One of the first checks fails in
every order; or their verdict does not depend on the order, and the scaling loop divides by zero. -/
def EndsEarly (c : Settings) (t : Table) : Prop :=
  (∀ tr : Traversal t.numbers, (validateMbrEbrLayout tr t.label t.parts &&
    checkAllPartitions tr false .check .overlap c.diskSize t.parts) = false) ∨
      PrimariesApart t ∧ ¬ Scales c t

section Main

variable {c : Settings} {t : Table} {tr : Traversal t.numbers}

/-- The table before the last check. -/
def filled (c : Settings) (t : Table) (tr : Traversal t.numbers) : List Part :=
  resizeContainer tr (sortsIn c t) (extName c t tr) (moved c t tr)

lemma filled_numbers : (filled c t tr).map (·.number) = t.numbers := by
  unfold filled
  rw [resizeContainer_numbers]
  exact (overwrite_numbers _ _).trans (wanted_numbers c t)

/-- The function after its first checks and the scaling loop. -/
lemma fillDisk_eq (hv : validateMbrEbrLayout tr t.label t.parts = true)
    (hc : checkAllPartitions tr false .check .overlap c.diskSize t.parts = true)
    (hm : t.parts.mapM (scalePart c t.label (sizes c t tr)) = .ok (wanted c t)) :
    fillDisk c t tr =
      if (planned c t tr).all (fits c.sectorSize t.label (diskEnd c t)) then
        if checkAllPartitions tr (sortsIn c t) .checkAgain .overlapAgain c.diskSize
          (filled c t tr) then
          .ok ⟨filled c t tr, if t.firstlba ≠ 0 then diskEnd c t else t.lastlba⟩
        else .error .rejected
      else .error .rejected := by
  obtain ⟨s', hext, heq⟩ :=
    placeParts_eq c t.label (diskEnd c t) (visited c t tr) (initialCursor c) (.inr le_rfl)
  have hplaced : placeParts c t.label (diskEnd c t) (initialCursor c)
      (visit (placeOrder tr (sortsIn c t) (orderedStarts tr t.parts)) (wanted c t)) =
        if (planned c t tr).all (fits c.sectorSize t.label (diskEnd c t)) then
          .ok (s', (planned c t tr).map (clamp c.sectorSize t.label (diskEnd c t)))
        else .error .rejected := heq
  have hname : s'.extName = extName c t tr := hext
  have herr : ∀ b : Bool, errorIf b FillError.rejected = if b then .error .rejected else .ok () :=
    fun _ => rfl
  simp only [fillDisk, hv, hc, hm, sortedIn_sizes, hplaced, herr, Bool.not_true, Bool.false_eq_true,
    if_false, ok_bind]
  cases (planned c t tr).all (fits c.sectorSize t.label (diskEnd c t)) with
  | false => rfl
  | true =>
    simp only [if_true, ok_bind, hname]
    change (if !checkAllPartitions tr (sortsIn c t) .checkAgain .overlapAgain c.diskSize
      (filled c t tr) then
      .error .rejected else .ok () : Except FillError Unit) >>= _ = _
    cases checkAllPartitions tr (sortsIn c t) .checkAgain .overlapAgain c.diskSize
      (filled c t tr) <;> rfl

/-- The function rejects a table that fails one of the first checks. -/
lemma fillDisk_rejected (h : (validateMbrEbrLayout tr t.label t.parts &&
    checkAllPartitions tr false .check .overlap c.diskSize t.parts) = false) :
    fillDisk c t tr = .error .rejected := by
  unfold fillDisk
  cases hv : validateMbrEbrLayout tr t.label t.parts with
  | false => rfl
  | true =>
    rw [hv, Bool.true_and] at h
    rw [h]
    rfl

lemma fillDisk_scale_error (hv : validateMbrEbrLayout tr t.label t.parts = true)
    (hc : checkAllPartitions tr false .check .overlap c.diskSize t.parts = true) {e : FillError}
    (hm : t.parts.mapM (scalePart c t.label (sizes c t tr)) = .error e) :
    fillDisk c t tr = .error e := by
  have herr : ∀ b : Bool, errorIf b FillError.rejected = if b then .error .rejected else .ok () :=
    fun _ => rfl
  simp only [fillDisk, hv, hc, hm, herr, Bool.not_true, Bool.false_eq_true, if_false, ok_bind]
  rfl

/-- A table on which the script ends early is treated the same in every order, and not filled. -/
lemma EndsEarly.fillDisk_congr (h : EndsEarly c t) (tr' : Traversal t.numbers) :
    fillDisk c t tr = fillDisk c t tr' ∧ ∀ out, fillDisk c t tr ≠ .ok out := by
  rcases h with hfirst | ⟨hapart, hscales⟩
  · rw [fillDisk_rejected (hfirst tr), fillDisk_rejected (hfirst tr')]
    exact ⟨rfl, fun out h => by cases h⟩
  have hvv : validateMbrEbrLayout tr t.label t.parts = validateMbrEbrLayout tr' t.label t.parts :=
    validate_congr hapart tr'
  have hcheck : ∀ tr : Traversal t.numbers,
      checkAllPartitions tr false .check .overlap c.diskSize t.parts = true ↔
        Consistent c.diskSize t.parts :=
    fun tr => checkAllPartitions_iff t.nodup_numbers tr false _ _ _ rfl
  have hcc : checkAllPartitions tr false .check .overlap c.diskSize t.parts =
      checkAllPartitions tr' false .check .overlap c.diskSize t.parts := by
    rw [Bool.eq_iff_iff, hcheck, hcheck]
  cases hfirst : validateMbrEbrLayout tr t.label t.parts &&
      checkAllPartitions tr false .check .overlap c.diskSize t.parts with
  | false =>
    rw [fillDisk_rejected hfirst, fillDisk_rejected (by rw [← hvv, ← hcc]; exact hfirst)]
    exact ⟨rfl, fun out h => by cases h⟩
  | true =>
    obtain ⟨hv, hc⟩ := (Bool.and_eq_true _ _).mp hfirst
    have hmm : t.parts.mapM (scalePart c t.label (sizes c t tr)) =
        t.parts.mapM (scalePart c t.label (sizes c t tr')) :=
      mapM_scalePart_congr tr'
    cases hm : t.parts.mapM (scalePart c t.label (sizes c t tr)) with
    | error e =>
      rw [fillDisk_scale_error hv hc hm, fillDisk_scale_error (hvv ▸ hv) (hcc ▸ hc) (hmm ▸ hm)]
      exact ⟨rfl, fun out h => by cases h⟩
    | ok scaled => exact absurd (mapM_scalePart (fun _ hp => hp) hm).2 hscales

/-- The scaling loop does not make partitions out of empty ones. -/
lemma wanted_present_length :
    ((wanted c t).filter Part.present).length ≤ (t.parts.filter Part.present).length := by
  unfold wanted
  rw [List.filter_map, List.length_map]
  refine (List.monotone_filter_right t.parts fun p hp => ?_).length_le
  have : wantSize c t p ≠ 0 := by simpa using hp
  simpa using size_ne_zero_of_wantSize this

/-- Without logical partitions the container keeps its size. -/
lemma foldl_containerStep {a : ℤ} : ∀ {ps : List Part} (b : ℤ), (∀ p ∈ ps, p.number ≤ 4) →
    ps.foldl (containerStep a) b = b
  | [], _, _ => rfl
  | p :: ps, b, h => by
    have hp := h p List.mem_cons_self
    have hstep : containerStep a b p = b := by
      unfold containerStep
      rw [if_neg (by omega)]
    rw [List.foldl_cons, hstep]
    exact foldl_containerStep b fun q hq => h q (List.mem_cons_of_mem p hq)

section Safe

variable (hs : OrderSafe c t) (hcons : Consistent c.diskSize t.parts) (tr' : Traversal t.numbers)

include hs in
/-- Without sorted loops a container has no logical partition. -/
lemma number_le_of_unsorted (hv : validateMbrEbrLayout tr t.label t.parts = true)
    (hsort : sortsIn c t = false) {n : ℕ} (hext : extName c t tr = some n) :
    ∀ p ∈ t.parts, p.number ≤ 4 := by
  intro p hp
  by_contra hn
  obtain h | ⟨w, hw, -, hw0, hwc⟩ := lastContainer_some hext
  · cases h
  obtain ⟨hw, -⟩ := (mem_visit (wanted_nodup c t)).mp hw
  obtain ⟨x, hx, rfl⟩ := List.mem_map.mp hw
  have hwc : x.isContainer t.label = true := hwc
  simp only [Part.isContainer, Bool.and_eq_true, bne_iff_ne] at hwc
  have hsound := ebrSound hwc.1 hv
  obtain ⟨y, -, -, hin⟩ := hsound.inside p hp (by omega)
  have hlen : (t.parts.filter Part.present).length ≤ 1 :=
    hs.sorted.resolve_left (by rw [hsort]; exact Bool.false_ne_true)
  have hx0 : x ∈ t.parts.filter Part.present :=
    List.mem_filter.mpr ⟨hx, by simpa using size_ne_zero_of_wantSize (c := c) (t := t) hw0⟩
  have hp0 : p ∈ t.parts.filter Part.present :=
    List.mem_filter.mpr ⟨hp, by simpa using ne_of_gt hin.1⟩
  obtain ⟨a, ha⟩ := List.length_eq_one_iff.mp (le_antisymm hlen (List.length_pos_of_mem hx0))
  rw [ha, List.mem_singleton] at hx0 hp0
  have := (hsound.number x hx hwc.2).2
  rw [hx0, ← hp0] at this
  exact hn this

include hs hcons

lemma visited_congr :
    (visited c t tr).filter Part.present = (visited c t tr').filter Part.present :=
  visited_unique hcons hs.visible tr' (hs.sorted.imp id fun h => wanted_present_length.trans h)

lemma planned_congr :
    (planned c t tr).filter Part.present = (planned c t tr').filter Part.present := by
  unfold planned
  rw [plan_filter, plan_filter, visited_congr hs hcons]

lemma moved_congr : moved c t tr = moved c t tr' := by
  rw [moved_eq, moved_eq, planned_congr hs hcons]

lemma extName_congr : extName c t tr = extName c t tr' := by
  unfold extName
  rw [← lastContainer_filter, ← lastContainer_filter (visited c t tr'), visited_congr hs hcons]

lemma filled_congr (hv : validateMbrEbrLayout tr t.label t.parts = true) :
    filled c t tr = filled c t tr' := by
  unfold filled
  rw [← moved_congr hs hcons tr', ← extName_congr hs hcons tr']
  cases hsort : sortsIn c t with
  | true => rfl
  | false =>
    unfold resizeContainer
    cases hext : extName c t tr with
    | none => rfl
    | some n =>
      have hle := number_le_of_unsorted hs hv hsort hext
      have hmoved : (moved c t tr).map (·.number) = t.numbers :=
        (overwrite_numbers _ _).trans (wanted_numbers c t)
      have hfold : ∀ (tr : Traversal t.numbers) (a b : ℤ) (ps : List Part),
          ps.map (·.number) = t.numbers →
          (walk tr false .container ps).foldl (containerStep a) b = b := by
        intro tr a b ps hps
        refine foldl_containerStep b fun p hp => ?_
        have hmem : p.number ∈ t.numbers := by
          rw [← hps]
          exact List.mem_map_of_mem
            ((walk_perm t.nodup_numbers tr false .container hps).mem_iff.mp hp)
        obtain ⟨q, hq, hn⟩ := List.mem_map.mp hmem
        exact hn ▸ hle q hq
      refine List.map_congr_left fun x hx => ?_
      rw [hfold tr _ _ _ hmoved, hfold tr' _ _ _ hmoved]

omit hcons in
/-- The order of the loops does not matter on a safe table. -/
lemma fillDisk_congr : fillDisk c t tr = fillDisk c t tr' := by
  have hcheck : ∀ tr : Traversal t.numbers,
      checkAllPartitions tr false .check .overlap c.diskSize t.parts = true ↔
        Consistent c.diskSize t.parts :=
    fun tr => checkAllPartitions_iff t.nodup_numbers tr false _ _ _ rfl
  have hvv : validateMbrEbrLayout tr t.label t.parts = validateMbrEbrLayout tr' t.label t.parts :=
    validate_congr hs.apart tr'
  by_cases hv : validateMbrEbrLayout tr t.label t.parts = true
  · by_cases hcons : Consistent c.diskSize t.parts
    · have hc := (hcheck tr).mpr hcons
      have hc' := (hcheck tr').mpr hcons
      have hmm : t.parts.mapM (scalePart c t.label (sizes c t tr)) =
          t.parts.mapM (scalePart c t.label (sizes c t tr')) :=
        mapM_scalePart_congr tr'
      cases hm : t.parts.mapM (scalePart c t.label (sizes c t tr)) with
      | error e =>
        rw [fillDisk_scale_error hv hc hm, fillDisk_scale_error (hvv ▸ hv) hc' (hmm ▸ hm)]
      | ok scaled =>
        obtain ⟨rfl, -⟩ := mapM_scalePart (fun _ hp => hp) hm
        have hfinal : ∀ tr : Traversal t.numbers,
            checkAllPartitions tr (sortsIn c t) .checkAgain .overlapAgain c.diskSize
            (filled c t tr) = true ↔ Consistent c.diskSize (filled c t tr) :=
          fun tr => checkAllPartitions_iff t.nodup_numbers tr _ _ _ _ filled_numbers
        have hcc : checkAllPartitions tr (sortsIn c t) .checkAgain .overlapAgain c.diskSize
            (filled c t tr) =
            checkAllPartitions tr' (sortsIn c t) .checkAgain .overlapAgain c.diskSize
              (filled c t tr') := by
          rw [Bool.eq_iff_iff, hfinal, hfinal, filled_congr hs hcons tr' hv]
        rw [fillDisk_eq hv hc hm, fillDisk_eq (hvv ▸ hv) hc' (hmm ▸ hm), hcc,
          filled_congr hs hcons tr' hv,
          ← all_fits_filter, ← all_fits_filter _ _ (planned c t tr'), planned_congr hs hcons tr']
    · have hc : ∀ tr : Traversal t.numbers,
        checkAllPartitions tr false .check .overlap c.diskSize t.parts = false :=
        fun tr => by rw [← Bool.not_eq_true, hcheck]; exact hcons
      rw [fillDisk_rejected (by rw [hc, Bool.and_false]),
        fillDisk_rejected (by rw [hc, Bool.and_false])]
  · rw [Bool.not_eq_true] at hv
    rw [fillDisk_rejected (by rw [hv, Bool.false_and]),
      fillDisk_rejected (by rw [← hvv, hv, Bool.false_and])]

end Safe

end Main

/-! ### The order of the starts -/

/-- The partitions that are not empty after the fill keep the order of their starts. -/
def OrderKept (t : Table) (out : Filled) : Prop :=
  ∀ p ∈ t.parts, ∀ q ∈ t.parts, p.isContainer t.label = false → q.isContainer t.label = false →
    p.start < q.start →
    ∀ p' ∈ out.parts, ∀ q' ∈ out.parts, p'.number = p.number → q'.number = q.number →
      p'.size ≠ 0 → q'.size ≠ 0 →
      p'.start < q'.start

section OrderKept

variable {c : Settings} {t : Table} {tr : Traversal t.numbers}

/-- The planned record of a partition that is not empty after the fill. -/
lemma FillRun.planned_of_present {out : Filled} (run : FillRun c t tr out)
    (hvis : ContainerVisible t) {p p' : Part} (hp : p ∈ t.parts)
    (hc : p.isContainer t.label = false) (hp' : p' ∈ out.parts) (hn : p'.number = p.number)
    (h0 : p'.size ≠ 0) :
    ∃ r ∈ (planned c t tr).filter Part.present, r.number = p.number ∧ p'.start = r.start := by
  rcases run.record hp' hp hn hc with ⟨r, hr, hrn, rfl⟩ | ⟨hno, rfl⟩
  · refine ⟨r, List.mem_filter.mpr ⟨hr, ?_⟩, hrn, clamp_start _ _ _ r⟩
    rw [Part.present_iff]
    intro hr0
    have hd : r.isData t.label = false := by simp [Part.isData, Part.present, hr0]
    simp [clamp, hd, hr0] at h0
  · -- a partition that is not empty is visited
    have hw : wantPart c t p ∈ (visited c t tr).filter Part.present :=
      (visited_perm tr run.source hvis).mem_iff.mpr
        (List.mem_filter.mpr ⟨List.mem_map_of_mem hp, by simpa using h0⟩)
    have hnum : p.number ∈ (planned c t tr).map (·.number) := by
      unfold planned
      rw [plan_numbers]
      exact List.mem_map.mpr ⟨_, (List.mem_filter.mp hw).1, rfl⟩
    obtain ⟨r, hr, hrn⟩ := List.mem_map.mp hnum
    exact absurd hrn (hno r hr)

variable (tr) in
/-- With sorted loops the plan follows the starts of the source. -/
lemma planned_sorted (hsort : sortsIn c t = true) :
    (planned c t tr).Pairwise fun a b =>
      ∀ p ∈ t.parts, ∀ q ∈ t.parts, p.number = a.number → q.number = b.number →
        p.start ≤ q.start := by
  have hsrc : (sourceOrder t tr).Pairwise StartsBefore := List.pairwise_insertionSort StartsBefore _
  have hnum : ((sourceOrder t tr).map (·.number)).Pairwise fun m n =>
      ∀ p ∈ t.parts, ∀ q ∈ t.parts, p.number = m → q.number = n → p.start ≤ q.start := by
    rw [List.pairwise_map]
    refine hsrc.imp_of_mem fun {a b} ha hb hab p hp q hq hpa hqb => ?_
    rw [eq_of_number t.nodup_numbers hp (sourceOrder_subset ha) hpa,
      eq_of_number t.nodup_numbers hq (sourceOrder_subset hb) hqb]
    exact hab
  have hplan : (planned c t tr).map (·.number) = (sourceOrder t tr).map (·.number) := by
    unfold planned
    rw [plan_numbers, visited_of_sorted hsort, List.map_map]
    rfl
  rw [← hplan, List.pairwise_map] at hnum
  exact hnum

lemma visited_nonneg {p : Part} (hp : p ∈ visited c t tr) : 0 ≤ p.size := by
  obtain ⟨hp, -⟩ := (mem_visit (wanted_nodup c t)).mp hp
  obtain ⟨q, hq, rfl⟩ := List.mem_map.mp hp
  exact wantSize_nonneg hq

lemma planned_nonneg {q : Part} (hq : q ∈ planned c t tr) : 0 ≤ q.size := by
  obtain ⟨w, hw, he⟩ := mem_plan hq
  have := visited_nonneg hw
  rw [he]
  exact this

variable (c t tr) in
/-- The planned records lie one after another. -/
lemma planned_pairwise : ((planned c t tr).filter Part.present).Pairwise fun a b =>
    slotHi t.label a ≤ slotLo c.minStart t.label b := by
  obtain ⟨d, hd⟩ := plan_packed c.minStart t.label (visited c t tr) c.minStart 0
    fun p hp => visited_nonneg hp
  exact hd.pairwise

lemma FillRun.orderKept {out : Filled} (run : FillRun c t tr out) (hs : OrderSafe c t) :
    OrderKept t out := by
  intro p hp q hq hpc hqc hlt p' hp' q' hq' hpn hqn hp0 hq0
  obtain ⟨a, ha, han, has⟩ := run.planned_of_present hs.visible hp hpc hp' hpn hp0
  obtain ⟨b, hb, hbn, hbs⟩ := run.planned_of_present hs.visible hq hqc hq' hqn hq0
  rcases hs.sorted with hsort | hlen
  · have hne : a ≠ b := by
      rintro rfl
      rw [eq_of_number t.nodup_numbers hp hq (han.symm.trans hbn)] at hlt
      exact lt_irrefl _ hlt
    have hac : a.isContainer t.label = false := by
      rw [planned_record (List.mem_filter.mp ha).1 hp han]; exact hpc
    have hbc : b.isContainer t.label = false := by
      rw [planned_record (List.mem_filter.mp hb).1 hq hbn]; exact hqc
    have hpw := (planned_pairwise c t tr).and ((planned_sorted tr hsort).filter Part.present)
    rcases or_of_pairwise hpw ha hb hne with ⟨h, -⟩ | ⟨-, h⟩
    · rw [slotHi_data hac, slotLo_data hbc, Part.stop] at h
      have ha0 : 0 < a.size := by
        obtain ⟨ham, hap⟩ := List.mem_filter.mp ha
        have hap : a.size ≠ 0 := by simpa using hap
        have := planned_nonneg ham
        omega
      omega
    · have := h q hq p hp hbn.symm han.symm
      omega
  · -- there is only one partition
    have hpres : ∀ {r : Part}, r ∈ (planned c t tr).filter Part.present →
        ∀ {s : Part}, s ∈ t.parts →
        r.number = s.number → s ∈ t.parts.filter Part.present := by
      intro r hr s hs' hn
      obtain ⟨hrm, hrp⟩ := List.mem_filter.mp hr
      refine List.mem_filter.mpr ⟨hs', ?_⟩
      rw [planned_record hrm hs' hn] at hrp
      have h0 : wantSize c t s ≠ 0 := by simpa using hrp
      simpa using size_ne_zero_of_wantSize h0
    have hp1 := hpres ha hp han
    have hq1 := hpres hb hq hbn
    obtain ⟨x, hx⟩ := List.length_eq_one_iff.mp (le_antisymm hlen (List.length_pos_of_mem hp1))
    rw [hx, List.mem_singleton] at hp1 hq1
    rw [hp1, hq1] at hlt
    exact absurd hlt (lt_irrefl _)

end OrderKept

/-- The verdict and the table are the same for every order of the loops, and the starts keep their
order. -/
def OrderIndependent (c : Settings) (t : Table) : Prop :=
  (∀ tr tr', fillDisk c t tr = fillDisk c t tr') ∧ ∀ tr out, fillDisk c t tr = .ok out →
    OrderKept t out

/-- **When the order of the loops does not matter.** -/
theorem fillDisk_orderIndependent (c : Settings) (t : Table) (h : EndsEarly c t ∨ OrderSafe c t) :
    OrderIndependent c t := by
  rcases h with hearly | hs
  · exact ⟨fun _ tr' => (hearly.fillDisk_congr tr').1,
      fun tr out hout => absurd hout ((hearly.fillDisk_congr tr).2 out)⟩
  · exact ⟨fun _ tr' => fillDisk_congr hs tr', fun _ _ hout => (fillDisk_ok hout).orderKept hs⟩

/-- Two partitions, of 2048 and of 4096 sectors. -/
def twoGpt : Table :=
  ⟨.gpt, 34, 19966, [examplePart 1 2048 2048 2048 "C12A7328-F81F-11D2-BA4B-00A0C93EC93B",
    examplePart 2 4096 4096 4096 "0FC63DAF-8483-4772-8E79-3D69D8477DE4"], by decide, by decide⟩

/-- The traversal whose placement loop runs backwards. -/
def placeBackwards (ns : List ℕ) : Traversal ns := fun l =>
  match l with
  | .place => ⟨ns.reverse, List.reverse_perm ns⟩
  | _ => ⟨ns, List.Perm.refl ns⟩

/-- With both partitions fixed the loops are not sorted, and the placement follows the order of the
visits. -/
theorem twoGpt_order_dependent : ¬ OrderIndependent ⟨20000, 2048, 512, [1, 2]⟩ twoGpt := by
  rintro ⟨h, -⟩
  have := h (byNumber _) (placeBackwards _)
  revert this
  decide +kernel

/-- Two partitions that overlap. -/
def overlappingGpt : Table :=
  ⟨.gpt, 34, 19966, [examplePart 1 2048 4096 4096 "C12A7328-F81F-11D2-BA4B-00A0C93EC93B",
    examplePart 2 4096 4096 4096 "0FC63DAF-8483-4772-8E79-3D69D8477DE4"], by decide, by decide⟩

/-- With the second partition free the loops are sorted; and where partitions overlap, none of them
is reached. -/
theorem twoGpt_free_orderIndependent :
    OrderIndependent ⟨20000, 2048, 512, [1]⟩ twoGpt ∧
      (fillDisk ⟨20000, 2048, 512, [1]⟩ twoGpt (byNumber _)).isOk = true ∧
      OrderIndependent ⟨20000, 2048, 512, [1, 2]⟩ overlappingGpt := by
  refine ⟨fillDisk_orderIndependent _ _ (.inr ⟨.inl (by decide), ?_, fun h => absurd rfl h⟩),
    by decide +kernel,
    fillDisk_orderIndependent _ _ (.inl (Or.inl fun tr => ?_))⟩
  · unfold ContainerVisible
    decide
  · have hcons : ¬ Consistent 20000 overlappingGpt.parts := by
      unfold Consistent
      decide
    rw [Bool.and_eq_false_iff, ← Bool.not_eq_true, ← Bool.not_eq_true]
    exact .inr fun h =>
      hcons ((checkAllPartitions_iff overlappingGpt.nodup_numbers tr false _ _ _ rfl).mp h)

end Pxeos.Sfdisk
