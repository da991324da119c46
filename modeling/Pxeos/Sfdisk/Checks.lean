import Pxeos.Sfdisk.Table

/-!
# The checks of a table

`validate_mbr_ebr_layout` and `check_all_partitions`.  The verdict of the second does not depend on
the order in which its loops run (`checkAllPartitions_iff`); that of the first does, since it knows
the container only after it has met a logical partition.
-/

namespace Pxeos.Sfdisk

/-- `extended_margin`. -/
def extendedMargin : ℤ := 2

/-! ### Overlap -/

/-- One iteration of `check_overlap`: the candidate `q` at its new place against another
partition. -/
def pairOk (diskSize : ℕ) (q : Part) (newStart newSize : ℤ) (p : Part) : Bool :=
  if p.size = 0 then true
  else if newStart < 0 ∨ diskSize < newStart ∨ newStart + newSize < 0 ∨
    diskSize < newStart + newSize then false
  else if isExtendedType p.type then
    if extendedAsInt q.type then false
    else if 4 < q.number then
      decide (p.start + extendedMargin ≤ newStart) && decide (newStart < p.stop) &&
        decide (p.start + extendedMargin < newStart + newSize) &&
          decide (newStart + newSize ≤ p.stop)
    else true
  else if extendedAsInt q.type && decide (4 < p.number) then
    decide (newStart + extendedMargin ≤ p.start) && decide (p.stop ≤ newStart + newSize)
  else if p.start ≤ newStart then decide (p.stop ≤ newStart)
  else true

/-- `check_overlap`; `true` when it returns `0`. -/
def checkOverlap {ns : List ℕ} (tr : Traversal ns) (sorted : Bool) (inner : Loop) (diskSize : ℕ)
    (ps : List Part) (q : Part) (newStart newSize : ℤ) : Bool :=
  (walk tr sorted inner ps).all fun p => p.number == q.number ||
    pairOk diskSize q newStart newSize p

/-- `check_all_partitions`; `true` when it returns `0`. -/
def checkAllPartitions {ns : List ℕ} (tr : Traversal ns) (sorted : Bool) (outer : Loop)
    (inner : ℕ → Loop) (diskSize : ℕ) (ps : List Part) : Bool :=
  (walk tr sorted outer ps).all fun q =>
    checkOverlap tr sorted (inner q.number) diskSize ps q q.start q.size

/-- A table that passes `check_all_partitions`. -/
def Consistent (diskSize : ℕ) (ps : List Part) : Prop :=
  ∀ q ∈ ps, ∀ p ∈ ps, p.number ≠ q.number → pairOk diskSize q q.start q.size p = true

theorem checkAllPartitions_iff {ns : List ℕ} (hns : ns.Nodup) (tr : Traversal ns) (sorted : Bool)
    (outer : Loop) (inner : ℕ → Loop) (diskSize : ℕ) {ps : List Part} (h : ps.map (·.number) = ns) :
    checkAllPartitions tr sorted outer inner diskSize ps = true ↔ Consistent diskSize ps := by
  have hmem : ∀ l p, p ∈ walk tr sorted l ps ↔ p ∈ ps :=
    fun l p => (walk_perm hns tr sorted l h).mem_iff
  unfold checkAllPartitions checkOverlap Consistent
  simp only [List.all_eq_true, Bool.or_eq_true, beq_iff_eq, hmem]
  exact forall₂_congr fun q _ => forall₂_congr fun p _ => or_iff_not_imp_left

/-! ### What consistency gives -/

section Consistent

variable {diskSize : ℕ} {ps : List Part} {p q : Part}

lemma pairOk_bounds {a b : ℤ} (h : pairOk diskSize q a b p = true) (hp : p.size ≠ 0) :
    0 ≤ a ∧ a ≤ diskSize ∧ a + b ≤ diskSize := by
  unfold pairOk at h
  rw [if_neg hp] at h
  split at h
  · cases h
  · omega

/-- The start of the candidate against a partition that is no container. -/
lemma pairOk_start {a b : ℤ} (h : pairOk diskSize q a b p = true) (hp : 0 < p.size)
    (hext : isExtendedType p.type = false) (hle : p.start ≤ a) : p.stop ≤ a := by
  unfold pairOk at h
  rw [if_neg (by omega), hext, if_neg Bool.false_ne_true] at h
  split at h
  · cases h
  split at h
  · rw [Bool.and_eq_true, decide_eq_true_eq, decide_eq_true_eq] at h
    have : extendedMargin = 2 := rfl
    omega
  · exact of_decide_eq_true h

/-- A logical candidate against the container. -/
lemma pairOk_logical {a b : ℤ} (h : pairOk diskSize q a b p = true) (hp : p.size ≠ 0)
    (hext : isExtendedType p.type = true) (hq : 4 < q.number) :
    p.start + 2 ≤ a ∧ p.start + 2 < a + b ∧ a + b ≤ p.stop := by
  unfold pairOk at h
  rw [if_neg hp, if_pos hext] at h
  split at h
  · cases h
  split at h
  · cases h
  · simp only [Bool.and_eq_true, decide_eq_true_eq] at h
    exact ⟨h.1.1.1, h.1.2, h.2⟩

/-- Two partitions that are no containers do not overlap. -/
theorem Consistent.apart (h : Consistent diskSize ps) (hp : p ∈ ps) (hq : q ∈ ps)
    (hn : p.number ≠ q.number) (hps : 0 < p.size) (hqs : 0 < q.size)
    (hpe : isExtendedType p.type = false) (hqe : isExtendedType q.type = false) :
    p.stop ≤ q.start ∨ q.stop ≤ p.start := by
  rcases le_total p.start q.start with hle | hle
  · exact .inl (pairOk_start (h q hq p hp hn) hps hpe hle)
  · exact .inr (pairOk_start (h p hp q hq hn.symm) hqs hqe hle)

end Consistent

/-! ### The extended container -/

/-- A variable that has not been assigned. -/
def unset : ℤ := 0

/-- One iteration of the second loop of `validate_mbr_ebr_layout`.  The bounds of the container are
read when a logical partition is met, and are unset before. -/
def ebrStep (ext : Option Part) (bounds : ℤ × ℤ) (p : Part) : Option (ℤ × ℤ) :=
  if p.number ≤ 4 then
    match ext with
    | some x => if p.number ≠ x.number ∧ p.start < bounds.2 ∧ bounds.1 < p.stop then
      none else some bounds
    | none => some bounds
  else
    match ext with
    | none => none
    | some x =>
      if p.size ≤ 0 ∨ p.start < x.start + 2 ∨ x.stop < p.stop then none else some (x.start, x.stop)

/-- One iteration of the third loop.  It reads the record under the start of a partition instead of
its name, where there is none. -/
def ebrGapStep (prevEnd : ℤ) (_start : ℤ) : Option ℤ :=
  let currentStart := unset
  if 0 < prevEnd ∧ currentStart < prevEnd + 2 then none else some (currentStart + unset)

/-- `validate_mbr_ebr_layout`; `true` when it returns `0`. -/
def validateMbrEbrLayout {ns : List ℕ} (tr : Traversal ns) (label : Label) (ps : List Part) :
    Bool :=
  if label = .gpt then true
  else
    let exts := (walk tr false .ebrTypes ps).filter fun p => isExtendedType p.type
    if exts.any (fun p => decide (p.number < 1) || decide (4 < p.number)) ||
      decide (1 < exts.length) then false
    else
      let visited := walk tr false .ebrExtents ps
      let starts :=
        ((visited.filter fun p => decide (4 < p.number)).map (·.start)).dedup.insertionSort (· ≤ ·)
      ((visited.foldlM (ebrStep exts.getLast?) (unset, unset)).isSome &&
        (starts.foldlM ebrGapStep 0).isSome)

/-- The third loop accepts every list of starts. -/
lemma ebrGaps_isSome (starts : List ℤ) : starts.foldlM ebrGapStep 0 = some 0 := by
  induction starts with
  | nil => rfl
  | cons s starts ih => exact ih

/-- A logical partition inside the container, behind its boot record. -/
def LogicalInside (x p : Part) : Prop := 0 < p.size ∧ x.start + 2 ≤ p.start ∧ p.stop ≤ x.stop

/-- A primary partition against the container, as the second loop tests it. -/
def MeetsContainer (x p : Part) : Prop := p.start < x.stop ∧ x.start < p.stop

/-- The bounds of the second loop: unset, or those of the container. -/
def EbrBounds (ext : Option Part) (b : ℤ × ℤ) : Prop :=
  b = (unset, unset) ∨ ∃ x, ext = some x ∧ b = (x.start, x.stop)

section Ebr

variable {ext : Option Part}

/-- A logical partition passes the second loop when it lies inside the container. -/
lemma ebrStep_logical {b : ℤ × ℤ} {p : Part} (hp : 4 < p.number) :
    (∃ b', ebrStep ext b p = some b') ↔ ∃ x, ext = some x ∧ LogicalInside x p := by
  unfold ebrStep LogicalInside
  rw [if_neg (by omega)]
  cases ext with
  | none => simp
  | some x =>
    by_cases h : p.size ≤ 0 ∨ p.start < x.start + 2 ∨ x.stop < p.stop
    · simp only [h, if_true, Option.some.injEq, exists_eq_left', reduceCtorEq,
        exists_false, false_iff]
      omega
    · simp only [h, if_false, Option.some.injEq, exists_eq', exists_eq_left', true_iff]
      omega

lemma ebrStep_bounds {b b' : ℤ × ℤ} {p : Part} (hb : EbrBounds ext b)
    (h : ebrStep ext b p = some b') :
    EbrBounds ext b' := by
  unfold ebrStep at h
  cases ext with
  | none =>
    split at h
    · obtain rfl := Option.some.inj h
      exact hb
    · cases h
  | some x =>
    split at h
    · dsimp only at h
      split at h
      · cases h
      · obtain rfl := Option.some.inj h
        exact hb
    · dsimp only at h
      split at h
      · cases h
      · obtain rfl := Option.some.inj h
        exact .inr ⟨x, rfl, rfl⟩

/-- A primary partition that does not meet the container passes the second loop. -/
lemma ebrStep_primary {b : ℤ × ℤ} {p : Part} (hb : EbrBounds ext b) (hp : p.number ≤ 4)
    (h0 : 0 ≤ p.start)
    (hm : b = (unset, unset) ∨ ∀ x, ext = some x → p.number ≠ x.number → ¬ MeetsContainer x p) :
    ebrStep ext b p = some b := by
  unfold ebrStep
  rw [if_pos hp]
  cases ext with
  | none => rfl
  | some x =>
    dsimp only
    rw [if_neg]
    rintro ⟨hn, h1, h2⟩
    by_cases hb' : b = (unset, unset)
    · rw [hb'] at h1
      exact absurd h1 (not_lt.mpr h0)
    · obtain h | ⟨y, hy, rfl⟩ := hb
      · exact hb' h
      · obtain rfl := Option.some.inj hy
        exact (hm.resolve_left hb') x rfl hn ⟨h1, h2⟩

/-- The second loop has seen every logical partition inside the container. -/
lemma ebr_logical {p : Part} (hp : 4 < p.number) : ∀ {ps : List Part} {b : ℤ × ℤ},
    (ps.foldlM (ebrStep ext) b).isSome = true → p ∈ ps → ∃ x, ext = some x ∧ LogicalInside x p
  | q :: ps, b, h, hmem => by
    rw [List.foldlM_cons] at h
    cases hq : ebrStep ext b q with
    | none => rw [hq] at h; cases h
    | some b' =>
      rcases List.mem_cons.mp hmem with rfl | hmem
      · exact (ebrStep_logical hp).mp ⟨b', hq⟩
      · rw [hq] at h
        exact ebr_logical hp h hmem

/-- The second loop accepts when every logical partition lies inside the container and, once there
is one, no primary partition meets it. -/
lemma ebr_isSome : ∀ {ps : List Part} {b : ℤ × ℤ}, EbrBounds ext b → (∀ p ∈ ps, 0 ≤ p.start) →
    (∀ p ∈ ps, 4 < p.number → ∃ x, ext = some x ∧ LogicalInside x p) →
    (b = (unset, unset) ∧ (∀ p ∈ ps, p.number ≤ 4) ∨
      ∀ p ∈ ps, p.number ≤ 4 → ∀ x, ext = some x → p.number ≠ x.number → ¬ MeetsContainer x p) →
    (ps.foldlM (ebrStep ext) b).isSome = true
  | [], b, _, _, _, _ => rfl
  | q :: ps, b, hb, h0, hlog, hm => by
    rw [List.foldlM_cons]
    have h0' := fun p hp => h0 p (List.mem_cons_of_mem q hp)
    have hlog' := fun p hp => hlog p (List.mem_cons_of_mem q hp)
    by_cases hq : 4 < q.number
    · obtain ⟨b', hb'⟩ := (ebrStep_logical (b := b) hq).mpr (hlog q List.mem_cons_self hq)
      rw [hb']
      refine ebr_isSome (ebrStep_bounds hb hb') h0' hlog' (.inr ?_)
      rcases hm with ⟨-, hall⟩ | hm
      · have := hall q List.mem_cons_self
        omega
      · exact fun p hp => hm p (List.mem_cons_of_mem q hp)
    · have hstep : ebrStep ext b q = some b := by
        refine ebrStep_primary hb (by omega) (h0 q List.mem_cons_self) ?_
        rcases hm with ⟨hb0, -⟩ | hm
        · exact .inl hb0
        · exact .inr (hm q List.mem_cons_self (by omega))
      rw [hstep]
      refine ebr_isSome hb h0' hlog' ?_
      rcases hm with ⟨hb0, hall⟩ | hm
      · exact .inl ⟨hb0, fun p hp => hall p (List.mem_cons_of_mem q hp)⟩
      · exact .inr fun p hp => hm p (List.mem_cons_of_mem q hp)

end Ebr

/-- The extended partitions in the order of the first loop. -/
def ebrExts {ns : List ℕ} (tr : Traversal ns) (ps : List Part) : List Part :=
  (walk tr false .ebrTypes ps).filter fun p => isExtendedType p.type

/-- **What `validate_mbr_ebr_layout` accepts**, in the order of its loops. -/
theorem validateMbrEbrLayout_iff {ns : List ℕ} (tr : Traversal ns) {label : Label}
    (hl : label ≠ .gpt) (ps : List Part) :
    validateMbrEbrLayout tr label ps = true ↔
      (∀ p ∈ ebrExts tr ps, 1 ≤ p.number ∧ p.number ≤ 4) ∧ (ebrExts tr ps).length ≤ 1 ∧
        ((walk tr false .ebrExtents ps).foldlM (ebrStep (ebrExts tr ps).getLast?) (unset,
          unset)).isSome = true := by
  unfold validateMbrEbrLayout
  rw [if_neg hl]
  change (if ((ebrExts tr ps).any fun p => decide (p.number < 1) || decide (4 < p.number)) ||
    decide (1 < (ebrExts tr ps).length) then false else _) = true ↔ _
  split
  next h =>
    refine ⟨fun h' => absurd h' Bool.false_ne_true, fun ⟨h1, h2, _⟩ => ?_⟩
    rw [Bool.or_eq_true, List.any_eq_true, decide_eq_true_eq] at h
    rcases h with ⟨p, hp, hp'⟩ | h
    · have := h1 p hp
      simp only [Bool.or_eq_true, decide_eq_true_eq] at hp'
      omega
    · omega
  next h =>
    rw [Bool.not_eq_true, Bool.or_eq_false_iff, List.any_eq_false, decide_eq_false_iff_not] at h
    have h1 : ∀ p ∈ ebrExts tr ps, 1 ≤ p.number ∧ p.number ≤ 4 := by
      intro p hp
      have := h.1 p hp
      simp only [Bool.or_eq_true, decide_eq_true_eq] at this
      omega
    simp only [ebrGaps_isSome, Option.isSome_some, Bool.and_true]
    exact ⟨fun h' => ⟨h1, by omega, h'⟩, fun h' => h'.2.2⟩

end Pxeos.Sfdisk
