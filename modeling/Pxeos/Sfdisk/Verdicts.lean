import Pxeos.Sfdisk.FillOrder
import Mathlib.Data.List.TakeWhile
import Mathlib.Order.Interval.Set.Disjoint
import Mathlib.Data.Int.ConditionallyCompleteOrder
import Mathlib.Order.CompletePartialOrder

/-!
# When the checks of a table are right

The layouts that `validate_mbr_ebr_layout` and `check_all_partitions` are meant to accept, and
exactly when their verdicts agree with them.  The first knows the container only after it has met a
logical partition, and its pass over the gaps reads no record; the second reads the type of its
candidate as a number, and has nothing to compare a single partition with.
-/

namespace Pxeos.Sfdisk

/-! ### The container and its logical partitions -/

/-- A boot record fits between any two logical partitions. -/
def LogicalsApart (ps : List Part) : Prop :=
  ∀ p ∈ ps, ∀ q ∈ ps, 4 < p.number → 4 < q.number → p.number ≠ q.number → p.start ≤ q.start →
    p.stop + 2 ≤ q.start

/-- A primary partition that intersects the container. -/
def PrimaryMeets (ps : List Part) (p : Part) : Prop :=
  p.number ≤ 4 ∧ ∃ x ∈ ps, isExtendedType x.type = true ∧ p.number ≠ x.number ∧ MeetsContainer x p

/-- **The layout of an MBR table**: at most one container, with a primary number, every logical
partition inside it behind a boot record, no primary partition over it, and a boot record between
the logical partitions. -/
structure EbrLayout (t : Table) : Prop extends EbrSound t where
  primaries : ∀ p ∈ t.parts, ¬ PrimaryMeets t.parts p
  logicals : LogicalsApart t.parts

/-- The partitions the second loop visits before the first logical one. -/
def beforeLogical {ns : List ℕ} (tr : Traversal ns) (ps : List Part) : List Part :=
  (walk tr false .ebrExtents ps).takeWhile fun p => decide (p.number ≤ 4)

/-- The partitions it visits from there on. -/
def fromLogical {ns : List ℕ} (tr : Traversal ns) (ps : List Part) : List Part :=
  (walk tr false .ebrExtents ps).dropWhile fun p => decide (p.number ≤ 4)

section Ebr

variable {x : Part}

/-- One iteration of the second loop once the container is known. -/
lemma ebrStep_known (p : Part) : (ebrStep (some x) (x.start, x.stop) p).isSome = true →
    ebrStep (some x) (x.start, x.stop) p = some (x.start, x.stop) := by
  intro h
  unfold ebrStep at h ⊢
  dsimp only at h ⊢
  split
  · rw [if_neg]
    intro hmeets
    simp_all
  · rw [if_neg]
    intro hmeets
    simp_all

lemma ebrStep_known_iff (p : Part) : (ebrStep (some x) (x.start, x.stop) p).isSome = true ↔
    (4 < p.number → LogicalInside x p) ∧
    (p.number ≤ 4 → p.number ≠ x.number → ¬ MeetsContainer x p) := by
  unfold ebrStep LogicalInside MeetsContainer
  dsimp only
  split
  next hp =>
    split
    next hm =>
      simp only [Option.isSome_none, Bool.false_eq_true, false_iff]
      intro h
      exact h.2 hp hm.1 hm.2
    next hm =>
      simp only [Option.isSome_some, true_iff]
      exact ⟨fun h => by omega, fun _ hn hmeets => hm ⟨hn, hmeets⟩⟩
  next hp =>
    split
    next hm =>
      simp only [Option.isSome_none, Bool.false_eq_true, false_iff]
      intro h
      have := h.1 (by omega)
      omega
    next hm =>
      simp only [Option.isSome_some, true_iff]
      exact ⟨fun _ => by omega, fun h => by omega⟩

/-- The second loop once the container is known. -/
lemma ebr_known_iff (ps : List Part) :
    (ps.foldlM (ebrStep (some x)) (x.start, x.stop)).isSome = true ↔
    ∀ p ∈ ps, (4 < p.number → LogicalInside x p) ∧
      (p.number ≤ 4 → p.number ≠ x.number → ¬ MeetsContainer x p) := by
  induction ps with
  | nil => simp
  | cons p ps ih =>
    rw [List.foldlM_cons, List.forall_mem_cons, ← ih, ← ebrStep_known_iff]
    constructor
    · intro h
      cases hp : ebrStep (some x) (x.start, x.stop) p with
      | none => rw [hp] at h; cases h
      | some b =>
        have hb := ebrStep_known p (by rw [hp]; rfl)
        rw [hb] at h
        exact ⟨rfl, h⟩
    · rintro ⟨hp, hps⟩
      rw [ebrStep_known p hp]
      exact hps

/-- The second loop from the first logical partition on, whatever the bounds are. -/
lemma ebr_logical_iff {b : ℤ × ℤ} {p : Part} (hp : 4 < p.number) (ps : List Part) :
    ((p :: ps).foldlM (ebrStep (some x)) b).isSome = true ↔
      ∀ q ∈ p :: ps, (4 < q.number → LogicalInside x q) ∧
        (q.number ≤ 4 → q.number ≠ x.number → ¬ MeetsContainer x q) := by
  rw [← ebr_known_iff (x := x) (p :: ps), List.foldlM_cons, List.foldlM_cons]
  -- the bounds are not read for a logical partition
  have hstep : ebrStep (some x) b p = ebrStep (some x) (x.start, x.stop) p := by
    unfold ebrStep
    rw [if_neg (by omega), if_neg (by omega)]
  rw [hstep]

/-- Before the first logical partition the second loop accepts everything. -/
lemma ebr_before {ext : Option Part} : ∀ {ps : List Part}, (∀ p ∈ ps, p.number ≤ 4 ∧ 0 ≤ p.start) →
    ps.foldlM (ebrStep ext) (unset, unset) = some (unset, unset)
  | [], _ => rfl
  | p :: ps, h => by
    obtain ⟨hp, h0⟩ := h p List.mem_cons_self
    rw [List.foldlM_cons, ebrStep_primary (.inl rfl) hp h0 (.inl rfl)]
    exact ebr_before fun q hq => h q (List.mem_cons_of_mem _ hq)

end Ebr

section Verdict

variable (t : Table) (tr : Traversal t.numbers)

lemma walk_eq :
    walk tr false .ebrExtents t.parts = beforeLogical tr t.parts ++ fromLogical tr t.parts :=
  (List.takeWhile_append_dropWhile).symm

lemma mem_walk_iff {p : Part} :
    p ∈ beforeLogical tr t.parts ∨ p ∈ fromLogical tr t.parts ↔ p ∈ t.parts := by
  rw [← List.mem_append, ← walk_eq]
  exact (walk_perm t.nodup_numbers tr false .ebrExtents rfl).mem_iff

lemma beforeLogical_primary {p : Part} (h : p ∈ beforeLogical tr t.parts) : p.number ≤ 4 := by
  simpa using List.mem_takeWhile_imp h

/-- The verdict over the second loop is about the partitions from the first logical one on. -/
lemma ebr_fold_eq (ext : Option Part) :
    (walk tr false .ebrExtents t.parts).foldlM (ebrStep ext) (unset, unset) =
    (fromLogical tr t.parts).foldlM (ebrStep ext) (unset, unset) := by
  rw [walk_eq, List.foldlM_append, ebr_before]
  · rfl
  · intro p hp
    exact ⟨beforeLogical_primary t tr hp, (t.nonneg p ((mem_walk_iff t tr).mp (.inl hp))).1⟩

lemma fromLogical_cases :
    fromLogical tr t.parts = [] ∨ ∃ p ps, fromLogical tr t.parts = p :: ps ∧ 4 < p.number := by
  cases h : fromLogical tr t.parts with
  | nil => exact .inl rfl
  | cons p ps =>
    refine .inr ⟨p, ps, rfl, ?_⟩
    have hhead :=
      List.head?_dropWhile_not (fun p : Part => decide (p.number ≤ 4))
        (walk tr false .ebrExtents t.parts)
    unfold fromLogical at h
    rw [h] at hhead
    simpa using hhead

/-- A table without a container passes the second loop when it has no logical partition. -/
lemma ebr_none_iff : ((fromLogical tr t.parts).foldlM (ebrStep none) (unset, unset)).isSome = true ↔
    ∀ p ∈ t.parts, p.number ≤ 4 := by
  rcases fromLogical_cases t tr with h | ⟨p, ps, h, hp⟩
  · rw [h]
    simp only [List.foldlM_nil, Option.pure_def, Option.isSome_some, true_iff]
    intro q hq
    rcases (mem_walk_iff t tr).mpr hq with hq | hq
    · exact beforeLogical_primary t tr hq
    · rw [h] at hq
      cases hq
  · rw [h, List.foldlM_cons]
    have hstep : ebrStep none (unset, unset) p = none := by
      unfold ebrStep
      rw [if_neg (by omega)]
    rw [hstep]
    simp only [Option.bind_eq_bind, Option.bind_none, Option.isSome_none,
      Bool.false_eq_true, false_iff]
    intro hall
    have := hall p ((mem_walk_iff t tr).mp (.inr (by rw [h]; exact List.mem_cons_self)))
    omega

lemma ebr_some_iff (x : Part) :
    ((fromLogical tr t.parts).foldlM (ebrStep (some x)) (unset, unset)).isSome = true ↔
    (∀ p ∈ t.parts, 4 < p.number → LogicalInside x p) ∧
      ∀ p ∈ fromLogical tr t.parts, p.number ≤ 4 → p.number ≠ x.number → ¬ MeetsContainer x p := by
  have hlogical : (∀ p ∈ t.parts, 4 < p.number → LogicalInside x p) ↔
      ∀ p ∈ fromLogical tr t.parts, 4 < p.number → LogicalInside x p := by
    constructor
    · exact fun h p hp => h p ((mem_walk_iff t tr).mp (.inr hp))
    · intro h p hp hn
      rcases (mem_walk_iff t tr).mpr hp with hp | hp
      · have := beforeLogical_primary t tr hp
        omega
      · exact h p hp hn
  rw [hlogical, ← forall₂_and]
  rcases fromLogical_cases t tr with h | ⟨p, ps, h, hp⟩
  · simp [h]
  · rw [h]
    exact ebr_logical_iff hp ps

/-- **What `validate_mbr_ebr_layout` accepts**: a sound container, and no primary partition that
intersects it among those visited after a logical one. -/
theorem validateMbrEbrLayout_verdict (hl : t.label ≠ .gpt) :
    validateMbrEbrLayout tr t.label t.parts = true ↔
    EbrSound t ∧ ∀ p ∈ fromLogical tr t.parts, ¬ PrimaryMeets t.parts p := by
  constructor
  · intro h
    have hs := ebrSound hl h
    refine ⟨hs, ?_⟩
    rintro p hp ⟨hn, x, hx, he, hne, hm⟩
    obtain ⟨-, -, hfold⟩ := (validateMbrEbrLayout_iff tr hl t.parts).mp h
    rw [ebr_fold_eq, getLast?_ebrExts hs hx he, ebr_some_iff] at hfold
    exact hfold.2 p hp hn hne hm
  · rintro ⟨hs, hmeets⟩
    refine (validateMbrEbrLayout_iff tr hl t.parts).mpr ⟨?_, ebrExts_perm.length_eq ▸ hs.one, ?_⟩
    · intro p hp
      obtain ⟨hp, he⟩ := mem_ebrExts.mp hp
      exact hs.number p hp he
    · rw [ebr_fold_eq]
      cases hlast : (ebrExts tr t.parts).getLast? with
      | none =>
        rw [ebr_none_iff]
        intro p hp
        by_contra hn
        obtain ⟨x, hx, he, -⟩ := hs.inside p hp (by omega)
        rw [getLast?_ebrExts hs hx he] at hlast
        cases hlast
      | some x =>
        obtain ⟨hx, he⟩ := mem_ebrExts.mp (List.mem_of_getLast? hlast)
        refine (ebr_some_iff t tr x).mpr ⟨fun p hp hn => ?_,
          fun p hp hn hne hm => hmeets p hp ⟨hn, x, hx, he, hne, hm⟩⟩
        obtain ⟨y, hy, hye, hin⟩ := hs.inside p hp hn
        rw [getLast?_ebrExts hs hy hye] at hlast
        exact Option.some.inj hlast ▸ hin

/-- The verdict is right: unless the container is sound there is nothing else to see, and with a
sound container the loop meets an offending primary partition after a logical one, or neither an
earlier primary nor a gap offends. -/
def EbrJudged : Prop :=
  EbrSound t →
    (∃ p ∈ fromLogical tr t.parts, PrimaryMeets t.parts p) ∨
      (LogicalsApart t.parts ∧ ∀ p ∈ beforeLogical tr t.parts, ¬ PrimaryMeets t.parts p)

/-- **When `validate_mbr_ebr_layout` is right.** -/
theorem validateMbrEbrLayout_exact (hl : t.label ≠ .gpt) :
    (validateMbrEbrLayout tr t.label t.parts = true ↔ EbrLayout t) ↔ EbrJudged t tr := by
  rw [validateMbrEbrLayout_verdict t tr hl]
  unfold EbrJudged
  constructor
  · intro h hs
    by_cases hmeets : ∃ p ∈ fromLogical tr t.parts, PrimaryMeets t.parts p
    · exact .inl hmeets
    · have hlay := h.mp ⟨hs, fun p hp hm => hmeets ⟨p, hp, hm⟩⟩
      exact .inr ⟨hlay.logicals, fun p hp => hlay.primaries p ((mem_walk_iff t tr).mp (.inl hp))⟩
  · intro h
    constructor
    · rintro ⟨hs, hno⟩
      rcases h hs with ⟨p, hp, hm⟩ | ⟨hgaps, hbefore⟩
      · exact absurd hm (hno p hp)
      · refine ⟨hs, fun p hp => ?_, hgaps⟩
        rcases (mem_walk_iff t tr).mpr hp with hp | hp
        · exact hbefore p hp
        · exact hno p hp
    · intro hlay
      exact ⟨hlay.toEbrSound, fun p hp => hlay.primaries p ((mem_walk_iff t tr).mp (.inr hp))⟩

end Verdict

/-- A table of a primary partition, a container and two logical partitions, the second from `start`
on. -/
def twoLogicals (start : ℕ) : Table :=
  ⟨.dos, 0, 0, [examplePart 1 2048 4096 4096 "83", examplePart 2 8192 20000 20000 "5",
    examplePart 5 8194 4096 4096 "83",
    examplePart 6 start 4096 4096 "83"], by simp [examplePart], by simp [examplePart]⟩

/-- The second logical partition starts inside the first. -/
theorem validateMbrEbrLayout_overlapping :
    ¬ (validateMbrEbrLayout (byNumber (twoLogicals 10000).numbers) (twoLogicals 10000).label
      (twoLogicals 10000).parts =
      true ↔ EbrLayout (twoLogicals 10000)) := by
  intro h
  have hlay := h.mp (by decide +kernel)
  have :=
    hlay.logicals (examplePart 5 8194 4096 4096 "83") (by decide)
      (examplePart 6 10000 4096 4096 "83") (by decide)
    (by decide) (by decide) (by decide) (by decide)
  revert this
  decide

/-- The second logical partition starts two sectors behind the first. -/
theorem validateMbrEbrLayout_exact_spaced : EbrLayout (twoLogicals 12292) := by
  refine ((validateMbrEbrLayout_exact (twoLogicals 12292) (byNumber _) (by decide)).mpr
    fun _ => .inr ⟨?_, ?_⟩).mp
    (by decide +kernel)
  · unfold LogicalsApart
    decide +kernel
  · unfold PrimaryMeets MeetsContainer
    decide +kernel

/-! ### Partitions that lie apart -/

/-- A partition lies on the disk. -/
def OnDisk (diskSize : ℕ) (p : Part) : Prop := 0 ≤ p.start ∧ p.stop ≤ diskSize

/-- Two partitions have no sector in common. -/
def Apart (p q : Part) : Prop := min p.stop q.stop ≤ max p.start q.start

/-- The partitions lie on the disk and apart. -/
structure TableSound (diskSize : ℕ) (ps : List Part) : Prop where
  onDisk : ∀ p ∈ ps, OnDisk diskSize p
  apart : ∀ p ∈ ps, ∀ q ∈ ps, p.number ≠ q.number → Apart p q

/-- A type GUID: groups of 8, 4, 4, 4 and 12 hexadecimal digits. -/
def isGuid (type : Text) : Bool :=
  type.length == 36 && (List.range 36).all fun i =>
    if i ∈ [8, 13, 18, 23] then type[i]? == some '-'
    else (type[i]?).any fun c => c.isDigit || ('a' ≤ c && c ≤ 'f') || ('A' ≤ c && c ≤ 'F')

/-- No GUID is the type of a container. -/
lemma isExtendedType_guid {type : Text} (h : isGuid type = true) : isExtendedType type = false := by
  unfold isGuid at h
  rw [Bool.and_eq_true, beq_iff_eq] at h
  have hlen : (type.map Char.toLower).length = 36 := by rw [List.length_map, h.1]
  unfold isExtendedType
  generalize type.map Char.toLower = w at hlen
  have hshort : ∀ v : Text, 34 ≤ v.length →
      (v == "5".toList || v == "f".toList || v == "85".toList) = false := by
    intro v hv
    simp only [Bool.or_eq_false_iff, beq_eq_false_iff_ne]
    refine ⟨⟨?_, ?_⟩, ?_⟩ <;> rintro rfl <;> simp at hv
  split
  next rest =>
    simp only [List.length_cons] at hlen
    exact hshort rest (by omega)
  next => exact hshort w (by omega)

section Gpt

variable {diskSize : ℕ} {ps : List Part}

/-- One comparison of `check_overlap` between partitions that are no containers. -/
lemma pairOk_iff {p q : Part} (hp : p.size ≠ 0) (hext : isExtendedType p.type = false) (a b : ℤ) :
    pairOk diskSize q a b p = true ↔ (0 ≤ a ∧ a ≤ diskSize ∧ 0 ≤ a + b ∧ a + b ≤ diskSize) ∧
      (if extendedAsInt q.type = true ∧ 4 < p.number then a + 2 ≤ p.start ∧ p.stop ≤ a + b
        else p.start ≤ a → p.stop ≤ a) := by
  unfold pairOk
  rw [if_neg hp, hext, if_neg Bool.false_ne_true]
  by_cases hb : a < 0 ∨ (diskSize : ℤ) < a ∨ a + b < 0 ∨ (diskSize : ℤ) < a + b
  · rw [if_pos hb]
    simp only [Bool.false_eq_true, false_iff]
    intro h
    omega
  · rw [if_neg hb]
    have hbounds : 0 ≤ a ∧ a ≤ diskSize ∧ 0 ≤ a + b ∧ a + b ≤ diskSize := by omega
    by_cases hm : extendedAsInt q.type = true ∧ 4 < p.number
    · rw [if_pos hm, if_pos (by simpa using hm), Bool.and_eq_true, decide_eq_true_eq,
        decide_eq_true_eq]
      exact ⟨fun h => ⟨hbounds, h⟩, fun h => h.2⟩
    · rw [if_neg hm, if_neg (by simpa using hm)]
      split
      next hle => exact ⟨fun h => ⟨hbounds, fun _ => of_decide_eq_true h⟩,
        fun h => decide_eq_true (h.2 hle)⟩
      next hle => exact ⟨fun _ => ⟨hbounds, fun h => absurd h hle⟩, fun _ => rfl⟩

/-- A type GUID that reads as the number of a container, and another partition with the number of a
logical one. -/
def Misread (ps : List Part) : Prop :=
  ∃ q ∈ ps, extendedAsInt q.type = true ∧ ∃ p ∈ ps, p.number ≠ q.number ∧ 4 < p.number

/-- Two partitions of which one is taken for the container of the other fail one of the two
comparisons. -/
lemma Consistent.not_misread (h : Consistent diskSize ps) (hsize : ∀ p ∈ ps, 0 < p.size)
    (htype : ∀ p ∈ ps, isGuid p.type = true) : ¬ Misread ps := by
  rintro ⟨q, hq, hint, p, hp, hne, hnum⟩
  have hps := hsize p hp
  have hqs := hsize q hq
  have hstop : p.stop = p.start + p.size := rfl
  have hstop' : q.stop = q.start + q.size := rfl
  have h1 := ((pairOk_iff hps.ne' (isExtendedType_guid (htype p hp)) _ _).mp (h q hq p hp hne)).2
  have h2 :=
    ((pairOk_iff hqs.ne' (isExtendedType_guid (htype q hq)) _ _).mp (h p hp q hq hne.symm)).2
  rw [if_pos ⟨hint, hnum⟩] at h1
  split at h2
  · omega
  · have := h2 (by omega)
    omega

/-- What `check_all_partitions` accepts when there is more than one partition. -/
lemma consistent_iff (hsize : ∀ p ∈ ps, 0 < p.size) (htype : ∀ p ∈ ps, isGuid p.type = true)
    (hmany : ∀ q ∈ ps, ∃ p ∈ ps, p.number ≠ q.number) :
    Consistent diskSize ps ↔ TableSound diskSize ps ∧ ¬ Misread ps := by
  have hext := fun p hp => isExtendedType_guid (htype p hp)
  constructor
  · intro h
    refine ⟨⟨fun q hq => ?_, fun p hp q hq hne => ?_⟩, h.not_misread hsize htype⟩
    · obtain ⟨p, hp, hne⟩ := hmany q hq
      obtain ⟨h0, -, h1⟩ := pairOk_bounds (h q hq p hp hne) (hsize p hp).ne'
      exact ⟨h0, h1⟩
    · unfold Apart
      have hps := hsize p hp
      have hqs := hsize q hq
      rcases h.apart hp hq hne hps hqs (hext p hp) (hext q hq) with hle | hle <;> omega
  · rintro ⟨hs, hno⟩ q hq p hp hne
    rw [pairOk_iff (hsize p hp).ne' (hext p hp)]
    obtain ⟨h0, h1⟩ := hs.onDisk q hq
    have hps := hsize p hp
    have hqs := hsize q hq
    have hstop : p.stop = p.start + p.size := rfl
    have hstop' : q.stop = q.start + q.size := rfl
    refine ⟨by omega, ?_⟩
    rw [if_neg fun hm => hno ⟨q, hq, hm.1, p, hp, hne, hm.2⟩]
    intro hle
    have hap := hs.apart p hp q hq hne
    unfold Apart at hap
    omega

/-- The verdict is right: a single partition lies on the disk, and in a sound table no type is
misread. -/
structure GptJudged (diskSize : ℕ) (ps : List Part) : Prop where
  single : ∀ p, ps = [p] → OnDisk diskSize p
  types : TableSound diskSize ps → ¬ Misread ps

lemma tableSound_singleton (p : Part) : TableSound diskSize [p] ↔ OnDisk diskSize p := by
  constructor
  · exact fun h => h.onDisk p (List.mem_singleton_self p)
  · intro h
    refine ⟨fun q hq => ?_, fun q hq r hr hne => ?_⟩
    · rw [List.mem_singleton.mp hq]
      exact h
    · rw [List.mem_singleton.mp hq, List.mem_singleton.mp hr] at hne
      exact absurd rfl hne

/-- **When `check_all_partitions` is right** about a table whose types are GUIDs. -/
theorem checkAllPartitions_exact (t : Table) (hsize : ∀ p ∈ t.parts, 0 < p.size)
    (htype : ∀ p ∈ t.parts, isGuid p.type = true) (tr : Traversal t.numbers) (sorted : Bool)
    (outer : Loop) (inner : ℕ → Loop) (diskSize : ℕ) :
    (checkAllPartitions tr sorted outer inner diskSize t.parts = true ↔
      TableSound diskSize t.parts) ↔
      GptJudged diskSize t.parts := by
  rw [checkAllPartitions_iff t.nodup_numbers tr sorted outer inner diskSize rfl]
  by_cases hmany : ∀ q ∈ t.parts, ∃ p ∈ t.parts, p.number ≠ q.number
  · rw [consistent_iff hsize htype hmany]
    constructor
    · refine fun h => ⟨fun p hp => ?_, fun hs => (h.mpr hs).2⟩
      obtain ⟨r, hr, hne⟩ := hmany p (by rw [hp]; exact List.mem_singleton_self p)
      rw [hp] at hr
      rw [List.mem_singleton.mp hr] at hne
      exact absurd rfl hne
    · exact fun h => ⟨And.left, fun hs => ⟨hs, h.types hs⟩⟩
  · -- all partitions are one, and it is compared with nothing
    push Not at hmany
    obtain ⟨p, hp, hall⟩ := hmany
    have heq : ∀ q ∈ t.parts, q = p := fun q hq => eq_of_number t.nodup_numbers hq hp (hall q hq)
    have hps : t.parts = [p] := by
      have hnodup : t.parts.Nodup := List.Nodup.of_map _ t.nodup_numbers
      have hrep := List.eq_replicate_of_mem heq
      rw [hrep, List.nodup_replicate] at hnodup
      have hpos := List.length_pos_of_mem hp
      rw [hrep, show t.parts.length = 1 by omega]
      rfl
    have hcons : Consistent diskSize t.parts := by
      intro q hq r hr hne
      rw [heq q hq, heq r hr] at hne
      exact absurd rfl hne
    have hmis : ¬ Misread t.parts := by
      rintro ⟨q, hq, -, r, hr, hne, -⟩
      rw [heq q hq, heq r hr] at hne
      exact absurd rfl hne
    rw [iff_true_left hcons]
    constructor
    · intro hs
      refine ⟨fun q hq => ?_, fun _ => hmis⟩
      exact hs.onDisk q (by rw [hq]; exact List.mem_singleton_self q)
    · intro h
      rw [hps]
      exact (tableSound_singleton p).mpr (h.single p hps)

end Gpt

/-- A GPT disk with two partitions that lie apart, the first of a type whose GUID starts with
`85D`. -/
def midnightGpt : Table :=
  ⟨.gpt, 34, 99966, [examplePart 1 2048 4096 4096 "85D5E45A-237C-11E1-B4B3-E89A8F7FC3A7",
    examplePart 5 8192 4096 4096 "0FC63DAF-8483-4772-8E79-3D69D8477DE4"], by decide, by decide⟩

/-- A GPT disk with one partition, which ends behind the disk. -/
def longGpt : Table :=
  ⟨.gpt, 34, 99966, [examplePart 1 2048 200000 200000 "0FC63DAF-8483-4772-8E79-3D69D8477DE4"],
    by decide, by decide⟩

lemma midnightGpt_sound : TableSound 100000 midnightGpt.parts := by
  refine ⟨?_, ?_⟩
  · unfold OnDisk
    decide
  · unfold Apart
    decide

/-- The first is taken for the container of the second, and the check fails; the other passes. -/
theorem checkAllPartitions_misjudged :
    ¬ (checkAllPartitions (byNumber midnightGpt.numbers) false .check .overlap 100000
      midnightGpt.parts = true ↔
      TableSound 100000 midnightGpt.parts) ∧
    ¬ (checkAllPartitions (byNumber longGpt.numbers) false .check .overlap 100000
      longGpt.parts = true ↔
      TableSound 100000 longGpt.parts) := by
  constructor
  · intro h
    exact absurd (h.mpr midnightGpt_sound) (by decide +kernel)
  · intro h
    have hs := (h.mp (by decide +kernel)).onDisk _ List.mem_cons_self
    revert hs
    unfold OnDisk
    decide

/-- Filesystem partitions with ordinary types. -/
theorem checkAllPartitions_exact_full :
    checkAllPartitions (byNumber fullGpt.numbers) false .check .overlap 10000 fullGpt.parts =
      true := by
  refine ((checkAllPartitions_exact fullGpt (by decide) (by decide +kernel) (byNumber _) false
    .check .overlap 10000).mpr
    ⟨?_, fun _ => ?_⟩).mpr ⟨?_, ?_⟩
  · intro p hp
    cases hp
  · unfold Misread
    decide +kernel
  · unfold OnDisk
    decide
  · unfold Apart
    decide

end Pxeos.Sfdisk
