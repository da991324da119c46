import Pxeos.Deploy.Largest

/-!
# Growing one partition

When the layout that lets one partition grow and keeps the others is resolved.  Every start is
aligned again and the size of the growing partition is rounded up, so the captured disk itself may
be too small; how much larger a disk has to be is bounded by the number of partitions.
-/

namespace Pxeos.Deploy

open Pxeos.Lib

/-! ### What capture accepts -/

/-- The container's record. -/
def containerCheck (p : SchemaPart) : Bool :=
  decide (1 ≤ p.number) && decide (p.number ≤ 4) && p.role == .extendedContainer &&
    p.artifact == some "" && !p.resizable &&
    p.ebrReservedSectors == some 2 && p.parentNumber == none

/-- The record of a logical partition. -/
def logicalCheck (p : SchemaPart) : Bool :=
  decide (5 ≤ p.number) && p.parentNumber.isSome && p.ebrReservedSectors == none

/-- `.lvm`, every physical volume with one group of its own. -/
def lvmCheck (l : LvmSchema) : Bool :=
  l.version == 1 && l.captureMode == "per_lv" && l.resizePolicy == "grow_only" &&
    decide (0 < l.pvs.length) &&
  decide (l.vgs.length = l.pvs.length) &&
    decide ((l.pvs.map (·.partitionNumber)).dedup.length = l.pvs.length) &&
  decide ((l.pvs.map (·.uuid)).dedup.length = l.pvs.length) &&
    decide ((l.vgs.map (·.uuid)).dedup.length = l.vgs.length) &&
  decide ((l.vgs.map (·.name)).dedup.length = l.vgs.length) &&
  decide (((l.vgs.flatMap (·.lvs)).map (·.uuid)).dedup.length = (l.vgs.flatMap (·.lvs)).length) &&
  l.pvs.all fun pv =>
    decide ((l.vgs.filter fun vg => vg.uuid == pv.vgUuid &&
      vg.pvPartitionNumbers == [pv.partitionNumber]).length = 1)

/-- `base` of the schema check. -/
def baseCheck (s : Schema) : Bool :=
  decide (0 < s.logicalSectorBytes) && decide (0 < s.partitions.length) &&
  decide ((s.partitions.map (·.number)).dedup.length = (s.partitions.map (·.number)).length) &&
  s.partitions.all fun p => decide (0 < p.originalSectors) &&
    decide (p.minSectors = p.originalSectors) &&
    decide (p.originalEnd * s.logicalSectorBytes ≤ s.originalDiskBytes)

/-- The check at the end of `rootpxe_build_original_schema`. -/
def schemaCheck (s : Schema) : Bool :=
  match s.version with
  | 1 => baseCheck s
  | 2 => baseCheck s &&
    (match s.partitionTable with
      | .gpt => s.partitions.all (·.kind == some .primary)
      | .mbr =>
        let extended := s.partitions.filter (·.kind == some .extended)
        decide (extended.length = 0) ||
          (decide (extended.length = 1) && extended.all containerCheck &&
          (s.partitions.filter (·.kind == some .logical)).all logicalCheck)) &&
    (match s.lvm with
      | some l => lvmCheck l
      | none => true)
  | _ => false

/-- The sectors of a GPT header and its entries, before the first usable one. -/
def gptReserved (logical : ℕ) : ℕ := 2 + 16384 / logical

/-- A schema that capture accepts. -/
structure Accepted (s : Schema) : Prop where
  checked : schemaCheck s = true
  captured : Captured s
  /-- The parent of a logical partition is the container. -/
  parents : ∀ p ∈ s.partitions, p.kind = some .logical → ∀ x ∈ s.partitions,
    x.kind = some .extended → p.parentNumber = some x.number
  /-- Two partitions share nothing, but for the container and what is in it. -/
  disjoint : ∀ a ∈ s.partitions, ∀ b ∈ s.partitions, a.number ≠ b.number →
    (a.kind = some .extended → b.kind ≠ some .logical) →
    (a.kind = some .logical → b.kind ≠ some .extended) → sourceOverlap a b = false
  /-- There is room for an EBR between two logical partitions. -/
  spaced : ∀ a ∈ s.partitions, ∀ b ∈ s.partitions, a.kind = some .logical → b.kind = some .logical →
    a.number ≠ b.number →
    a.originalEnd + 2 ≤ b.startSectors ∨ b.originalEnd + 2 ≤ a.startSectors
  /-- A GPT partition is inside the usable range. -/
  usable : s.partitionTable = .gpt → ∀ p ∈ s.partitions,
    gptReserved s.logicalSectorBytes ≤ p.startSectors ∧
    (p.originalEnd + gptReserved s.logicalSectorBytes - 1) * s.logicalSectorBytes ≤
      s.originalDiskBytes

/-! ### The layout -/

/-- The entry of a partition: `remaining` for the one that grows, and `derived` for the
container. -/
def growEntry (s : Schema) (n : ℕ) (p : SchemaPart) : LayoutPart :=
  ⟨p.number, .value (if p.number = n then .remaining else if mbrExtended s ∧
    p.kind = some .extended then .derived else .original),
    .absent, .absent⟩

/-- One partition grows, and every other is kept. -/
def growLayout (s : Schema) (n : ℕ) : Layout := ⟨some (s.partitions.map (growEntry s n)), []⟩

namespace Accepted

variable {s : Schema} (ha : Accepted s)
include ha

lemma base : baseCheck s = true := by
  have h := ha.checked
  unfold schemaCheck at h
  split at h
  · exact h
  · simp only [Bool.and_eq_true] at h
    exact h.1.1
  · cases h

lemma base_ok : 0 < s.logicalSectorBytes ∧ s.partitions ≠ [] ∧ (s.partitions.map (·.number)).Nodup ∧
    ∀ p ∈ s.partitions, 0 < p.originalSectors ∧ p.minSectors = p.originalSectors ∧
      p.originalEnd * s.logicalSectorBytes ≤ s.originalDiskBytes := by
  have h := ha.base
  simp only [baseCheck, Bool.and_eq_true, decide_eq_true_eq, List.all_eq_true] at h
  obtain ⟨⟨⟨h1, h2⟩, h3⟩, h4⟩ := h
  exact ⟨h1, List.length_pos_iff.mp h2, nodup_of_dedup_length h3,
    fun p hp => ⟨(h4 p hp).1.1, (h4 p hp).1.2, (h4 p hp).2⟩⟩

lemma end_le {p : SchemaPart} (hp : p ∈ s.partitions) :
    p.originalEnd ≤ s.originalDiskBytes / s.logicalSectorBytes :=
  (Nat.le_div_iff_mul_le ha.base_ok.1).mpr (ha.base_ok.2.2.2 p hp).2.2

/-- The container of an MBR schema. -/
lemma container (hm : mbrExtended s = true) :
    ∃ x, s.partitions.filter (·.kind == some .extended) = [x] ∧ containerCheck x = true := by
  simp only [mbrExtended, Bool.and_eq_true, beq_iff_eq] at hm
  obtain ⟨⟨hv, ht⟩, hany⟩ := hm
  have h := ha.checked
  unfold schemaCheck at h
  rw [hv, ht] at h
  simp only [Bool.and_eq_true, Bool.or_eq_true, decide_eq_true_eq] at h
  rcases h.1.2 with h0 | ⟨⟨h1, h2⟩, -⟩
  · rw [List.length_eq_zero_iff, List.filter_eq_nil_iff] at h0
    obtain ⟨x, hx, hk⟩ := List.any_eq_true.mp hany
    exact absurd hk (h0 x hx)
  · obtain ⟨x, hx⟩ := List.length_eq_one_iff.mp h1
    rw [hx] at h2
    exact ⟨x, hx, by simpa using h2⟩

lemma ofKind_extended (hm : mbrExtended s = true) :
    ∃ x, ofKind s .extended = [x] ∧ containerCheck x = true ∧ x ∈ s.partitions ∧
    x.kind = some .extended := by
  obtain ⟨x, hx, hc⟩ := ha.container hm
  have hperm : (ofKind s .extended).Perm (s.partitions.filter (·.kind == some .extended)) :=
    (List.perm_insertionSort _ _).filter _
  rw [hx, List.perm_singleton] at hperm
  have hmem : x ∈ s.partitions.filter (·.kind == some .extended) := by
    rw [hx]; exact List.mem_singleton_self x
  obtain ⟨h1, h2⟩ := List.mem_filter.mp hmem
  exact ⟨x, hperm, hc, h1, by simpa using h2⟩

end Accepted

/-- The container is not a partition that grows. -/
lemma Accepted.growable_leaf {s : Schema} (ha : Accepted s) {p : SchemaPart} (hp : p ∈ s.partitions)
    (hgrow : physicalGrowthSupported p s.logicalSectorBytes s.lvm = true)
    (hm : mbrExtended s = true) : p.kind ≠ some .extended := by
  intro hk
  obtain ⟨x, hx, hc, -⟩ := ha.ofKind_extended hm
  have hpx : p = x := by
    have hmem : p ∈ ofKind s .extended := mem_ofKind.mpr ⟨hp, hk⟩
    rw [hx] at hmem
    exact List.mem_singleton.mp hmem
  simp only [← hpx, containerCheck, Bool.and_eq_true, Bool.not_eq_true', beq_iff_eq] at hc
  unfold physicalGrowthSupported at hgrow
  rw [if_neg fun h => h.1 hk] at hgrow
  split at hgrow
  · cases hgrow
  · rw [hc.1.1.2, Bool.not_false, if_pos rfl] at hgrow
    cases hgrow

/-- A condition under which the container is not empty. -/
def Occupied (s : Schema) : Prop :=
  mbrExtended s = true → ∃ q ∈ s.partitions, q.kind = some .logical

section Grow

variable {s : Schema} {p : SchemaPart}

lemma growEntry_number (n : ℕ) (q : SchemaPart) : (growEntry s n q).number = q.number := rfl

lemma map_growEntry_number (n : ℕ) :
    (s.partitions.map (growEntry s n)).map (·.number) = s.partitions.map (·.number) := by
  rw [List.map_map]
  rfl

/-- The entry of a partition of the schema. -/
lemma filter_growEntry (hnd : (s.partitions.map (·.number)).Nodup) (n : ℕ) {q : SchemaPart}
    (hq : q ∈ s.partitions) :
    (s.partitions.map (growEntry s n)).filter (·.number == q.number) = [growEntry s n q] := by
  rw [List.filter_map]
  have hone : s.partitions.filter ((·.number == q.number) ∘ growEntry s n) = [q] := by
    have hlen : (s.partitions.filter ((·.number == q.number) ∘ growEntry s n)).length = 1 := by
      have h := List.count_eq_one_of_mem hnd (List.mem_map_of_mem (f := (·.number)) hq)
      rw [List.count_eq_countP, List.countP_map, List.countP_eq_length_filter] at h
      exact h
    obtain ⟨y, hy⟩ := List.length_eq_one_iff.mp hlen
    have hmem : q ∈ s.partitions.filter ((·.number == q.number) ∘ growEntry s n) :=
      List.mem_filter.mpr ⟨hq, by simp [growEntry_number]⟩
    rw [hy] at hmem ⊢
    rw [List.mem_singleton.mp hmem]
  rw [hone]
  rfl

lemma joinLayout_grow (hnd : (s.partitions.map (·.number)).Nodup) (n : ℕ) {qs : List SchemaPart}
    (hqs : ∀ q ∈ qs, q ∈ s.partitions) :
    joinLayout qs (s.partitions.map (growEntry s n)) = qs.map fun q => (q, growEntry s n q) := by
  induction qs with
  | nil => rfl
  | cons q qs ih =>
    have h1 := ih fun q' h => hqs q' (List.mem_cons_of_mem _ h)
    unfold joinLayout at h1 ⊢
    rw [List.flatMap_cons, h1, filter_growEntry hnd _ (hqs q List.mem_cons_self)]
    rfl

lemma growLayout_passes (hnd : (s.partitions.map (·.number)).Nodup) (n : ℕ) :
    (s.partitions.map (growEntry s n)).any (·.percentage.has) = false ∧
      ((s.partitions.map (growEntry s n)).map (·.number)).dedup.length =
        (s.partitions.map (growEntry s n)).length := by
  constructor
  · rw [List.any_map, List.any_eq_false]
    exact fun q _ => by simp [growEntry, DocField.has]
  · rw [map_growEntry_number, hnd.dedup, List.length_map, List.length_map]

lemma Accepted.workParts_grow (ha : Accepted s) (hin : Occupied s) (hp : p ∈ s.partitions)
    (hgrow : physicalGrowthSupported p s.logicalSectorBytes s.lvm = true) :
    ∃ work, workParts s (s.partitions.map (growEntry s p.number)) = .ok work := by
  cases hm : mbrExtended s with
  | false =>
    unfold workParts
    rw [hm, if_neg (by simp)]
    exact ⟨_, rfl⟩
  | true =>
    obtain ⟨x, hx, -, hxs, hxk⟩ := ha.ofKind_extended hm
    have hnd := ha.base_ok.2.2.1
    have hne : x.number ≠ p.number := by
      intro h
      have hxp : x = p := List.inj_on_of_nodup_map hnd hxs hp h
      exact ha.growable_leaf hp hgrow hm (hxp ▸ hxk)
    have hderived : derivedEntry (s.partitions.map (growEntry s p.number)) x = .ok () := by
      unfold derivedEntry
      rw [filter_growEntry hnd _ hxs]
      simp [exactlyOne, growEntry, hne, hm, hxk, errorIf, DocField.has, bind, Except.bind]
    have hlog : ofKind s .logical ≠ [] := by
      obtain ⟨q, hq, hk⟩ := hin hm
      exact List.ne_nil_of_mem (mem_ofKind.mpr ⟨hq, hk⟩)
    have hparents : ∀ q ∈ ofKind s .logical, q.parentNumber = some x.number := by
      intro q hq
      obtain ⟨hqs, hqk⟩ := mem_ofKind.mp hq
      exact ha.parents q hqs hqk x hxs hxk
    have hprim : ∀ q ∈ ofKind s .primary, sourceOverlap q x = false := by
      intro q hq
      obtain ⟨hqs, hqk⟩ := mem_ofKind.mp hq
      refine ha.disjoint q hqs x hxs (fun h => ?_) (by simp [hqk]) (by simp [hqk])
      have hqx : q = x := List.inj_on_of_nodup_map hnd hqs hxs h
      rw [hqx, hxk] at hqk
      cases hqk
    exact ⟨_, workParts_of_checks hm ⟨hx, hlog, hparents, hprim⟩ hderived⟩

/-- The item of a leaf. -/
def growItem (s : Schema) (n : ℕ) (q : SchemaPart) : Item :=
  ⟨q, growEntry s n q, if q.number = n then .remaining else .original⟩

lemma mkItem_grow (hnd : (s.partitions.map (·.number)).Nodup) (hp : p ∈ s.partitions)
    (hgrow : physicalGrowthSupported p s.logicalSectorBytes s.lvm = true) {q : SchemaPart}
    (hq : q ∈ s.partitions) (hleaf : mbrExtended s = true → q.kind ≠ some .extended) :
    mkItem s (q, growEntry s p.number q) = .ok (growItem s p.number q) := by
  have hmode : (growEntry s p.number q).modeOrOriginal = if q.number = p.number then
    .remaining else .original := by
    unfold growEntry LayoutPart.modeOrOriginal
    simp only
    split
    · rfl
    · rw [if_neg fun h => hleaf h.1 h.2]
  have hfixed : (growEntry s p.number q).fixedBytes = .absent := rfl
  unfold mkItem growItem
  simp only [hmode, hfixed]
  by_cases hn : q.number = p.number
  · obtain rfl : q = p := List.inj_on_of_nodup_map hnd hq hp hn
    simp [hgrow, errorIf, DocField.has, ok_bind, pure, Except.pure]
  · simp [hn, errorIf, DocField.has, ok_bind, pure, Except.pure]

/-- **The documents pass their checks**, and the items are the leaves with one of them in mode
`remaining`. -/
lemma Accepted.allocEnv_grow (ha : Accepted s) (hin : Occupied s) (hp : p ∈ s.partitions)
    (hgrow : physicalGrowthSupported p s.logicalSectorBytes s.lvm = true) :
    ∃ e work, allocEnv s (growLayout s p.number) = .ok e ∧
      workParts s (s.partitions.map (growEntry s p.number)) = .ok work ∧
      e.items = work.map (growItem s p.number) := by
  obtain ⟨-, hne, hnd, -⟩ := ha.base_ok
  obtain ⟨work, hwork⟩ := ha.workParts_grow hin hp hgrow
  have hext : ∃ x, extendedWithEbr s = .ok x := by
    unfold extendedWithEbr extendedOf
    cases hm : mbrExtended s with
    | false => exact ⟨none, rfl⟩
    | true =>
      obtain ⟨x, hx, hc, -⟩ := ha.ofKind_extended hm
      have hebr : x.ebrReservedSectors = some 2 := by
        simp only [containerCheck, Bool.and_eq_true, beq_iff_eq] at hc
        exact hc.1.2
      rw [if_pos rfl, hx, List.head?_cons]
      simp only [hebr]
      exact ⟨some (x, 2), rfl⟩
  obtain ⟨extended, hext⟩ := hext
  have hstarts : s.partitions.map (·.startSectors) ≠ [] := by simpa using hne
  obtain ⟨front, hfront⟩ := Option.isSome_iff_exists.mp (List.isSome_min?_iff.mpr hstarts)
  have hmem : ∀ q ∈ work, q ∈ s.partitions ∧ (mbrExtended s = true → q.kind ≠ some .extended) :=
    fun q hq => (mem_work hwork).mp hq
  have hitems : (joinLayout work (s.partitions.map (growEntry s p.number))).mapM (mkItem s) =
      .ok (work.map (growItem s p.number)) := by
    rw [joinLayout_grow hnd _ fun q hq => (hmem q hq).1]
    have h : (work.map fun q => (q, growEntry s p.number q)).mapM (mkItem s) = .ok _ :=
      mapM_eq_map (g := fun x => growItem s p.number x.1) ?_
    · rw [h, List.map_map]
      rfl
    · intro x hx
      obtain ⟨q, hq, rfl⟩ := List.mem_map.mp hx
      exact mkItem_grow hnd hp hgrow (hmem q hq).1 (hmem q hq).2
  have hone : ((work.map (growItem s p.number)).filter (·.mode == .remaining)).length ≤ 1 := by
    rw [List.filter_map, List.length_map, ← List.countP_eq_length_filter]
    have hcount := (List.nodup_iff_count_le_one.mp (workParts_nodup hnd hwork)) p.number
    rw [List.count_eq_countP, List.countP_map] at hcount
    refine (List.countP_mono_left fun q _ h => ?_).trans hcount
    by_contra hne
    simp only [Function.comp_apply, beq_iff_eq] at hne h
    simp [growItem, hne] at h
  refine ⟨⟨s.logicalSectorBytes, front, extended, work.map (growItem s p.number)⟩, work,
    ?_, hwork, rfl⟩
  obtain ⟨hperc, hdup⟩ := growLayout_passes hnd p.number
  unfold allocEnv growLayout
  simp only [bind_eq_ok, errorIf_eq_ok, decide_eq_false_iff_not, not_not]
  refine ⟨(), hperc, (), hdup, (), by rw [map_growEntry_number], work, hwork, extended, hext, ?_⟩
  rw [hfront]
  simp only [bind_eq_ok, errorIf_eq_ok, decide_eq_false_iff_not, not_lt, pure_eq_ok]
  exact ⟨_, hitems, (), hone, rfl⟩

/-- The growing partition is the only one in mode `remaining`. -/
lemma growLayout_only (hnd : (s.partitions.map (·.number)).Nodup) (hp : p ∈ s.partitions) :
    OnlyRemaining (growLayout s p.number) p.number := by
  refine ⟨growEntry s p.number p, ?_, rfl⟩
  have h := filter_growEntry hnd p.number hp
  unfold growLayout
  rw [Option.getD_some, ← h]
  refine List.filter_congr fun o ho => ?_
  obtain ⟨q, hq, rfl⟩ := List.mem_map.mp ho
  by_cases hn : q.number = p.number
  · simp [growEntry, LayoutPart.modeOrOriginal, hn]
  · simp only [growEntry, LayoutPart.modeOrOriginal, hn, if_false]
    split <;> simp [hn]

end Grow

/-! ### The sectors it takes -/

section Room

variable {s : Schema} {p : SchemaPart}

/-- The sectors of the captured disk. -/
def diskSectors (s : Schema) : ℕ := s.originalDiskBytes / s.logicalSectorBytes

lemma Accepted.numbers_ne (ha : Accepted s) {qs : List SchemaPart} (hqs : qs.Sublist s.partitions) :
    qs.Pairwise fun a b => a.number ≠ b.number := by
  have := ha.base_ok.2.2.1.sublist (hqs.map _)
  rwa [List.Nodup, List.pairwise_map] at this

/-- Partitions that share nothing fit between the first start and the end of the disk. -/
lemma Accepted.sum_le (ha : Accepted s) {qs : List SchemaPart} (hqs : qs.Sublist s.partitions)
    (hap : ∀ a ∈ qs, ∀ b ∈ qs, (a.kind = some .extended → b.kind ≠ some .logical) ∧
      (a.kind = some .logical → b.kind ≠ some .extended)) :
    (qs.map (·.originalSectors)).sum ≤ diskSectors s - smallestStart s := by
  have hpw : qs.Pairwise fun a b => a.originalEnd ≤ b.startSectors ∨
      b.originalEnd ≤ a.startSectors := by
    refine (ha.numbers_ne hqs).imp_of_mem fun {a b} hma hmb hn => ?_
    have h1 := ha.disjoint a (hqs.subset hma) b (hqs.subset hmb) hn (hap a hma b hmb).1
      (hap a hma b hmb).2
    simp only [sourceOverlap, Bool.and_eq_false_iff, decide_eq_false_iff_not, not_lt] at h1
    omega
  have hsum := sum_le_of_apart (fun q : SchemaPart => q.startSectors) SchemaPart.originalEnd hpw
    fun q hq => ⟨smallestStart_le (hqs.subset hq), ha.end_le (hqs.subset hq)⟩
  have hlen : (qs.map fun q => q.originalEnd - q.startSectors) = qs.map (·.originalSectors) :=
    List.map_congr_left fun q _ => Nat.add_sub_cancel_left _ _
  rw [hlen] at hsum
  exact hsum

/-- The logical partitions and their EBRs fit into the container. -/
lemma Accepted.logicals_le (ha : Accepted s) {x : SchemaPart} (hx : x ∈ s.partitions)
    (hk : x.kind = some .extended) :
    ((s.partitions.filter (·.kind == some .logical)).map fun q => 2 + q.originalSectors).sum ≤
      x.originalSectors := by
  have hmem : ∀ q ∈ s.partitions.filter (·.kind == some .logical), q ∈ s.partitions ∧
      q.kind = some .logical :=
    fun q hq => ⟨List.mem_of_mem_filter hq, by simpa using (List.mem_filter.mp hq).2⟩
  have hpw : (s.partitions.filter (·.kind == some .logical)).Pairwise fun a b =>
      a.originalEnd ≤ b.startSectors - 2 ∨ b.originalEnd ≤ a.startSectors - 2 := by
    refine (ha.numbers_ne List.filter_sublist).imp_of_mem fun {a b} hma hmb hn => ?_
    have h1 := ha.spaced a (hmem a hma).1 b (hmem b hmb).1 (hmem a hma).2 (hmem b hmb).2 hn
    omega
  have hin : ∀ q ∈ s.partitions.filter (·.kind == some .logical),
      x.startSectors ≤ q.startSectors - 2 ∧ q.originalEnd ≤ x.originalEnd := by
    intro q hq
    have := ha.captured.inside q (hmem q hq).1 (hmem q hq).2 x hx hk
    omega
  have hsum :=
    sum_le_of_apart (fun q : SchemaPart => q.startSectors - 2) SchemaPart.originalEnd hpw hin
  have hlen :
      ((s.partitions.filter (·.kind == some .logical)).map
        fun q => q.originalEnd - (q.startSectors - 2)) =
      (s.partitions.filter (·.kind == some .logical)).map fun q => 2 + q.originalSectors := by
    refine List.map_congr_left fun q hq => ?_
    have h1 := ha.captured.inside q (hmem q hq).1 (hmem q hq).2 x hx hk
    have h2 : q.originalEnd = q.startSectors + q.originalSectors := rfl
    omega
  rw [hlen] at hsum
  have h2 : x.originalEnd = x.startSectors + x.originalSectors := rfl
  omega

/-- A schema without a container has no logical partitions. -/
lemma Accepted.plain (ha : Accepted s) (hm : mbrExtended s = false) :
    ∀ q ∈ s.partitions, q.kind ≠ some .extended := by
  intro q hq hk
  have hv : s.version = 2 := (ha.captured.kinds q hq).mp (by simp [hk])
  have ht : s.partitionTable = .mbr := by
    cases ht : s.partitionTable with
    | gpt => exact absurd hk (ha.captured.gpt ht q hq).1
    | mbr => rfl
  have hany : s.partitions.any (·.kind == some .extended) = true :=
    List.any_eq_true.mpr ⟨q, hq, by simpa using hk⟩
  simp [mbrExtended, hv, ht, hany] at hm

/-- What a leaf takes of the captured disk: its sectors, and two more for an EBR. -/
def captureSpan (e : AllocEnv) (q : SchemaPart) : ℕ := e.gap q + q.originalSectors

variable {e : AllocEnv} {lp : List LayoutPart} {work : List SchemaPart} {l : Layout}

/-- The logical leaves are the logical partitions. -/
lemma Documents.logicals_perm (d : Documents s l e lp work) {x : SchemaPart} {ebr : ℕ}
    (hx : e.extended = some (x, ebr)) :
    (work.filter (·.kind == some .logical)).Perm
      (s.partitions.filter (·.kind == some .logical)) := by
  have hc := (d.container hx).1
  have hk : x.kind = some .extended := by
    have hmem : x ∈ ofKind s .extended := by rw [hc.only]; exact List.mem_singleton_self x
    exact (mem_ofKind.mp hmem).2
  have := (workParts_perm (extendedWithEbr_some (hx ▸ d.extended)).1 d.work_ok hc.only).filter
    (·.kind == some .logical)
  rwa [List.filter_append, List.filter_cons_of_neg (by simp [hk]), List.filter_nil,
    List.append_nil] at this

/-- **The leaves, their EBRs and the container's tail are no more than the captured disk.** -/
lemma Accepted.span_le (ha : Accepted s) (d : Documents s l e lp work)
    (hdisk : smallestStart s ≤ diskSectors s) {t : ℕ}
    (ht : ∀ x ebr, e.extended = some (x, ebr) →
      t + ((s.partitions.filter (·.kind == some .logical)).map (captureSpan e)).sum ≤
        max x.minSectors ((s.partitions.filter (·.kind == some .logical)).map (captureSpan e)).sum)
    (hnone : e.extended = none → t = 0) :
    smallestStart s + (work.map (captureSpan e)).sum + t ≤ diskSectors s := by
  rcases hx : e.extended with _ | ⟨x, ebr⟩
  · have hm := extendedWithEbr_none (hx ▸ d.extended)
    have hspan : work.map (captureSpan e) = work.map (·.originalSectors) :=
      List.map_congr_left fun q _ => by simp [captureSpan, AllocEnv.gap, hx]
    have hperm : work.Perm s.partitions := by
      rw [workParts_plain hm d.work_ok]
      exact List.perm_insertionSort _ _
    have hsum := ha.sum_le (List.Sublist.refl s.partitions) fun a hma b hmb =>
      ⟨fun h => absurd h (ha.plain hm a hma), fun _ h => ha.plain hm b hmb h⟩
    rw [hspan, (hperm.map _).sum_eq, hnone hx]
    omega
  · obtain ⟨hm, hhead, hebr⟩ := extendedWithEbr_some (hx ▸ d.extended)
    obtain ⟨y, hy, hc, hys, hyk⟩ := ha.ofKind_extended hm
    obtain rfl : y = x := by
      rw [hy, List.head?_cons] at hhead
      exact Option.some.inj hhead
    obtain rfl : ebr = 2 := by
      simp only [containerCheck, Bool.and_eq_true, beq_iff_eq] at hc
      rw [hc.1.2] at hebr
      exact (Option.some.inj hebr).symm
    have htail := ht y 2 hx
    set isLog : SchemaPart → Bool := (·.kind == some .logical) with hisLog
    -- the leaves are the logical partitions and the primary ones
    have hwork : (work ++ [y]).Perm s.partitions := workParts_perm hm d.work_ok hy
    have hsplit : (work.filter isLog ++ work.filter (!isLog ·)).Perm work :=
      List.filter_append_perm isLog work
    have hlogs : (work.filter isLog).Perm (s.partitions.filter isLog) := d.logicals_perm hx
    have hrest : (work.filter (!isLog ·) ++ [y]).Perm (s.partitions.filter (!isLog ·)) := by
      have := hwork.filter (!isLog ·)
      rwa [List.filter_append, List.filter_cons_of_pos (by simp [hisLog, hyk]),
        List.filter_nil] at this
    have hsum : (work.map (captureSpan e)).sum =
        ((s.partitions.filter isLog).map (captureSpan e)).sum +
        ((work.filter (!isLog ·)).map (·.originalSectors)).sum := by
      rw [← (hsplit.map _).sum_eq, List.map_append, List.sum_append, (hlogs.map _).sum_eq]
      congr 2
      refine List.map_congr_left fun q hq => ?_
      have hk : q.kind ≠ some .logical := by simpa [hisLog] using (List.mem_filter.mp hq).2
      simp [captureSpan, AllocEnv.gap, hx, hk]
    have houter := @Accepted.sum_le s ha (s.partitions.filter (!isLog ·)) List.filter_sublist
      fun a hma b hmb => by
      have h1 : a.kind ≠ some .logical := by simpa [hisLog] using (List.mem_filter.mp hma).2
      have h2 : b.kind ≠ some .logical := by simpa [hisLog] using (List.mem_filter.mp hmb).2
      exact ⟨fun _ => h2, fun h => absurd h h1⟩
    rw [← (hrest.map _).sum_eq, List.map_append, List.sum_append, List.map_singleton,
      List.sum_singleton] at houter
    have hlog : ((s.partitions.filter isLog).map (captureSpan e)).sum ≤ y.originalSectors := by
      have hspan : (s.partitions.filter isLog).map (captureSpan e) = (s.partitions.filter isLog).map
          fun q => 2 + q.originalSectors := by
        refine List.map_congr_left fun q hq => ?_
        have hk : q.kind = some .logical := by simpa [hisLog] using (List.mem_filter.mp hq).2
        simp [captureSpan, AllocEnv.gap, hx, hk]
      rw [hspan]
      exact ha.logicals_le hys hyk
    have hmin := (ha.base_ok.2.2.2 y hys).2.1
    rw [hsum]
    omega

lemma workParts_length_le (h : workParts s lp = .ok work) : work.length ≤ s.partitions.length := by
  cases hm : mbrExtended s with
  | false =>
    rw [workParts_plain hm h]
    exact (List.length_insertionSort _ _).le
  | true =>
    obtain ⟨x, -, rfl⟩ := workParts_container hm h
    rw [List.length_insertionSort]
    exact (List.length_filter_le _ _).trans (List.perm_insertionSort _ _).length_eq.le

/-- The tail is kept once. -/
lemma AllocEnv.Prepared.sum_tails_le (hp : e.Prepared) (r : ℕ) :
    (e.items.map fun it => e.tailAfter r it.p).sum ≤ e.extendedTailSectors r := by
  refine le_trans (List.sum_le_sum fun it _ => ?_)
    (sum_if_number_le hp.numbers e.lastLogicalNumber _)
  by_cases hc : e.extended.isSome ∧ e.Closes it
  · rw [AllocEnv.tailAfter_closes hc.1 hc.2, if_pos hc.2.2]
  · rw [AllocEnv.tailAfter_not_closes hc]
    exact Nat.zero_le _

/-- The tail makes up what the captured logical partitions leave of the container. -/
lemma Documents.tail_le (d : Documents s l e lp work) {r : ℕ} (hen : e.Enough r) {x : SchemaPart}
    {ebr : ℕ} (hx : e.extended = some (x, ebr)) :
    e.extendedTailSectors r +
      ((s.partitions.filter (·.kind == some .logical)).map (captureSpan e)).sum ≤
      max x.minSectors
        ((s.partitions.filter (·.kind == some .logical)).map (captureSpan e)).sum := by
  have hsome : e.extended.isSome := by rw [hx]; rfl
  have hperm : ((e.items.filter (·.p.kind == some .logical)).map (·.p)).Perm
      (s.partitions.filter (·.kind == some .logical)) := by
    have h1 : (e.items.filter (·.p.kind == some .logical)).map (·.p) =
        work.filter (·.kind == some .logical) := by
      rw [← d.items_p, List.filter_map]
      rfl
    rw [h1]
    exact d.logicals_perm hx
  have hfoot : ((s.partitions.filter (·.kind == some .logical)).map (captureSpan e)).sum ≤
      e.logicalFootprint ebr r := by
    rw [← (hperm.map _).sum_eq, List.map_map]
    unfold AllocEnv.logicalFootprint
    rw [d.prepared.logicalItems_eq hsome]
    have hlist : ∀ its : List Item, (∀ it ∈ its, it ∈ e.items) →
        (its.map (captureSpan e ∘ fun it => it.p)).sum ≤
        its.length * ebr + (its.map (e.sizeOf r)).sum := by
      intro its hits
      induction its with
      | nil => exact Nat.zero_le _
      | cons it its ih =>
        have h1 := hen it (hits it List.mem_cons_self)
        have h2 := ih fun it' h => hits it' (List.mem_cons_of_mem _ h)
        have h3 : e.gap it.p ≤ ebr := by
          simp only [AllocEnv.gap, hx]
          split <;> omega
        simp only [List.map_cons, List.sum_cons, List.length_cons, Function.comp_apply, captureSpan,
          Nat.add_mul] at h2 ⊢
        omega
    exact hlist _ fun it hit => List.mem_of_mem_filter hit
  simp only [AllocEnv.extendedTailSectors, hx]
  split <;> omega

/-- **The end of an allocation that rounds the captured sizes up**: at most three roundings for
every leaf, and one at the front. -/
lemma Accepted.cursor_le (ha : Accepted s) (d : Documents s l e lp work) {r : ℕ} (hen : e.Enough r)
    (hsize : ∀ it ∈ e.items, alignUp (e.sizeOf r it) (alignment e.logical) ≤ it.p.originalSectors +
      alignment e.logical) :
    e.cursorFrom r e.front e.items ≤ diskSectors s + (3 * s.partitions.length + 1) *
      alignment e.logical := by
  have hapos := alignment_pos e.logical
  set A := alignment e.logical with hA
  have hbound := AllocEnv.resolveLeaves_cursor_le e r (e.resolveLeaves_eq hen)
  have hfront : smallestStart s = e.front := by
    unfold smallestStart
    rw [d.front, Option.getD_some]
  have hroom : (e.items.map (e.room r)).sum ≤
      (work.map (captureSpan e)).sum + (e.items.map fun it => e.tailAfter r it.p).sum +
        e.items.length * (3 * A) := by
    rw [← d.items_p, List.map_map]
    have hlist : ∀ its : List Item, (∀ it ∈ its, it ∈ e.items) → (its.map (e.room r)).sum ≤
        (its.map (captureSpan e ∘ fun it => it.p)).sum + (its.map fun it => e.tailAfter r it.p).sum
          + its.length * (3 * A) := by
      intro its hits
      induction its with
      | nil => exact Nat.zero_le _
      | cons it its ih =>
        have h1 := hsize it (hits it List.mem_cons_self)
        have h2 := ih fun it' h => hits it' (List.mem_cons_of_mem _ h)
        have h3 := alignUp_lt hapos (e.gap it.p)
        have h4 := alignUp_lt hapos (e.tailAfter r it.p)
        have h5 : e.room r it = alignUp (e.gap it.p) A + alignUp (e.sizeOf r it) A +
            alignUp (e.tailAfter r it.p) A := rfl
        have h6 : (captureSpan e ∘ fun it : Item => it.p) it = e.gap it.p + it.p.originalSectors :=
          rfl
        simp only [List.map_cons, List.sum_cons, List.length_cons, h5, h6, Nat.add_mul]
        omega
    exact hlist _ fun it hit => hit
  have htails := d.prepared.sum_tails_le r
  have hdisk : smallestStart s ≤ diskSectors s := by
    obtain ⟨q, hq⟩ := List.exists_mem_of_ne_nil _ ha.base_ok.2.1
    have h1 := smallestStart_le hq
    have h2 := ha.end_le hq
    have h3 : q.originalEnd = q.startSectors + q.originalSectors := rfl
    unfold diskSectors
    omega
  have hspan := ha.span_le d hdisk (t := e.extendedTailSectors r) (fun x ebr hx => d.tail_le hen hx)
    fun hx => by simp [AllocEnv.extendedTailSectors, hx]
  have hlen : e.items.length ≤ s.partitions.length := by
    have h1 : e.items.length = work.length := by rw [← d.items_p, List.length_map]
    have h2 := (workParts_length_le d.work_ok)
    omega
  have hmul : e.items.length * (3 * A) ≤ s.partitions.length * (3 * A) :=
    Nat.mul_le_mul_right _ hlen
  have hup := alignUp_lt hapos e.front
  have hring : (3 * s.partitions.length + 1) * A = s.partitions.length * (3 * A) + A := by ring
  rw [hring]
  show e.cursorFrom r e.front e.items ≤ _
  have hbound : e.cursorFrom r e.front e.items ≤ alignUp e.front A + (e.items.map (e.room r)).sum :=
    hbound
  omega

end Room

/-! ### Growing -/

section Feasible

variable {s : Schema} {p : SchemaPart}

/-- **When one partition can grow.**  The layout is resolved exactly where the captured sizes, the
growing one rounded up to the alignment, can be allocated; that is so on every disk with room for
the reserve at its end and for three roundings of every partition. -/
theorem grow_resolved_iff (ha : Accepted s) (hin : Occupied s) (hp : p ∈ s.partitions)
    (hgrow : physicalGrowthSupported p s.logicalSectorBytes s.lvm = true) :
    ∃ e, allocEnv s (growLayout s p.number) = .ok e ∧ ∀ target,
      ((∃ plan, resolveLayout s (growLayout s p.number) target = .ok plan) ↔
        e.EndsBy (limitOf s e target)
          (alignUp p.originalSectors (alignment s.logicalSectorBytes))) ∧
      (diskSectors s + backReserve s (smallestStart s) + (3 * s.partitions.length + 1) * alignment
        s.logicalSectorBytes ≤ target →
        ∃ plan, resolveLayout s (growLayout s p.number) target = .ok plan) := by
  obtain ⟨-, -, hnd, hrec⟩ := ha.base_ok
  obtain ⟨e, work, he, -, hitems⟩ := ha.allocEnv_grow hin hp hgrow
  obtain ⟨lp, work', d⟩ := allocEnv_ok he
  have hone := growLayout_only hnd hp
  obtain ⟨pre, it, post, hs, hn⟩ := d.split hone
  have hit : it ∈ e.items := by
    rw [hs.items]
    simp
  obtain rfl : it.p = p :=
    List.inj_on_of_nodup_map hnd ((mem_work d.work_ok).mp (d.mem_work_of_item hit)).1 hp hn
  have hapos := alignment_pos s.logicalSectorBytes
  set m := alignUp it.p.originalSectors (alignment s.logicalSectorBytes) with hm
  have hlogical := d.logical
  have hdvd : alignment e.logical ∣ m := by
    rw [hlogical]
    exact dvd_alignUp _ _
  have hmin : it.p.originalSectors ≤ m := le_alignUp hapos _
  -- the modes of the items
  have hmode : ∀ it' ∈ e.items, it'.mode ≠ .remaining → it'.mode = .original := by
    intro it' hit' hne
    rw [hitems] at hit'
    obtain ⟨q, -, rfl⟩ := List.mem_map.mp hit'
    unfold growItem at hne ⊢
    simp only at hne ⊢
    split at hne
    · exact absurd rfl hne
    next h => rw [if_neg h]
  have hsize : ∀ it' ∈ e.items, it'.mode ≠ .remaining → e.sizeOf m it' = it'.p.originalSectors := by
    intro it' hit' hne
    rw [AllocEnv.sizeOf_of_ne hne]
    unfold preSize
    rw [hmode it' hit' hne]
  have hen : e.Enough m := by
    intro it' hit'
    by_cases hr : it'.mode = .remaining
    · rw [hs.eq_of_remaining hit' hr, AllocEnv.sizeOf_remaining hs.mode]
      exact hmin
    · rw [hsize it' hit' hr]
  have hiff : ∀ target, (∃ plan, resolveLayout s (growLayout s it.p.number) target = .ok plan) ↔
      e.EndsBy (limitOf s e target) m := by
    intro target
    constructor
    · rintro ⟨plan, hplan⟩
      obtain ⟨e', he', -, hok⟩ := (resolveLayout_remaining hone).mp hplan
      rw [he, Except.ok.injEq] at he'
      subst he'
      obtain ⟨r, hgreatest, -⟩ := hs.greatest_of_ok d.prepared hok
      obtain ⟨hd, hends⟩ := hgreatest.1
      have hle : m ≤ r := by
        rw [hlogical] at hd
        exact alignUp_le_of_dvd hapos hd (hs.original_le (e.endsBy_iff.mp hends).1)
      exact hs.fits_down d.prepared hle hdvd hd hmin hends
    · intro hends
      have hfit : m ∈ e.Fitting (limitOf s e target) := ⟨hdvd, hends⟩
      obtain ⟨r, plan, -, -, hok⟩ := hs.resolveAdjusted_of_fitting d.prepared hfit
      have hpos := (hrec it.p hp).1
      have havail : 0 < availableOf s e target := by
        rw [d.available_eq]
        have := hs.le_between hends
        omega
      exact ⟨plan, (resolveLayout_remaining hone).mpr ⟨e, he, havail, hok⟩⟩
  refine ⟨e, he, fun target => ⟨hiff target, fun htarget => (hiff target).mpr ?_⟩⟩
  have hcursor := ha.cursor_le d hen fun it' hit' => by
    by_cases hr : it'.mode = .remaining
    · rw [AllocEnv.sizeOf_remaining hr]
      have h1 : alignUp m (alignment e.logical) ≤ m :=
        alignUp_le_of_dvd (alignment_pos _) hdvd le_rfl
      have h2 := alignUp_lt hapos it.p.originalSectors
      rw [hs.eq_of_remaining hit' hr, hlogical] at *
      omega
    · rw [hsize it' hit' hr]
      exact (alignUp_lt (alignment_pos _) _).le
  have hfront : smallestStart s = e.front := by
    unfold smallestStart
    rw [d.front, Option.getD_some]
  refine e.endsBy_iff.mpr ⟨hen, ?_⟩
  unfold limitOf
  rw [hlogical] at hcursor
  rw [hfront] at htarget
  omega

end Feasible

/-! ### A disk that is full -/

lemma gptSchema_accepted : Accepted gptSchema := by
  refine ⟨by decide +kernel, ⟨?_, ?_, ?_, ?_, ?_⟩, ?_, ?_, ?_, ?_⟩ <;> decide

/-- The captured disk has no room for its own partition, once its size is a multiple of the
alignment. -/
theorem grow_not_resolved : Accepted gptSchema ∧ (∃ p ∈ gptSchema.partitions, p.number = 1 ∧
    physicalGrowthSupported p gptSchema.logicalSectorBytes gptSchema.lvm = true) ∧
    gptSchema.originalDiskBytes ≤ sourceDisk.bytes ∧
    sourceDisk.bytes = 100000 * gptSchema.logicalSectorBytes ∧
    ¬ ∃ plan, resolveLayout gptSchema (growLayout gptSchema 1) 100000 = .ok plan := by
  refine ⟨gptSchema_accepted, by decide, le_rfl, rfl, ?_⟩
  rintro ⟨plan, hplan⟩
  have hfail : (resolveLayout gptSchema (growLayout gptSchema 1) 100000).isOk =
      false := by decide +kernel
  rw [hplan] at hfail
  cases hfail

/-- On twice the disk the partition grows. -/
theorem grow_resolved_double :
    Accepted gptSchema ∧ ∃ plan,
      resolveLayout gptSchema (growLayout gptSchema 1) 200000 = .ok plan := by
  obtain ⟨e, -, h⟩ := grow_resolved_iff gptSchema_accepted (fun hm => absurd hm (by decide))
    (List.mem_singleton_self _) (by decide)
  exact ⟨gptSchema_accepted, (h 200000).2 (by decide)⟩

end Pxeos.Deploy
