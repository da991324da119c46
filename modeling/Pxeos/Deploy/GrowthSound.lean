import Mathlib.Data.List.ReduceOption
import Pxeos.Deploy.Growth

/-!
# The gate, the plan and the executor agree

Why a growth that was let through before the permit is never refused after the disk was written.  A
leaf that is larger in the plan has a mode of its own, and a leaf with a mode of its own has passed
`physical_growth_supported` (`growth_of_resolved`); that leaves a handful of filesystems, for each
of which the three functions are compared.
-/

namespace Pxeos.Deploy

open Pxeos.Lib

/-! ### Leaves that grow -/

lemma growth_of_mkItem {s : Schema} {x : SchemaPart × LayoutPart} {it : Item}
    (h : mkItem s x = .ok it) (hm : it.mode ≠ .original) :
    physicalGrowthSupported it.p s.logicalSectorBytes s.lvm = true := by
  obtain ⟨p, o⟩ := x
  simp only [mkItem, bind_eq_ok, errorIf_eq_ok, pure_eq_ok] at h
  obtain ⟨-, -, -, -, -, -, -, -, -, h1, -, -, rfl⟩ := h
  have hm : o.modeOrOriginal ≠ .original := hm
  simpa [hm] using h1

namespace AdjustedRun

variable {s : Schema} {l : Layout} {target : ℕ} {plan : List ResolvedPart}
  {run : AdjustedRun s l target plan}

/-- A leaf of the plan is one of the allocation. -/
lemma LeafRun.leaf_of_mem (lr : run.LeafRun) {r : ResolvedPart} (hr : r ∈ plan) {p : SchemaPart}
    (hp : p ∈ s.partitions) (hn : r.number = p.number) (hk : p.kind ≠ some .extended) :
    ∃ a ∈ lr.ps, a.2 = r := by
  rcases hx : run.extended with _ | ⟨x, ebr⟩
  · have hplan := lr.plan_eq
    rw [hx] at hplan
    exact List.mem_map.mp (hplan ▸ hr)
  · obtain ⟨box, hb⟩ := lr.derived hx
    rw [hb.leaves.mem_iff, List.mem_append, List.mem_singleton] at hr
    rcases hr with hr | rfl
    · exact List.mem_map.mp hr
    · -- the container has the number of its record
      obtain ⟨start, size, hbox⟩ := hb.record
      obtain ⟨hxs, hxk⟩ := container_mem hx
      have hxn : x.number = p.number := by rw [← hn, hbox]; rfl
      have hxp : x = p := List.inj_on_of_nodup_map run.schema_nodup hxs hp hxn
      exact absurd (hxp ▸ hxk) hk

lemma LeafRun.growth (lr : run.LeafRun) {a : Item × ResolvedPart} (ha : a ∈ lr.ps)
    (hlt : a.1.p.originalSectors < a.2.resolvedSectors) :
    physicalGrowthSupported a.1.p s.logicalSectorBytes s.lvm = true := by
  have hit : a.1 ∈ run.items := lr.items_eq ▸ List.mem_map_of_mem ha
  obtain ⟨x, -, hx⟩ := exists_left_of_forall₂ (mapM_ok run.items_ok) hit
  refine growth_of_mkItem hx fun hm => ?_
  -- an item in mode `original` keeps its size
  have hsize : run.env.sizeOf lr.r a.1 = a.1.p.originalSectors := by
    simp [AllocEnv.sizeOf, preSize, hm]
  rw [(lr.placed a ha).resolved_eq, hsize] at hlt
  exact lt_irrefl _ hlt

end AdjustedRun

/-- **A leaf never shrinks, and it grows only where that is supported.** -/
theorem growth_of_resolved {s : Schema} {l : Layout} {target : ℕ} {plan : List ResolvedPart}
    (hnd : (s.partitions.map (·.number)).Nodup) (h : resolveLayout s l target = .ok plan)
    {p : SchemaPart} (hp : p ∈ s.partitions) (hk : p.kind ≠ some .extended) {r : ResolvedPart}
    (hr : r ∈ plan) (hn : r.number = p.number) :
    p.originalSectors ≤ r.resolvedSectors ∧
      (p.originalSectors < r.resolvedSectors →
        physicalGrowthSupported p s.logicalSectorBytes s.lvm = true) := by
  rcases (resolveLayout_cases h).2 with ⟨-, horig⟩ | ⟨-, ⟨run⟩⟩
  · obtain ⟨rfl, -⟩ := resolveOriginal_ok horig
    obtain ⟨q, hq, rfl⟩ := List.mem_map.mp hr
    have hqp : q = p := List.inj_on_of_nodup_map hnd (mem_sortByNumber.mp hq) hp hn
    subst hqp
    exact ⟨le_rfl, fun hlt => absurd hlt (lt_irrefl _)⟩
  · obtain ⟨lr, -⟩ := run.leafRun
    obtain ⟨a, ha, rfl⟩ := lr.leaf_of_mem hr hp hn hk
    have hap : a.1.p = p :=
      List.inj_on_of_nodup_map hnd (lr.source_schema ha) hp
        ((lr.placed a ha).number_eq.symm.trans hn)
    subst hap
    refine ⟨?_, lr.growth ha⟩
    rw [(lr.placed a ha).resolved_eq]
    exact (lr.placed a ha).size

/-! ### The filesystems of a supported growth -/

/-- The filesystems for which `expandPartition` has a branch. -/
def growable : List String :=
  ["ext2", "ext3", "ext4", "ntfs", "btrfs", "f2fs", "vfat", "fat", "xfs"]

/-- What `blkid` says of a filesystem of the schema, where `fat` is another name of `vfat`. -/
def blkidName (fs : String) : String := if fs = "fat" then "vfat" else fs

/-- A partition whose growth is supported is a swap, a physical volume or has a filesystem that can
grow. -/
inductive Supported (p : SchemaPart) : Prop where
  | swap (fs : p.fs = "swap") (role : p.role = .swap)
  | volume (fs : p.fs = "LVM2_member") (role : p.role = .lvmPv)
  | filesystem (fs : p.fs ∈ growable) (noSwap : p.role ≠ .swap) (noVolume : p.role ≠ .lvmPv)

lemma supported {p : SchemaPart} {logical : ℕ} {lvm : Option LvmSchema}
    (h : physicalGrowthSupported p logical lvm = true) : Supported p := by
  unfold physicalGrowthSupported at h
  split at h
  · rename_i hs
    exact .swap hs.2.1 hs.2.2.1
  · split at h
    · cases h
    · rename_i hs
      rw [not_or] at hs
      split at h
      · cases h
      · split at h
        · rename_i hr
          refine .volume ?_ hr
          cases lvm with
          | none => cases h
          | some lvm =>
            simp only [verifiedLvmPv, Bool.and_eq_true, beq_iff_eq] at h
            simp only [h]
        · rename_i hr
          refine .filesystem ?_ hs.2 hr
          unfold growable
          split at h
          · rename_i hfs
            simp only [List.mem_cons, List.not_mem_nil, or_false] at hfs ⊢
            tauto
          · split at h
            · rename_i hfs
              have := hfs.1
              simp only [List.mem_cons, List.not_mem_nil, or_false] at this ⊢
              tauto
            · cases h

/-- What the plan leaves out, whatever its size. -/
def LeftOut (p : SchemaPart) : Prop :=
  p.role = .swap ∨ p.fs = "swap" ∨ p.role = .lvmPv ∨ p.fs = "LVM2_member" ∨ reservedType p = true

lemma Supported.leftOut_iff {p : SchemaPart} (h : Supported p) :
    LeftOut p ↔ p.fs = "swap" ∨ p.fs = "LVM2_member" := by
  unfold LeftOut
  cases h with
  | swap fs role => simp [fs]
  | volume fs role => simp [fs]
  | filesystem fs noSwap noVolume =>
    have hres : reservedType p = false := by
      have : p.fs ≠ "" := by
        rintro h
        rw [h] at fs
        exact absurd fs (by decide)
      simp [reservedType, this]
    simp [noSwap, noVolume, hres]

/-- `expandPartition` grows each of them. -/
lemma expandPartition_grows {fs : String} (h : fs ∈ growable) {number : Str} (hne : number ≠ []) :
    ∃ fstype, expandPartition number [] true true (blkidName fs) = .grow fstype := by
  have hfixed : number ∉ ([] : Str).splitOn ':' := by simpa using hne
  unfold expandPartition
  rw [if_neg hfixed]
  simp only [growable, List.mem_cons, List.not_mem_nil, or_false] at h
  rcases h with rfl | rfl | rfl | rfl | rfl | rfl | rfl | rfl | rfl
  all_goals exact ⟨_, rfl⟩

/-! ### A validated plan -/

/-- A partition other than the container that is larger in the plan. -/
def Grown (plan : List ResolvedPart) (p : SchemaPart) : Prop :=
  p.kind ≠ some .extended ∧ ∃ r ∈ plan, r.number = p.number ∧ p.originalSectors < r.resolvedSectors

lemma Grown.of_record {plan : List ResolvedPart} {p : SchemaPart} (hk : p.kind ≠ some .extended)
    {r : ResolvedPart} (hr : r ∈ plan) (hn : r.number = p.number)
    (hlt : p.originalSectors < r.resolvedSectors) : Grown plan p :=
  ⟨hk, r, hr, hn, hlt⟩

namespace Validated

variable {disk : Disk} {s : Schema} {l : Layout} {plan : List ResolvedPart}
  (hv : Validated disk s l plan)
include hv

lemma schema_nodup : (s.partitions.map (·.number)).Nodup := by
  obtain ⟨-, -, h, -⟩ := originalContract_iff.mp hv.contract
  exact nodup_of_dedup_length (by rw [h, List.length_map])

lemma original_pos {p : SchemaPart} (hp : p ∈ s.partitions) : 0 < p.originalSectors :=
  one_le_of_geometryOk ((originalContract_iff.mp hv.contract).2.1 p hp).2

lemma exists_bounded : ∃ limit, Bounded s limit plan := by
  rcases (resolveLayout_cases hv.resolved).2 with ⟨-, horig⟩ | ⟨-, ⟨run⟩⟩
  · exact ⟨_, bounded_original horig⟩
  · obtain ⟨lr, -⟩ := run.leafRun
    exact ⟨_, lr.bounded fun p hp => hv.original_pos hp⟩

lemma plan_numbers : (plan.map (·.number)).Perm (s.partitions.map (·.number)) :=
  hv.exists_bounded.choose_spec.numbers

lemma exists_source {r : ResolvedPart} (hr : r ∈ plan) : ∃ p ∈ s.partitions, p.number = r.number :=
  List.mem_map.mp (hv.plan_numbers.mem_iff.mp (List.mem_map_of_mem (f := fun q => q.number) hr))

lemma supported_of_grown {p : SchemaPart} (hp : p ∈ s.partitions) (hg : Grown plan p) :
    Supported p := by
  obtain ⟨hk, r, hr, hn, hlt⟩ := hg
  exact supported ((growth_of_resolved hv.schema_nodup hv.resolved hp hk hr hn).2 hlt)

/-! ### The plan of the growth -/

/-- What the plan makes of a partition. -/
lemma activeNumber_eq {r : ResolvedPart} (hr : r ∈ plan) {p : SchemaPart} (hp : p ∈ s.partitions)
    (hn : p.number = r.number) :
    ∃ o, activeNumber s r = .ok o ∧ ∀ n, o = some n ↔
      n = p.number ∧ p.kind ≠ some .extended ∧ p.originalSectors < r.resolvedSectors ∧
      ¬ LeftOut p := by
  have hfind : s.partitions.find? (·.number == r.number) = some p := by
    cases hf : s.partitions.find? (·.number == r.number) with
    | none =>
      have := List.find?_eq_none.mp hf p hp
      simp [hn] at this
    | some q =>
      have hqn := List.find?_some hf
      rw [beq_iff_eq, ← hn] at hqn
      rw [List.inj_on_of_nodup_map hv.schema_nodup (List.mem_of_find?_eq_some hf) hp hqn]
  unfold activeNumber
  rw [hfind]
  dsimp only
  by_cases hk : p.kind = some .extended
  · rw [if_pos hk]
    exact ⟨none, rfl, by simp [hk]⟩
  · have hpos := hv.original_pos hp
    have hle := (growth_of_resolved hv.schema_nodup hv.resolved hp hk hr hn.symm).1
    rw [if_neg hk, if_neg (by omega), if_neg (by omega)]
    split
    · rename_i hout
      have hout : LeftOut p := hout
      exact ⟨none, rfl, by simp [hout]⟩
    · rename_i hout
      have hout : ¬ LeftOut p := hout
      by_cases hlt : r.resolvedSectors > p.originalSectors
      · rw [if_pos hlt]
        refine ⟨_, rfl, fun n => ?_⟩
        simp [hk, hout, hlt, hn, eq_comm]
      · rw [if_neg hlt]
        refine ⟨none, rfl, fun n => ?_⟩
        simp [hlt]

/-- **The plan succeeds**, and has the numbers of the partitions that grow and that it does not
leave out. -/
theorem activeNumbers_eq : ∃ numbers, activeNumbers s plan = .ok numbers ∧
    ∀ n, n ∈ numbers ↔ ∃ p ∈ s.partitions, n = p.number ∧ Grown plan p ∧ ¬ LeftOut p := by
  have hsource := originalContract_iff.mp hv.contract
  have hnd := hv.plan_numbers.nodup_iff.mpr hv.schema_nodup
  have hrows : ∀ r ∈ plan, ∃ o, activeNumber s r = .ok o := by
    intro r hr
    obtain ⟨p, hp, hn⟩ := hv.exists_source hr
    obtain ⟨o, ho, -⟩ := hv.activeNumber_eq hr hp hn
    exact ⟨o, ho⟩
  obtain ⟨rows, hrows⟩ := exists_mapM_ok hrows
  refine ⟨rows.reduceOption, ?_, fun n => ?_⟩
  · unfold activeNumbers
    simp only [bind_eq_ok, errorIf_eq_ok, pure_eq_ok]
    refine ⟨(), ?_, (), ?_, (), ?_, (), ?_, (), ?_, (), ?_, rows, hrows, rfl⟩
    · simpa using List.length_pos_iff.mp hsource.1
    · rw [Bool.not_eq_false', List.all_eq_true]
      exact fun p hp => decide_eq_true (hsource.2.1 p hp).1
    · simpa using hsource.2.2.1
    · rw [Bool.not_eq_false', List.all_eq_true]
      intro r hr
      obtain ⟨p, hp, hn⟩ := hv.exists_source hr
      exact decide_eq_true (hn ▸ (hsource.2.1 p hp).1)
    · rw [decide_eq_false_iff_not, not_not, hnd.dedup, List.length_map]
    · rw [decide_eq_false_iff_not, not_not]
      exact List.Perm.eq_of_pairwise' (List.pairwise_insertionSort _ _)
        (List.pairwise_insertionSort _ _)
        (((List.perm_insertionSort _ _).trans hv.plan_numbers.symm).trans
          (List.perm_insertionSort _ _).symm)
  · rw [List.reduceOption_mem_iff]
    constructor
    · intro hmem
      obtain ⟨r, hr, hrow⟩ := exists_left_of_forall₂ (mapM_ok hrows) hmem
      obtain ⟨p, hp, hn⟩ := hv.exists_source hr
      obtain ⟨o, ho, hiff⟩ := hv.activeNumber_eq hr hp hn
      rw [hrow, Except.ok.injEq] at ho
      obtain ⟨rfl, hk, hlt, hout⟩ := (hiff n).mp ho.symm
      exact ⟨p, hp, rfl, .of_record hk hr hn.symm hlt, hout⟩
    · rintro ⟨p, hp, rfl, ⟨hk, r, hr, hn, hlt⟩, hout⟩
      obtain ⟨row, hrow, hrr⟩ := exists_right_of_forall₂ (mapM_ok hrows) hr
      obtain ⟨o, ho, hiff⟩ := hv.activeNumber_eq hr hp hn.symm
      rw [hrr, Except.ok.injEq] at ho
      rwa [ho, (hiff p.number).mpr ⟨rfl, hk, hlt, hout⟩] at hrow

end Validated

/-! ### The gate -/

section Gate

variable {env : Facilities} {s : Schema} {plan : List ResolvedPart}
  (hg : validateGrowthCapability env (.readable s) (.readable plan) = some ())
include hg

lemma gate_jq : env.command "jq" = true := by
  simp only [validateGrowthCapability, Option.bind_eq_bind, Option.bind_eq_some_iff,
    require_eq_some] at hg
  exact hg.choose_spec.1

/-- The gate has checked every partition that grows. -/
lemma gate_row {p : SchemaPart} (hp : p ∈ s.partitions) (hgrown : Grown plan p) :
    checkGrowth env (growthRow s p) = some () := by
  simp only [validateGrowthCapability, Option.bind_eq_bind, Option.bind_eq_some_iff,
    require_eq_some, forM_eq_some] at hg
  obtain ⟨-, -, hrows⟩ := hg
  obtain ⟨hk, r, hr, hn, hlt⟩ := hgrown
  refine hrows _ (List.mem_flatMap.mpr ⟨p, hp, List.mem_map.mpr ⟨r, ?_, rfl⟩⟩)
  rw [List.mem_filter]
  exact ⟨hr, by simp [hn, hlt, derivedContainer, hk]⟩

/-- The UUID of a swap that grows is the one that the image has recorded for it. -/
lemma gate_swap {p : SchemaPart} (hp : p ∈ s.partitions) (hgrown : Grown plan p)
    (hs : p.fs = "swap" ∨ p.role = .swap) :
    p.recreatedSwap = true ∧ ∃ uuid text, p.uuid = some uuid ∧ env.swapUuids = some text ∧
      (swapRecords p.number text).length = 1 ∧
      recordedSwapUuid p.number text = captured uuid.toList := by
  have hrow := gate_row hg hp hgrown
  have hcase : captured (growthRow s p).fs.toList = "swap".toList ∨
      (growthRow s p).role = .swap := by
    rcases hs with hs | hs
    · left
      show captured p.fs.toList = _
      rw [hs]
      decide
    · exact .inr hs
  simp only [checkGrowth, Option.bind_eq_bind, Option.bind_eq_some_iff, require_eq_some] at hrow
  obtain ⟨-, -, hrow⟩ := hrow
  rw [if_pos hcase] at hrow
  simp only [checkSwap, Option.bind_eq_bind, Option.bind_eq_some_iff, require_eq_some,
    decide_eq_true_eq,
    beq_iff_eq] at hrow
  obtain ⟨-, hswap, uuid, huuid, -, -, -, -, text, htext, -, hlen, heq⟩ := hrow
  exact ⟨hswap, uuid, text, huuid, htext, hlen, heq⟩

/-- The LVM record of a physical volume that grows is verified. -/
lemma gate_volume {p : SchemaPart} (hp : p ∈ s.partitions) (hgrown : Grown plan p)
    (hfs : p.fs = "LVM2_member") (hrole : p.role = .lvmPv) : verifiedLvm p s.lvm = true := by
  have hrow := gate_row hg hp hgrown
  have hcap : captured (growthRow s p).fs.toList = "LVM2_member".toList := by
    show captured p.fs.toList = _
    rw [hfs]
    decide
  have hr : (growthRow s p).role = .lvmPv := hrole
  simp only [checkGrowth, Option.bind_eq_bind, Option.bind_eq_some_iff, require_eq_some] at hrow
  obtain ⟨-, -, hrow⟩ := hrow
  rw [hcap, if_neg (by rw [hr]; decide)] at hrow
  obtain ⟨-, -, tools, htools, -⟩ := by
    simpa only [Option.bind_eq_bind, Option.bind_eq_some_iff, require_eq_some] using hrow
  by_contra hver
  have hver : (growthRow s p).verifiedLvm = false := Bool.not_eq_true _ ▸ hver
  have hnone : growTools "LVM2_member".toList (growthRow s p) = none := by
    unfold growTools
    rw [if_neg (by decide), if_neg (by decide), if_neg (by decide), if_neg (by decide),
      if_neg (by decide),
      if_neg (by decide), if_pos ⟨rfl, hr⟩, hver]
    rfl
  rw [hnone] at htools
  cases htools

end Gate

/-! ### The three together -/

/-- A number is listed when it is one of those of the plan. -/
lemma isListed_iff {numbers : List ℕ} (hpos : ∀ n ∈ numbers, 0 < n) {number : Str} :
    expansionPartitionIsListed number (List.intercalate [':'] (numbers.map (Nat.toDigits 10))) =
      true ↔
      ∃ n ∈ numbers, number = Nat.toDigits 10 n := by
  have hcolon : ∀ n : ℕ, ':' ∉ Nat.toDigits 10 n := by
    intro n hmem
    exact absurd (isDigit_of_mem_toDigits hmem) (by decide)
  have hwords : ∀ w ∈ numbers.map (Nat.toDigits 10), ':' ∉ w := by
    intro w hw
    obtain ⟨n, -, rfl⟩ := List.mem_map.mp hw
    exact hcolon n
  unfold expansionPartitionIsListed
  rw [Bool.and_eq_true, decide_eq_true_eq]
  constructor
  · rintro ⟨hp, hin⟩
    have hne : number ≠ [] := by
      rintro rfl
      cases hp
    rw [infix_intercalate hne (notMem_of_isPositive hp (by decide)) hwords] at hin
    obtain ⟨n, hn, rfl⟩ := List.mem_map.mp hin
    exact ⟨n, hn, rfl⟩
  · rintro ⟨n, hn, rfl⟩
    refine ⟨isPositive_toDigits (hpos n hn), ?_⟩
    rw [infix_intercalate Nat.toDigits_ne_nil (hcolon n) hwords]
    exact List.mem_map_of_mem hn

/-- **The gate, the plan and the executor agree.**  For a validated plan that the gate lets through,
the plan of the growth succeeds and lists the partitions that grow, other than the container, the
swaps and the physical volumes; the gate has compared the UUID of each of these swaps with the
recorded one and verified the LVM record of each of these volumes; and `expandPartition` has a
branch for the filesystem of everything that is listed. -/
theorem growth_agrees {v : Revision} {disk : Disk} {s : Schema} {l : Layout}
    {plan : List ResolvedPart} {env : Facilities}
    (h : validateDeploymentLayout v disk s l = some plan)
    (hg : validateGrowthCapability env (.readable s) (.readable plan) = some ()) :
    ∃ list, expansionActivePartitions env.command (.readable s) (.readable plan) = .ok list ∧
      (∀ number, expansionPartitionIsListed number list = true ↔
        ∃ p ∈ s.partitions, number = Nat.toDigits 10 p.number ∧ Grown plan p ∧
          ¬ (p.fs = "swap" ∨ p.fs = "LVM2_member")) ∧
      (∀ p ∈ s.partitions, Grown plan p → p.fs = "swap" ∨ p.role = .swap → p.recreatedSwap = true ∧
        ∃ uuid text, p.uuid = some uuid ∧ env.swapUuids = some text ∧
          (swapRecords p.number text).length = 1 ∧
          recordedSwapUuid p.number text = captured uuid.toList) ∧
      (∀ p ∈ s.partitions, Grown plan p → p.fs = "LVM2_member" ∨ p.role = .lvmPv →
        verifiedLvm p s.lvm = true) ∧
      ∀ p ∈ s.partitions, expansionPartitionIsListed (Nat.toDigits 10 p.number) list = true →
        p.fs ∈ growable ∧ ∃ fstype,
          expandPartition (Nat.toDigits 10 p.number) [] true true (blkidName p.fs) =
            .grow fstype := by
  have hv := validated h
  obtain ⟨numbers, hnumbers, hmem⟩ := hv.activeNumbers_eq
  have hpos : ∀ n ∈ numbers, 0 < n := by
    intro n hn
    obtain ⟨p, hp, rfl, -⟩ := (hmem n).mp hn
    exact ((originalContract_iff.mp hv.contract).2.1 p hp).1
  have hlisted : ∀ number, expansionPartitionIsListed number
      (List.intercalate [':'] (numbers.map (Nat.toDigits 10))) = true ↔ ∃ p ∈ s.partitions,
        number = Nat.toDigits 10 p.number ∧ Grown plan p ∧
          ¬ (p.fs = "swap" ∨ p.fs = "LVM2_member") := by
    intro number
    rw [isListed_iff hpos]
    constructor
    · rintro ⟨n, hn, rfl⟩
      obtain ⟨p, hp, rfl, hgrown, hout⟩ := (hmem n).mp hn
      exact ⟨p, hp, rfl, hgrown,
        fun hfs => hout ((hv.supported_of_grown hp hgrown).leftOut_iff.mpr hfs)⟩
    · rintro ⟨p, hp, rfl, hgrown, hfs⟩
      refine ⟨p.number, (hmem _).mpr ⟨p, hp, rfl, hgrown, fun hout => ?_⟩, rfl⟩
      exact hfs ((hv.supported_of_grown hp hgrown).leftOut_iff.mp hout)
  refine ⟨_, ?_, hlisted, fun p hp hgrown hs => gate_swap hg hp hgrown hs, ?_, ?_⟩
  · unfold expansionActivePartitions
    simp [gate_jq hg, hnumbers]
  · intro p hp hgrown hpv
    cases hv.supported_of_grown hp hgrown with
    | swap fs role => simp [fs, role] at hpv
    | volume fs role => exact gate_volume hg hp hgrown fs role
    | filesystem fs noSwap noVolume =>
      rcases hpv with hfs | hrole
      · rw [hfs] at fs
        exact absurd fs (by decide)
      · exact absurd hrole noVolume
  · intro p hp hl
    obtain ⟨q, hq, hqn, hgrown, hfs⟩ := (hlisted _).mp hl
    have hqp : q = p := List.inj_on_of_nodup_map hv.schema_nodup hq hp (toDigits_injective hqn).symm
    subst hqp
    cases hv.supported_of_grown hq hgrown with
    | swap fs role => exact absurd (.inl fs) hfs
    | volume fs role => exact absurd (.inr fs) hfs
    | filesystem fs noSwap noVolume => exact ⟨fs, expandPartition_grows fs Nat.toDigits_ne_nil⟩

/-- A swap and a filesystem, on a disk of 100000 sectors. -/
def swapSchema : Schema :=
  ⟨2, .gpt, 51200000, 512,
    [⟨1, 2048, 2048, 2048, "0657FD6D-A4AB-43C4-84E5-0933C84B4F4F", .swap, false, "swap",
      some "4b7a8a3c-3d5f-4c39-9a43-8d3f1a2b7c90", none, none, some .primary, none, none⟩,
     ⟨2, 4096, 80000, 80000, "0FC63DAF-8483-4772-8E79-3D69D8477DE4", .data, true, "ext4", none,
       some "d1p2.img", none,
      some .primary, none, none⟩], none⟩

/-- Both grow: the swap to 4 MiB, the filesystem to what is left. -/
def swapLayout : Layout :=
  ⟨some [⟨1, .value .fixed, .value 4194304, .absent⟩, entry 2 .remaining], []⟩

/-- A machine with every tool and an image that has recorded the swap. -/
def fullFacilities : Facilities :=
  ⟨fun _ => true, "/images/1", some "1 4b7a8a3c-3d5f-4c39-9a43-8d3f1a2b7c90\n".toList⟩

/-- The swap is made again and only the filesystem is listed. -/
theorem growth_agrees_swap : ∃ plan list,
    validateDeploymentLayout someRevision doubleDisk swapSchema swapLayout = some plan ∧
      expansionActivePartitions fullFacilities.command (.readable swapSchema) (.readable plan) =
        .ok list ∧
      expansionPartitionIsListed ['2'] list = true ∧ expansionPartitionIsListed ['1'] list = false ∧
      ∃ p ∈ swapSchema.partitions, Grown plan p ∧ p.recreatedSwap = true := by
  have hok : (validateDeploymentLayout someRevision doubleDisk swapSchema swapLayout).any
      (fun plan =>
      validateGrowthCapability fullFacilities (.readable swapSchema) (.readable plan) == some () &&
      plan.map (fun r => (r.number, r.resolvedSectors)) == [(1, 8192), (2, 187392)]) = true := by
    decide +kernel
  cases hplan : validateDeploymentLayout someRevision doubleDisk swapSchema swapLayout with
  | none =>
    rw [hplan] at hok
    cases hok
  | some plan =>
    rw [hplan, Option.any_some, Bool.and_eq_true, beq_iff_eq, beq_iff_eq] at hok
    have hgrown : ∀ p ∈ swapSchema.partitions, Grown plan p := by
      intro p hp
      have hsize : p.kind ≠ some .extended ∧
          ∃ x ∈ [(1, 8192), (2, 187392)], p.number = x.1 ∧ p.originalSectors < x.2 := by
        revert p
        decide
      obtain ⟨hk, x, hmem, hpn, hlt⟩ := hsize
      rw [← hok.2] at hmem
      obtain ⟨r, hr, heq⟩ := List.mem_map.mp hmem
      subst heq
      exact .of_record hk hr hpn.symm hlt
    obtain ⟨list, hlist, hmem, hswap, -, -⟩ := growth_agrees hplan hok.1
    refine ⟨plan, list, rfl, hlist, ?_, ?_, ?_⟩
    · rw [hmem]
      exact ⟨_, List.mem_cons_of_mem _ List.mem_cons_self, by decide,
        hgrown _ (by decide), by decide⟩
    · rw [Bool.eq_false_iff, ne_eq, hmem]
      rintro ⟨p, hp, hn, -, hfs⟩
      revert p
      decide
    · exact ⟨_, List.mem_cons_self, hgrown _ (by decide),
        (hswap _ (by decide) (hgrown _ (by decide)) (by decide)).1⟩

end Pxeos.Deploy
