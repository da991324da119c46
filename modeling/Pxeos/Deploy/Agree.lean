import Pxeos.Deploy.Apply
import Pxeos.Deploy.Geometry
import Mathlib.Algebra.Order.BigOperators.Group.List

/-!
# Does the writer accept what the resolver accepted?

The plan has the records of the schema (`Bounded`), so what the writer checks anew is its geometry:
`applyPlanChecks_iff`. The resolver bounds an allocated plan by the target and its two reserves, and
a kept one by the target alone; the 32-bit limits of MBR and the `last_lba` of GPT are the writer's
own.  `Writable` says where the two agree.
-/

namespace Pxeos.Deploy

open Pxeos.Lib

/-! ### The contract depends on the records only -/

/-- A record without its place on the disk. -/
def SchemaPart.unplaced (p : SchemaPart) : SchemaPart := { p with startSectors := 0 }

lemma gptContract_unplaced (ps : List SchemaPart) :
    gptContract (ps.map SchemaPart.unplaced) = gptContract ps := by
  unfold gptContract
  rw [List.length_map, List.all_map]
  rfl

lemma gptContract_perm {ps qs : List SchemaPart} (h : ps.Perm qs) :
    gptContract ps = gptContract qs := by
  unfold gptContract
  rw [h.length_eq, h.all_eq]

lemma mbrContract_unplaced (ps : List SchemaPart) :
    mbrContract (ps.map SchemaPart.unplaced) = mbrContract ps := by
  have hf : ∀ q : SchemaPart → Bool, (∀ p, q (SchemaPart.unplaced p) = q p) →
      (ps.map SchemaPart.unplaced).filter q = (ps.filter q).map SchemaPart.unplaced := by
    intro q hq
    rw [List.filter_map]
    exact congrArg _ (List.filter_congr fun p _ => hq p)
  unfold mbrContract
  rw [hf _ fun _ => rfl, hf _ fun _ => rfl, hf _ fun _ => rfl]
  simp only [List.all_map, List.length_map, List.head?_map, List.map_map, Option.map_map,
    Function.comp_def]
  rfl

/-- A table that passes does so in any order, since it has at most one container. -/
lemma mbrContract_perm {ps qs : List SchemaPart} (h : ps.Perm qs) (hps : mbrContract ps = true) :
    mbrContract qs = true := by
  unfold mbrContract at hps ⊢
  rw [← h.all_eq, ← (h.filter _).length_eq, ← h.all_eq, ← h.all_eq]
  by_cases hk : (ps.filter (·.kind.isSome)).length = 0
  · simpa only [if_pos hk] using hps
  simp only [if_neg hk, ← (h.filter _).length_eq, ← (h.filter _).all_eq] at hps ⊢
  by_cases hl : (ps.filter (·.kind == some .logical)).length = 0
  · simpa only [if_pos hl] using hps
  simp only [if_neg hl, Bool.and_eq_true, decide_eq_true_eq] at hps ⊢
  obtain ⟨hn, ⟨hkind, hone⟩, ⟨hx, hparent⟩, hsort⟩ := hps
  obtain ⟨x, hx'⟩ := List.length_eq_one_iff.mp hx
  have hq : qs.filter (·.kind == some .extended) = [x] := by
    have := h.filter (·.kind == some .extended)
    rw [hx'] at this
    exact List.perm_singleton.mp this.symm
  refine ⟨hn, ⟨hkind, hone⟩, ⟨hx, ?_⟩, ?_⟩
  · rw [hq, ← hx']
    exact hparent
  · have := (h.filter (·.kind == some .logical)).map (·.number)
    rw [← hsort]
    exact List.Perm.eq_of_pairwise' (List.pairwise_insertionSort _ _)
      (List.pairwise_insertionSort _ _)
      (((List.perm_insertionSort _ _).trans this.symm).trans (List.perm_insertionSort _ _).symm)

/-- The part of the contract about numbers, types and kinds. -/
def tableContract (table : Table) (parts : List SchemaPart) : Bool :=
  match table with
  | .gpt => gptContract parts
  | .mbr => mbrContract parts

lemma tableContract_unplaced (table : Table) (ps : List SchemaPart) :
    tableContract table (ps.map SchemaPart.unplaced) = tableContract table ps := by
  cases table with
  | gpt => exact gptContract_unplaced ps
  | mbr => exact mbrContract_unplaced ps

lemma tableContract_perm {table : Table} {ps qs : List SchemaPart} (h : ps.Perm qs)
    (hps : tableContract table ps = true) : tableContract table qs = true := by
  cases table with
  | gpt => exact (gptContract_perm h).symm.trans hps
  | mbr => exact mbrContract_perm h hps

lemma contract_iff {table : Table} {parts : List (SchemaPart × ℕ)} :
    validatePartitionLbaContract table parts = true ↔
      0 < parts.length ∧ (∀ x ∈ parts, 1 ≤ x.1.number ∧ geometryOk table x.1 x.2 = true) ∧
      (parts.map (·.1.number)).dedup.length = parts.length ∧
      tableContract table (parts.map (·.1)) = true := by
  cases table <;>
    simp only [validatePartitionLbaContract, tableContract, Bool.and_eq_true, decide_eq_true_eq,
      List.all_eq_true,
      and_assoc]

/-! ### What the plan is made of -/

/-- The records of a plan are those of the schema, from the smallest captured start on and up to a
limit. -/
structure Bounded (s : Schema) (limit : ℕ) (plan : List ResolvedPart) : Prop where
  records : (plan.map fun r => r.toSchemaPart.unplaced).Perm (s.partitions.map SchemaPart.unplaced)
  front : ∀ r ∈ plan, smallestStart s ≤ r.startSectors
  positive : ∀ r ∈ plan, 0 < r.resolvedSectors
  stop : ∀ r ∈ plan, r.stop ≤ limit

lemma resolveOriginal_ok {s : Schema} {target : ℕ} {plan : List ResolvedPart}
    (h : resolveOriginal s target = .ok plan) :
    plan = (sortByNumber s.partitions).map (fun p => p.placed p.startSectors p.originalSectors) ∧
      ∀ p ∈ s.partitions, 0 < p.originalSectors ∧ p.originalEnd ≤ target := by
  simp only [resolveOriginal, bind_eq_ok, errorIf_eq_ok, pure_eq_ok] at h
  obtain ⟨-, h1, h2⟩ := h
  refine ⟨h2.symm, fun p hp => ?_⟩
  have := List.any_eq_false.mp h1 p (mem_sortByNumber.mpr hp)
  simp only [Bool.or_eq_true, decide_eq_true_eq, not_or, not_le, not_lt] at this
  exact this

lemma smallestStart_le {s : Schema} {p : SchemaPart} (hp : p ∈ s.partitions) :
    smallestStart s ≤ p.startSectors := by
  unfold smallestStart
  cases hm : (s.partitions.map (·.startSectors)).min? with
  | none => simp
  | some m =>
    rw [Option.getD_some]
    exact (List.min?_eq_some_iff.mp hm).2 _ (List.mem_map_of_mem hp)

/-- The captured table restored verbatim. -/
lemma bounded_original {s : Schema} {target : ℕ} {plan : List ResolvedPart}
    (h : resolveOriginal s target = .ok plan) : Bounded s target plan := by
  obtain ⟨rfl, hb⟩ := resolveOriginal_ok h
  refine ⟨?_, ?_, ?_, ?_⟩
  · rw [List.map_map]
    exact (List.perm_insertionSort _ _).map _
  all_goals
    intro r hr
    obtain ⟨p, hp, rfl⟩ := List.mem_map.mp hr
    rw [mem_sortByNumber] at hp
  · exact smallestStart_le hp
  · exact (hb p hp).1
  · exact (hb p hp).2

namespace AdjustedRun

variable {s : Schema} {l : Layout} {target : ℕ} {plan : List ResolvedPart}
  {run : AdjustedRun s l target plan}

namespace LeafRun

variable (lr : run.LeafRun)

lemma leaf_unplaced {a : Item × ResolvedPart} (ha : a ∈ lr.ps) :
    a.2.toSchemaPart.unplaced = a.1.p.unplaced := by
  obtain ⟨start, hx, -⟩ := (lr.placed a ha).leaf
  rw [hx]
  rfl

lemma leaf_positive (hpos : ∀ p ∈ s.partitions, 0 < p.originalSectors) {a : Item × ResolvedPart}
    (ha : a ∈ lr.ps) :
    0 < a.2.resolvedSectors := by
  have h1 := hpos _ (lr.source_schema ha)
  have h2 := (lr.placed a ha).size
  rw [(lr.placed a ha).resolved_eq]
  omega

lemma leaf_stop_le_cursor {a : Item × ResolvedPart} (ha : a ∈ lr.ps) : a.2.stop ≤ lr.cursor := by
  have h1 := AllocEnv.stop_le_hi (e := run.env) (r := lr.r) a.2
  have h2 := (lr.packed.bounds a ha).2.2
  exact_mod_cast h1.trans h2

lemma leaves_unplaced : (lr.ps.map Prod.snd).map (fun r => r.toSchemaPart.unplaced) =
    run.work.map SchemaPart.unplaced := by
  rw [← lr.ps_p, List.map_map, List.map_map]
  exact List.map_congr_left fun a ha => lr.leaf_unplaced ha

/-- An allocated plan ends by the cursor. -/
lemma bounded (hpos : ∀ p ∈ s.partitions, 0 < p.originalSectors) : Bounded s lr.cursor plan := by
  have hfront := run.smallestStart_eq
  rcases hx : run.extended with _ | ⟨x, ebr⟩
  · have hplan : plan = lr.ps.map Prod.snd := by
      have := lr.plan_eq
      rw [hx] at this
      exact this
    have hwork := workParts_plain (extendedWithEbr_none (hx ▸ run.extended_ok)) run.work_ok
    refine ⟨?_, ?_, ?_, ?_⟩
    · rw [hplan, lr.leaves_unplaced, hwork]
      exact (List.perm_insertionSort _ _).map _
    all_goals
      intro r hr
      rw [hplan] at hr
      obtain ⟨a, ha, rfl⟩ := List.mem_map.mp hr
    · have := lr.leaf_front ha
      omega
    · exact lr.leaf_positive hpos ha
    · exact lr.leaf_stop_le_cursor ha
  · obtain ⟨box, hb⟩ := lr.derived hx
    obtain ⟨bstart, bsize, hbox⟩ := hb.record
    obtain ⟨a₀, ha₀, hfirst⟩ := hb.first
    obtain ⟨hps₀, hk₀⟩ := lr.mem_logicalPairs.mp ha₀
    have hstop₀ : a₀.2.stop = a₀.2.startSectors + a₀.2.resolvedSectors := rfl
    have hboxstop : box.stop = box.startSectors + box.resolvedSectors := rfl
    have hmem : ∀ q ∈ plan, (∃ a ∈ lr.ps, a.2 = q) ∨ q = box := by
      intro q hq
      rwa [hb.leaves.mem_iff, List.mem_append, List.mem_map, List.mem_singleton] at hq
    refine ⟨?_, ?_, ?_, ?_⟩
    · refine (hb.leaves.map _).trans ?_
      rw [List.map_append, lr.leaves_unplaced, List.map_singleton]
      have h1 : box.toSchemaPart.unplaced = x.unplaced := by rw [hbox]; rfl
      have h2 := (work_perm hx).map SchemaPart.unplaced
      rwa [List.map_append, List.map_singleton, ← h1] at h2
    all_goals
      intro r hr
      rcases hmem r hr with ⟨a, ha, rfl⟩ | rfl
    · have := lr.leaf_front ha
      omega
    · -- the container starts with the EBR of its first logical partition
      have := lr.leaf_front hps₀
      rw [gap_logical hx hk₀] at this
      omega
    · exact lr.leaf_positive hpos ha
    · have h1 := hb.covers a₀ ha₀
      have h2 := lr.leaf_positive hpos hps₀
      omega
    · exact lr.leaf_stop_le_cursor ha
    · rcases hb.tight with ⟨b, hbm, heq⟩ | heq
      · rw [heq]
        exact lr.leaf_stop_le_cursor (lr.mem_logicalPairs.mp hbm).1
      · obtain ⟨b, hbm, hmin⟩ := lr.minimum_le_last hx r.startSectors (List.ne_nil_of_mem ha₀)
          (fun b hbm => by exact_mod_cast hb.after b hbm)
        have := (lr.packed.bounds b (lr.mem_logicalPairs.mp hbm).1).2.2
        omega

end LeafRun

end AdjustedRun

/-! ### The room a layout asks for -/

/-- `ebrReservedSectors` of the container. -/
def ebrOf (s : Schema) : ℕ := ((extendedOf s).bind (·.ebrReservedSectors)).getD 0

/-- The size that the entry of a partition asks for. -/
def askedSize (s : Schema) (x : SchemaPart × LayoutPart) : ℕ :=
  preSize s.logicalSectorBytes ⟨x.1, x.2, x.2.modeOrOriginal⟩

/-- The sectors for an entry in whole multiples of the alignment: its size, and the EBR of a logical
partition. -/
def askedRoom (s : Schema) (x : SchemaPart × LayoutPart) : ℕ :=
  let a := alignment s.logicalSectorBytes
  alignUp (askedSize s x) a + if x.1.kind = some .logical then alignUp (ebrOf s) a else 0

/-- The partitions with their layout entries. -/
def askedEntries (s : Schema) (l : Layout) : List (SchemaPart × LayoutPart) :=
  joinLayout s.partitions (l.partitions.getD [])

/-- What the minimum of the container asks for beyond its logical partitions and their EBRs. -/
def askedTail (s : Schema) (l : Layout) : ℕ :=
  ((extendedOf s).map (·.minSectors)).getD 0 -
    (((askedEntries s l).filter (·.1.kind == some .logical)).map
      fun x => ebrOf s + askedSize s x).sum

/-- The sectors that a layout without a `remaining` partition asks for, from the start of the
disk. -/
def askedSpan (s : Schema) (l : Layout) : ℕ :=
  alignUp (smallestStart s) (alignment s.logicalSectorBytes) +
    ((askedEntries s l).map (askedRoom s)).sum +
    alignUp (askedTail s l) (alignment s.logicalSectorBytes)

/-- No partition is in mode `remaining`. -/
def NoneRemaining (l : Layout) : Prop := ∀ o ∈ l.partitions.getD [], o.modeOrOriginal ≠ .remaining

/-- A number occurs once, so what is kept behind the partition with that number is kept once. -/
lemma sum_if_number_le {items : List Item} (hnd : (items.map (·.p.number)).Nodup) (n : Option ℕ)
    (k : ℕ) :
    (items.map fun it => if some it.p.number = n then k else 0).sum ≤ k := by
  induction items with
  | nil => simp
  | cons it items ih =>
    rw [List.map_cons, List.nodup_cons] at hnd
    rw [List.map_cons, List.sum_cons]
    by_cases hn : some it.p.number = n
    · have hz : (items.map fun it => if some it.p.number = n then k else 0).sum = 0 := by
        refine List.sum_eq_zero fun m hm => ?_
        obtain ⟨it', hit', rfl⟩ := List.mem_map.mp hm
        refine if_neg fun hn' => hnd.1 ?_
        rw [← hn, Option.some.injEq] at hn'
        exact hn' ▸ List.mem_map_of_mem hit'
      rw [if_pos hn, hz, Nat.add_zero]
    · rw [if_neg hn, Nat.zero_add]
      exact ih hnd.2

namespace AdjustedRun

variable {s : Schema} {l : Layout} {target : ℕ} {plan : List ResolvedPart}
  (run : AdjustedRun s l target plan) (r : ℕ)

lemma ebrOf_eq {x : SchemaPart} {ebr : ℕ} (hx : run.extended = some (x, ebr)) : ebrOf s = ebr := by
  obtain ⟨hm, hhead, hebr⟩ := extendedWithEbr_some (hx ▸ run.extended_ok)
  simp [ebrOf, extendedOf, hm, hhead, hebr]

lemma gap_le (p : SchemaPart) : run.env.gap p ≤ if p.kind = some .logical then ebrOf s else 0 := by
  rcases hx : run.extended with _ | ⟨x, ebr⟩
  · simp [AllocEnv.gap, env, hx]
  · rw [run.ebrOf_eq hx]
    simp [AllocEnv.gap, env, hx]

lemma items_nodup : (run.items.map (·.p.number)).Nodup := by
  have h1 : run.items.map (·.p.number) = run.work.map (·.number) := by
    rw [← run.items_p, List.map_map]
    rfl
  rw [h1]
  rcases hx : run.extended with _ | ⟨x, ebr⟩
  · rw [workParts_plain (extendedWithEbr_none (hx ▸ run.extended_ok)) run.work_ok]
    exact ((List.perm_insertionSort _ _).map _).nodup_iff.mpr run.schema_nodup
  · have h2 := ((LeafRun.work_perm hx).map (·.number)).nodup_iff.mpr run.schema_nodup
    rw [List.map_append] at h2
    exact h2.of_append_left

/-- The tails behind all items are the tail of the container. -/
lemma sum_tails_le :
    (run.items.map fun it => alignUp (run.env.tailAfter r it.p)
      (alignment s.logicalSectorBytes)).sum ≤
    alignUp (run.env.extendedTailSectors r) (alignment s.logicalSectorBytes) := by
  have ha := alignment_pos s.logicalSectorBytes
  have h0 := alignUp_zero ha
  refine le_trans (List.sum_le_sum fun it _ => ?_)
    (sum_if_number_le run.items_nodup run.env.lastLogicalNumber _)
  unfold AllocEnv.tailAfter
  rcases run.env.extended with _ | ⟨x, ebr⟩
  · simp [h0]
  · dsimp only
    split
    · rename_i h
      rw [if_pos h.2]
    · rw [h0]
      exact Nat.zero_le _

lemma joinLayout_perm {ps qs : List SchemaPart} (h : ps.Perm qs) (lp : List LayoutPart) :
    (joinLayout ps lp).Perm (joinLayout qs lp) := h.flatMap_right _

/-- The items are entries of the layout; the container has one more. -/
lemma entries_perm :
    ∃ rest, (run.items.map (fun it => (it.p, it.o)) ++ rest).Perm (askedEntries s l) ∧
    ∀ x ∈ rest, x.1.kind = some .extended := by
  have hlp : l.partitions.getD [] = run.lp := by rw [run.layout_eq, Option.getD_some]
  unfold askedEntries
  rw [(joined_items run.items_ok).1, hlp]
  rcases hx : run.extended with _ | ⟨x, ebr⟩
  · rw [workParts_plain (extendedWithEbr_none (hx ▸ run.extended_ok)) run.work_ok]
    refine ⟨[], ?_, by simp⟩
    rw [List.append_nil]
    exact joinLayout_perm (List.perm_insertionSort _ _) run.lp
  · refine ⟨joinLayout [x] run.lp, ?_, ?_⟩
    · have h := joinLayout_perm (LeafRun.work_perm hx) run.lp
      unfold joinLayout at h ⊢
      rwa [List.flatMap_append] at h
    · intro y hy
      obtain ⟨p, hp, hy⟩ := List.mem_flatMap.mp hy
      obtain ⟨o, -, rfl⟩ := List.mem_map.mp hy
      rw [List.mem_singleton.mp hp]
      exact (LeafRun.container_mem hx).2

section NoneRemaining

variable (hnone : NoneRemaining l)
include hnone

lemma sizeOf_eq_asked {it : Item} (hit : it ∈ run.items) :
    run.env.sizeOf r it = askedSize s (it.p, it.o) := by
  obtain ⟨heq, hchk⟩ := joined_items run.items_ok
  have hmode : it.mode ≠ .remaining := by
    have hj : (it.p, it.o) ∈ joinLayout run.work run.lp := by
      rw [← heq]
      exact List.mem_map_of_mem (f := fun it : Item => (it.p, it.o)) hit
    obtain ⟨p, -, hpo⟩ := List.mem_flatMap.mp hj
    obtain ⟨o, ho, hpo⟩ := List.mem_map.mp hpo
    obtain ⟨-, rfl⟩ := Prod.mk.inj hpo
    have hlp : l.partitions.getD [] = run.lp := by rw [run.layout_eq, Option.getD_some]
    rw [(hchk it hit).eq]
    exact hnone it.o (hlp ▸ (List.mem_filter.mp ho).1)
  unfold AllocEnv.sizeOf askedSize
  rw [if_neg hmode, ← (hchk it hit).eq]
  rfl

lemma tail_eq_asked : run.env.extendedTailSectors r ≤ askedTail s l := by
  rcases hx : run.extended with _ | ⟨x, ebr⟩
  · simp [AllocEnv.extendedTailSectors, env, hx]
  obtain ⟨hm, hhead, -⟩ := extendedWithEbr_some (hx ▸ run.extended_ok)
  obtain ⟨rest, hperm, hrest⟩ := run.entries_perm
  obtain ⟨lr, -⟩ := run.leafRun
  have hmin : ((extendedOf s).map (·.minSectors)).getD 0 = x.minSectors := by
    simp [extendedOf, hm, hhead]
  have hfil : rest.filter (·.1.kind == some .logical) = [] := by
    rw [List.filter_eq_nil_iff]
    intro y hy
    simp [hrest y hy]
  have hsum :
      (((askedEntries s l).filter (·.1.kind == some .logical)).map
        fun x => ebrOf s + askedSize s x).sum =
      run.env.logicalFootprint ebr r := by
    rw [← ((hperm.filter _).map _).sum_eq, List.filter_append, hfil, List.append_nil,
      List.filter_map, List.map_map,
      run.ebrOf_eq hx]
    unfold AllocEnv.logicalFootprint
    rw [lr.logicalItems_eq hx, lr.logicalPairs_fst]
    have hcongr : ∀ it ∈ run.items.filter (·.p.kind == some .logical),
        ((fun x => ebr + askedSize s x) ∘ fun it : Item => (it.p, it.o)) it =
          ebr + run.env.sizeOf r it := by
      intro it hit
      rw [run.sizeOf_eq_asked r hnone (List.mem_filter.mp hit).1]
      rfl
    rw [show (fun x : SchemaPart × LayoutPart => x.1.kind == some .logical)
      ∘ (fun it : Item => (it.p, it.o)) =
      fun it => it.p.kind == some .logical from rfl, List.map_congr_left hcongr, List.sum_map_add]
    simp [env, mul_comm]
  unfold askedTail
  rw [hmin, hsum]
  simp only [AllocEnv.extendedTailSectors, env, hx]
  split <;> omega

/-- **The allocation of a layout without a `remaining` partition ends within the room asked
for.** -/
theorem room_le_asked :
    alignUp run.front (alignment s.logicalSectorBytes) + (run.items.map (run.env.room r)).sum ≤
    askedSpan s l := by
  have ha := alignment_pos s.logicalSectorBytes
  obtain ⟨rest, hperm, -⟩ := run.entries_perm
  -- the room of an item without its tail is what its entry asks for
  have hitem : ∀ it ∈ run.items, run.env.room r it ≤ askedRoom s (it.p, it.o) +
      alignUp (run.env.tailAfter r it.p) (alignment s.logicalSectorBytes) := by
    intro it hit
    have hgap := alignUp_mono (a := alignment s.logicalSectorBytes) (run.gap_le it.p)
    have h0 := alignUp_zero ha
    have hlog : run.env.logical = s.logicalSectorBytes := rfl
    unfold AllocEnv.room askedRoom
    rw [run.sizeOf_eq_asked r hnone hit, hlog]
    dsimp only
    split_ifs at hgap ⊢ <;> omega
  have hsum : (run.items.map (run.env.room r)).sum ≤
      ((run.items.map (fun it => (it.p, it.o))).map (askedRoom s)).sum +
        alignUp (askedTail s l) (alignment s.logicalSectorBytes) := by
    refine le_trans (List.sum_le_sum hitem) ?_
    rw [List.sum_map_add, List.map_map]
    exact Nat.add_le_add_left
      ((run.sum_tails_le r).trans (alignUp_mono (run.tail_eq_asked r hnone))) _
  have hall := ((hperm.map (askedRoom s)).sum_eq)
  rw [List.map_append, List.sum_append] at hall
  unfold askedSpan
  rw [run.smallestStart_eq]
  omega

end NoneRemaining

end AdjustedRun

/-! ### The two stages -/

/-- What the validation has checked before the permit. -/
structure Validated (disk : Disk) (s : Schema) (l : Layout) (plan : List ResolvedPart) : Prop where
  contract : originalContract s = true
  logical_pos : 0 < s.logicalSectorBytes
  bytes_pos : 0 < disk.bytes
  whole : disk.bytes % s.logicalSectorBytes = 0
  resolved : resolveLayout s l (disk.bytes / s.logicalSectorBytes) = .ok plan

lemma toOption_eq_some {α ε : Type} {x : Except ε α} {a : α} : x.toOption = some a ↔ x = .ok a := by
  cases x <;> simp [Except.toOption]

lemma validated {v : Revision} {disk : Disk} {s : Schema} {l : Layout} {plan : List ResolvedPart}
    (h : validateDeploymentLayout v disk s l = some plan) : Validated disk s l plan := by
  simp only [validateDeploymentLayout, Option.bind_eq_bind, Option.bind_eq_some_iff,
    Option.guard_eq_some',
    toOption_eq_some, Option.pure_def, Option.some.injEq, Bool.and_eq_true, decide_eq_true_eq] at h
  obtain ⟨-, -, -, hcon, -, -, -, ⟨⟨hlog, -⟩, hbytes⟩, -, -, -, hwhole, plan', hplan, -, -, rfl⟩ :=
    h
  exact ⟨hcon, hlog, hbytes, hwhole, hplan⟩

/-- The template belongs to the schema and the disk: the same label, numbers and sector size, and
the captured partitions inside the template's range.  `validateImageSectorSize` has compared the
disk with the template. -/
structure Consistent (disk : Disk) (s : Schema) (t : Template) : Prop where
  label : t.label = s.partitionTable
  numbers : t.numbers.Perm (s.partitions.map (·.number))
  sector : t.sectorSize = s.logicalSectorBytes
  disk_sector : disk.sectorBytes = t.sectorSize
  first_pos : 0 < t.firstLba
  inside : ∀ p ∈ s.partitions, t.firstLba ≤ p.startSectors ∧ p.originalEnd ≤ t.lastLba + 1

/-! ### What the contract gives and needs -/

/-- A partition that passes has at least one sector. -/
lemma one_le_of_geometryOk {table : Table} {p : SchemaPart} {size : ℕ}
    (h : geometryOk table p size = true) :
    1 ≤ size := by
  cases table <;> simp only [geometryOk, ends32, Bool.and_eq_true, decide_eq_true_eq] at h
  · exact h.1.2
  · exact h.1.1.2

lemma originalContract_iff {s : Schema} : originalContract s = true ↔
    0 < s.partitions.length ∧
      (∀ p ∈ s.partitions, 1 ≤ p.number ∧ geometryOk s.partitionTable p p.originalSectors = true) ∧
      (s.partitions.map (·.number)).dedup.length = s.partitions.length ∧
      tableContract s.partitionTable s.partitions = true := by
  unfold originalContract
  rw [contract_iff, List.length_map, List.forall_mem_map, List.map_map, List.map_map]
  exact Iff.of_eq (by simp only [Function.comp_def, List.map_id'])

lemma number_le_of_contract {s : Schema} (h : originalContract s = true) {p : SchemaPart}
    (hp : p ∈ s.partitions) :
    1 ≤ p.number ∧ p.number ≤ 128 := by
  obtain ⟨-, h1, -, h2⟩ := originalContract_iff.mp h
  refine ⟨(h1 p hp).1, ?_⟩
  cases ht : s.partitionTable with
  | gpt =>
    simp only [ht, tableContract, gptContract, Bool.and_eq_true, List.all_eq_true,
      decide_eq_true_eq] at h2
    exact (h2.2 p hp).1.1
  | mbr =>
    simp only [ht, tableContract, mbrContract, Bool.and_eq_true, List.all_eq_true,
      decide_eq_true_eq] at h2
    have := h2.1 p hp
    omega

namespace Bounded

variable {s : Schema} {limit : ℕ} {plan : List ResolvedPart} (hb : Bounded s limit plan)
include hb

lemma numbers : (plan.map (·.number)).Perm (s.partitions.map (·.number)) := by
  have h := hb.records.map (·.number)
  rw [List.map_map, List.map_map] at h
  exact h

lemma length_eq : plan.length = s.partitions.length := by
  have h := hb.numbers.length_eq
  rwa [List.length_map, List.length_map] at h

lemma dedup_length (hs : originalContract s = true) :
    (plan.map (·.number)).dedup.length = plan.length := by
  obtain ⟨-, -, h, -⟩ := originalContract_iff.mp hs
  have hnd : (s.partitions.map (·.number)).Nodup :=
    nodup_of_dedup_length (by rw [h, List.length_map])
  rw [(hb.numbers.nodup_iff.mpr hnd).dedup, List.length_map]

lemma number_le (hs : originalContract s = true) {r : ResolvedPart} (hr : r ∈ plan) :
    1 ≤ r.number ∧ r.number ≤ 128 := by
  obtain ⟨p, hp, hpn⟩ :=
    List.mem_map.mp (hb.numbers.mem_iff.mp (List.mem_map_of_mem (f := fun q => q.number) hr))
  rw [← hpn]
  exact number_le_of_contract hs hp

/-- The records of the schema with a geometry that passes give a plan that passes. -/
lemma contract (hs : originalContract s = true)
    (hgeo : ∀ r ∈ plan, geometryOk s.partitionTable r.toSchemaPart r.resolvedSectors = true) :
    resolvedContract s.partitionTable plan = true := by
  obtain ⟨hpos, h1, h2, h3⟩ := originalContract_iff.mp hs
  unfold resolvedContract
  rw [contract_iff, List.length_map, List.forall_mem_map, List.map_map, List.map_map]
  refine ⟨hb.length_eq ▸ hpos, fun r hr => ⟨(hb.number_le hs hr).1, hgeo r hr⟩,
    hb.dedup_length hs, ?_⟩
  rw [← tableContract_unplaced, List.map_map]
  rw [← tableContract_unplaced] at h3
  exact tableContract_perm hb.records.symm h3

end Bounded

/-! ### The writer's verdict -/

lemma mapRow_eq_ok {t : Template} {total : ℕ} {r : ResolvedPart} : mapRow t total r = .ok () ↔
    (r.number ≠ 0 ∧ r.resolvedSectors ≠ 0) ∧
      (r.number ≤ 2147483647 ∧ r.startSectors < total ∧
        r.resolvedSectors ≤ total - r.startSectors) ∧
      (t.label = .gpt → r.stop - 1 ≤ total - t.firstLba) := by
  simp [mapRow, bind_eq_ok, ResolvedPart.stop, and_assoc]

section Verdict

variable {disk : Disk} {s : Schema} {l : Layout} {t : Template} {plan : List ResolvedPart}
  (hv : Validated disk s l plan) (hc : Consistent disk s t)
include hv hc

/-- The usable range of a GPT target is never empty: the resolver has kept the captured front at
both ends. -/
lemma usableRange_ok : usableRange t (disk.bytes / s.logicalSectorBytes) = .ok () := by
  obtain ⟨⟨front, hmin, havail⟩, -⟩ := resolveLayout_cases hv.resolved
  obtain ⟨p, hp, hpf⟩ := List.mem_map.mp (List.min?_eq_some_iff.mp hmin).1
  have hfirst := (hc.inside p hp).1
  have hpos := hc.first_pos
  unfold usableRange
  cases ht : t.label with
  | mbr => rfl
  | gpt =>
    have hback : backReserve s front = front := if_pos (hc.label ▸ ht)
    rw [hback] at havail
    simp only [bind_eq_ok, errorIf_eq_ok, decide_eq_false_iff_not, Bool.not_eq_false',
      Bool.and_eq_true,
      decide_eq_true_eq]
    exact ⟨(), by omega, by omega, by omega⟩

/-- **The writer accepts a plan inside the target** exactly when its geometry passes the contract
and, on GPT, no partition ends behind `last_lba`. -/
theorem applyPlanChecks_iff (hb : Bounded s (disk.bytes / s.logicalSectorBytes) plan) :
    applyPlanChecks disk t plan = .ok () ↔
      (∀ r ∈ plan, geometryOk s.partitionTable r.toSchemaPart r.resolvedSectors = true) ∧
      (s.partitionTable = .gpt → ∀ r ∈ plan,
        r.stop - 1 ≤ disk.bytes / s.logicalSectorBytes - t.firstLba) := by
  have hsec : disk.sectorBytes = s.logicalSectorBytes := hc.disk_sector.trans hc.sector
  have hlog := hv.logical_pos
  have hbytes := hv.bytes_pos
  have htotal : disk.bytes / s.logicalSectorBytes ≠ 0 := by
    have := Nat.le_of_dvd hbytes (Nat.dvd_of_mod_eq_zero hv.whole)
    exact (Nat.div_pos this hlog).ne'
  have hsort : (plan.map (·.number)).insertionSort (· ≤ ·) = t.numbers.insertionSort (· ≤ ·) :=
    List.Perm.eq_of_pairwise' (List.pairwise_insertionSort _ _) (List.pairwise_insertionSort _ _)
      (((List.perm_insertionSort _ _).trans (hb.numbers.trans hc.numbers.symm)).trans
        (List.perm_insertionSort _ _).symm)
  have hne : plan ≠ [] := by
    have := (originalContract_iff.mp hv.contract).1
    rw [← hb.length_eq] at this
    exact List.ne_nil_of_length_pos this
  have hrow : ∀ r ∈ plan, mapRow t (disk.bytes / s.logicalSectorBytes) r = .ok () ↔
      (s.partitionTable = .gpt → r.stop - 1 ≤ disk.bytes / s.logicalSectorBytes - t.firstLba) := by
    intro r hr
    have h1 := hb.number_le hv.contract hr
    have h2 := hb.positive r hr
    have h3 := hb.stop r hr
    have h4 : r.stop = r.startSectors + r.resolvedSectors := rfl
    rw [mapRow_eq_ok, ← hc.label]
    exact ⟨fun h => h.2.2, fun h => ⟨by omega, by omega, h⟩⟩
  have hcon : resolvedContract t.label plan = true ↔
      ∀ r ∈ plan, geometryOk s.partitionTable r.toSchemaPart r.resolvedSectors = true := by
    rw [hc.label]
    refine ⟨fun h r hr => ?_, hb.contract hv.contract⟩
    exact ((contract_iff.mp h).2.1 (r.toSchemaPart, r.resolvedSectors)
      (List.mem_map.mpr ⟨r, hr, rfl⟩)).2
  simp only [applyPlanChecks, bind_eq_ok, errorIf_eq_ok, forM_eq_ok, hsec, hc.sector]
  constructor
  · rintro ⟨-, -, -, -, -, -, -, hcontract, -, -, -, -, -, hrows, -⟩
    refine ⟨hcon.mp (by simpa using hcontract), fun hg r hr => ?_⟩
    exact (hrow r hr).mp (hrows r hr) hg
  · rintro ⟨hgeo, hgpt⟩
    refine ⟨(), ?_, (), ?_, (), ?_, (), ?_, (), ?_, (), usableRange_ok hv hc, (), ?_, (), ?_, ?_⟩
    · simp [hlog.ne', hbytes.ne']
    · simp [hv.whole]
    · simp [htotal]
    · simpa using hcon.mpr hgeo
    · simp [hlog.ne']
    · exact fun r hr => (hrow r hr).mpr fun hg => hgpt hg r hr
    · simp [hb.dedup_length hv.contract, hne]
    · simp [hsort]

end Verdict

/-- **Where the writer is known to accept the plan of the resolver.**  A kept GPT table must end by
the `last_lba` that the writer derives from `first-lba`, and a kept MBR table always passes; an
allocated plan passes on a target of at most as many sectors as `jq` can count, or as MBR can, and
also when the sizes asked for end there. -/
def Writable (disk : Disk) (s : Schema) (l : Layout) (t : Template) : Prop :=
  let total := disk.bytes / s.logicalSectorBytes
  match s.partitionTable with
  | .gpt => (KeepsAll s l → ∀ p ∈ s.partitions, p.originalEnd ≤ total - t.firstLba + 1) ∧
      (¬ KeepsAll s l → total ≤ safeMax ∨ (NoneRemaining l ∧ askedSpan s l ≤ safeMax))
  | .mbr => KeepsAll s l ∨ total ≤ 2 ^ 32 ∨ (NoneRemaining l ∧ askedSpan s l ≤ 2 ^ 32)

lemma geometryOk_gpt {p : SchemaPart} {size : ℕ} (h1 : 1 ≤ p.startSectors) (h2 : 1 ≤ size)
    (h3 : p.startSectors + size ≤ safeMax) : geometryOk .gpt p size = true := by
  simp only [geometryOk, Bool.and_eq_true, decide_eq_true_eq]
  omega

lemma geometryOk_mbr {p : SchemaPart} {size : ℕ} (h1 : 1 ≤ p.startSectors) (h2 : 1 ≤ size)
    (h3 : p.startSectors + size ≤ 2 ^ 32) : geometryOk .mbr p size = true := by
  have hmax : lbaMax = 4294967295 := rfl
  simp only [geometryOk, ends32, Bool.and_eq_true, decide_eq_true_eq]
  omega

/-- **The resolver and the writer.**  A plan resolved before the permit passes every check of the
writer on the same disk where `Writable` says so; and for a layout that keeps every partition it
passes nowhere else. -/
theorem resolvedPlan_applies {v : Revision} {disk : Disk} {s : Schema} {l : Layout} {t : Template}
    {plan : List ResolvedPart} (h : validateDeploymentLayout v disk s l = some plan)
    (hc : Consistent disk s t) :
    (Writable disk s l t → applyPlanChecks disk t plan = .ok ()) ∧
      (KeepsAll s l → applyPlanChecks disk t plan = .ok () → Writable disk s l t) := by
  have hv := validated h
  obtain ⟨⟨front, hmin, havail⟩, hcases⟩ := resolveLayout_cases hv.resolved
  have hfront : smallestStart s = front := by unfold smallestStart; rw [hmin, Option.getD_some]
  have hfirst : t.firstLba ≤ front := by
    obtain ⟨p, hp, hpf⟩ := List.mem_map.mp (List.min?_eq_some_iff.mp hmin).1
    exact hpf ▸ (hc.inside p hp).1
  have hpos := hc.first_pos
  rcases hcases with ⟨hk, horig⟩ | ⟨hk, ⟨run⟩⟩
  · -- the captured table: its geometry has passed the contract already
    have hb := bounded_original horig
    obtain ⟨hplan, hends⟩ := resolveOriginal_ok horig
    have hgeo : ∀ r ∈ plan, geometryOk s.partitionTable r.toSchemaPart r.resolvedSectors =
        true := by
      intro r hr
      rw [hplan] at hr
      obtain ⟨p, hp, rfl⟩ := List.mem_map.mp hr
      exact ((originalContract_iff.mp hv.contract).2.1 p (mem_sortByNumber.mp hp)).2
    have hstop : (∀ r ∈ plan, r.stop - 1 ≤ disk.bytes / s.logicalSectorBytes - t.firstLba) ↔
        ∀ p ∈ s.partitions, p.originalEnd ≤ disk.bytes / s.logicalSectorBytes - t.firstLba + 1 := by
      rw [hplan, List.forall_mem_map]
      refine ⟨fun h p hp => ?_, fun h p hp => ?_⟩
      · have h1 := h p (mem_sortByNumber.mpr hp)
        have h2 : (p.placed p.startSectors p.originalSectors).stop = p.originalEnd := rfl
        omega
      · have h1 := h p (mem_sortByNumber.mp hp)
        have h2 : (p.placed p.startSectors p.originalSectors).stop = p.originalEnd := rfl
        omega
    rw [applyPlanChecks_iff hv hc hb, hstop]
    unfold Writable
    cases ht : s.partitionTable with
    | gpt =>
      refine ⟨fun hw => ⟨ht ▸ hgeo, fun _ => hw.1 hk⟩,
        fun _ ha => ⟨fun _ => ha.2 rfl, fun hn => absurd hk hn⟩⟩
    | mbr => exact ⟨fun _ => ⟨ht ▸ hgeo, fun hg => by cases hg⟩, fun _ _ => .inl hk⟩
  · refine ⟨fun hw => ?_, fun h => absurd h hk⟩
    obtain ⟨lr, hroom⟩ := run.leafRun
    have hparts : ∀ p ∈ s.partitions, 0 < p.originalSectors := fun p hp =>
      one_le_of_geometryOk ((originalContract_iff.mp hv.contract).2.1 p hp).2
    have hb := lr.bounded hparts
    have hfits := lr.fits
    have hstart : ∀ r ∈ plan, 1 ≤ r.startSectors := by
      intro r hr
      have := hb.front r hr
      omega
    have hstop : ∀ r ∈ plan, r.startSectors + r.resolvedSectors ≤ lr.cursor := hb.stop
    have htotal : Bounded s (disk.bytes / s.logicalSectorBytes) plan :=
      ⟨hb.records, hb.front, hb.positive, fun r hr => (hb.stop r hr).trans (by omega)⟩
    rw [applyPlanChecks_iff hv hc htotal]
    unfold Writable at hw
    cases ht : s.partitionTable with
    | gpt =>
      rw [ht] at hw
      have hcursor : lr.cursor ≤ safeMax := by
        rcases hw.2 hk with hw | ⟨hnone, hspan⟩
        · omega
        · exact (hroom.trans (run.room_le_asked lr.r hnone)).trans hspan
      have hback : backReserve s run.front = run.front := if_pos ht
      have hrun : run.front = front := by rw [← hfront, run.smallestStart_eq]
      refine ⟨fun r hr => geometryOk_gpt (hstart r hr) (hb.positive r hr)
        ((hstop r hr).trans hcursor), fun _ r hr => ?_⟩
      have := hb.stop r hr
      omega
    | mbr =>
      rw [ht] at hw
      have hcursor : lr.cursor ≤ 2 ^ 32 := by
        rcases hw with hw | hw | ⟨hnone, hspan⟩
        · exact absurd hw hk
        · omega
        · exact (hroom.trans (run.room_le_asked lr.r hnone)).trans hspan
      refine ⟨fun r hr => geometryOk_mbr (hstart r hr) (hb.positive r hr)
        ((hstop r hr).trans hcursor), ?_⟩
      intro hg
      cases hg

/-! ### A GPT disk and an MBR disk -/

/-- A GPT schema with one partition, which ends with the last usable sector of its disk of 100000
sectors. -/
def gptSchema : Schema :=
  ⟨2, .gpt, 51200000, 512,
    [⟨1, 2048, 97919, 97919, "0FC63DAF-8483-4772-8E79-3D69D8477DE4", .data, true, "ext4", none,
    some "d1p1.img", none, some .primary, none, none⟩], none⟩

/-- Its dump: `first-lba: 2048`, `last-lba: 99966`. -/
def gptTemplate : Template := ⟨.gpt, 512, 2048, 99966, [1]⟩

/-- The dump of an MBR disk. -/
def dosTemplate : Template := ⟨.mbr, 512, 1, 4095, [1]⟩

/-- An MBR schema with one partition on a disk of 4096 sectors. -/
def oneDosSchema : Schema := ⟨2, .mbr, 2097152, 512, [ntfsPart 1 2048 1024 .primary none], none⟩

/-- A layout of one partition. -/
def oneLayout (m : Mode) : Layout := ⟨some [entry 1 m], []⟩

/-- A revision whose hashes agree. -/
def someRevision : Revision :=
  let hash := "e3b0c44298fc1c149afbf4c8996fb92427ae41e4649b934ca495991b7852b855"
  ⟨hash, "1", hash, some hash⟩

/-- The disk the GPT schema was captured from. -/
def sourceDisk : Disk := ⟨51200000, 512, by norm_num⟩

/-- A disk of twice the size. -/
def doubleDisk : Disk := ⟨102400000, 512, by norm_num⟩

/-- A disk of 8 TiB. -/
def largeDisk : Disk := ⟨8796093022208, 512, by norm_num⟩

lemma gptSchema_consistent : Consistent sourceDisk gptSchema gptTemplate := by
  refine ⟨rfl, ?_, rfl, rfl, ?_, ?_⟩ <;> decide

lemma gptSchema_double_consistent : Consistent doubleDisk gptSchema gptTemplate := by
  refine ⟨rfl, ?_, rfl, rfl, ?_, ?_⟩ <;> decide

lemma oneDosSchema_consistent : Consistent largeDisk oneDosSchema dosTemplate := by
  refine ⟨rfl, ?_, rfl, rfl, ?_, ?_⟩ <;> decide

lemma gptSchema_adjusted : ¬ KeepsAll gptSchema (oneLayout .remaining) := by
  intro h
  rcases h _ rfl (entry 1 .remaining) (by decide) with h | h
  · revert h
    decide
  · revert h
    decide

/-- The writer's verdict on the plan of the validation, if there is one. -/
def verdict (disk : Disk) (s : Schema) (l : Layout) (t : Template) :
    Option (Except ApplyFailure Unit) :=
  (validateDeploymentLayout someRevision disk s l).map (applyPlanChecks disk t)

/-- The same GPT disk again, with every partition kept: the writer refuses what ends behind `total -
first_lba`.  And a small MBR disk on one of 8 TiB, with the partition grown: the writer refuses a
size that is no 32-bit number. -/
theorem resolvedPlan_refused :
    (Consistent sourceDisk gptSchema gptTemplate ∧
      verdict sourceDisk gptSchema (oneLayout .original) gptTemplate =
      some (.error ⟨"LAYOUT_PLAN_INVALID", "partition_plan_exceeds_gpt_usable_range"⟩)) ∧
    (Consistent largeDisk oneDosSchema dosTemplate ∧
      verdict largeDisk oneDosSchema (oneLayout .remaining) dosTemplate =
      some (.error ⟨"LAYOUT_PLAN_INVALID", "mbr_or_gpt_partition_contract"⟩)) :=
  ⟨⟨gptSchema_consistent, by decide +kernel⟩, ⟨oneDosSchema_consistent, by decide +kernel⟩⟩

/-- The GPT disk on one of twice the size, with its partition in mode `remaining`. -/
theorem resolvedPlan_grown_applies :
    ∃ plan, validateDeploymentLayout someRevision doubleDisk gptSchema (oneLayout .remaining) =
      some plan ∧
      applyPlanChecks doubleDisk gptTemplate plan = .ok () := by
  have hok :
      (validateDeploymentLayout someRevision doubleDisk gptSchema (oneLayout .remaining)).isSome =
        true := by
    decide +kernel
  obtain ⟨plan, hplan⟩ := Option.isSome_iff_exists.mp hok
  refine ⟨plan, hplan, (resolvedPlan_applies hplan gptSchema_double_consistent).1 ?_⟩
  exact ⟨fun h => absurd h gptSchema_adjusted, fun _ => .inl (by decide)⟩

end Pxeos.Deploy
