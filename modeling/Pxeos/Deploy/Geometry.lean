import Pxeos.Deploy.Joined

/-!
# The geometry of a resolved plan

`SoundPlan` says what a plan must satisfy on the target disk.  `resolveLayout_sound` proves it for
every plan of an adjusted layout, from the packed footprints of the leaves: the leaves keep the
order of the captured starts, so a primary partition lies before or behind the footprints of all
logical partitions, and the tail kept behind the last of them makes up what the container's minimum
needs beyond the footprints.
-/

namespace Pxeos.Deploy

open Pxeos.Lib

/-! ### What is asked of a plan -/

/-- What `rootpxe_build_original_schema` promises about a schema. -/
structure Captured (s : Schema) : Prop where
  positive : ∀ p ∈ s.partitions, 0 < p.originalSectors
  /-- A version 2 record has a kind, an older one has none. -/
  kinds : ∀ p ∈ s.partitions, p.kind.isSome ↔ s.version = 2
  /-- A GPT table has only primary partitions. -/
  gpt : s.partitionTable = .gpt → ∀ p ∈ s.partitions, p.kind ≠ some .extended ∧
    p.kind ≠ some .logical
  /-- A logical partition has a container around it, behind the first EBR. -/
  parent : ∀ p ∈ s.partitions, p.kind = some .logical → ∃ x ∈ s.partitions, x.kind = some .extended
  inside : ∀ p ∈ s.partitions, p.kind = some .logical → ∀ x ∈ s.partitions,
    x.kind = some .extended →
    x.startSectors + 2 ≤ p.startSectors ∧ p.originalEnd ≤ x.originalEnd

/-- The smallest captured start, `$front`. -/
def smallestStart (s : Schema) : ℕ := ((s.partitions.map (·.startSectors)).min?).getD 0

/-- Two extents share no sector. -/
def Apart (a b : ResolvedPart) : Prop := a.stop ≤ b.startSectors ∨ b.stop ≤ a.startSectors

/-- The `ebr` sectors directly before `a` share no sector with `b`. -/
def EbrFree (ebr : ℕ) (a b : ResolvedPart) : Prop :=
  b.stop + ebr ≤ a.startSectors ∨ a.startSectors ≤ b.startSectors

/-- **A plan that fits its schema and its target.** -/
structure SoundPlan (s : Schema) (target : ℕ) (plan : List ResolvedPart) : Prop where
  numbers : (plan.map (·.number)).Perm (s.partitions.map (·.number))
  aligned : ∀ a ∈ plan, a.kind ≠ some .extended → alignment s.logicalSectorBytes ∣ a.startSectors
  front : ∀ a ∈ plan, a.kind ≠ some .extended → smallestStart s ≤ a.startSectors
  disjoint : ∀ a ∈ plan, ∀ b ∈ plan, a.number ≠ b.number → a.kind ≠ some .extended →
    b.kind ≠ some .extended → Apart a b
  bound : ∀ a ∈ plan, (a.stop : ℤ) ≤ (target : ℤ) - backReserve s (smallestStart s)
  parent : ∀ a ∈ plan, a.kind = some .logical → ∃ x ∈ plan, x.kind = some .extended
  inside : ∀ a ∈ plan, a.kind = some .logical → ∀ x ∈ plan, x.kind = some .extended →
    x.startSectors + x.ebrReservedSectors.getD 0 ≤ a.startSectors ∧ a.stop ≤ x.stop ∧
      ∀ b ∈ plan, b.kind = some .logical → b.number ≠ a.number →
        EbrFree (x.ebrReservedSectors.getD 0) a b
  minimum : ∀ x ∈ plan, x.kind = some .extended → x.minSectors ≤ x.resolvedSectors
  primary : ∀ a ∈ plan, a.kind ≠ some .extended → a.kind ≠ some .logical → ∀ x ∈ plan,
    x.kind = some .extended →
    Apart a x

/-! ### The leaves of a run -/

/-- The last steps of `resolveAdjusted`. -/
lemma resolveAdjusted_ok {e : AllocEnv} {available limit : ℤ} {plan : List ResolvedPart}
    (h : resolveAdjusted e available limit = .ok plan) :
    ∃ r st, resolvedRemaining e available limit (e.items.map (preSize e.logical)).sum = .ok r ∧
      e.resolveLeaves r = .ok st ∧ (st.cursor : ℤ) ≤ limit ∧
      match e.extended with
      | some (x, ebr) => AllocEnv.containerOf x ebr st.out limit = .ok plan
      | none => plan = st.out := by
  simp only [resolveAdjusted, bind_eq_ok, errorIf_eq_ok, decide_eq_false_iff_not, not_lt] at h
  obtain ⟨-, -, r, hr, st, hst, -, hle, h⟩ := h
  refine ⟨r, st, hr, hst, hle, ?_⟩
  rcases hx : e.extended with _ | ⟨x, ebr⟩
  · simp only [hx, pure_eq_ok] at h
    exact h.symm
  · simpa only [hx] using h

lemma extendedWithEbr_none {s : Schema} (h : extendedWithEbr s = .ok none) :
    mbrExtended s = false := by
  by_contra hm
  rw [Bool.not_eq_false] at hm
  obtain ⟨x, hx, hk⟩ : ∃ x ∈ s.partitions, x.kind = some .extended := by
    simpa using (Bool.and_eq_true_iff.mp hm).2
  have hmem : x ∈ ofKind s .extended := mem_ofKind.mpr ⟨hx, hk⟩
  unfold extendedWithEbr extendedOf at h
  rw [if_pos hm] at h
  cases hl : ofKind s .extended with
  | nil => rw [hl] at hmem; simp at hmem
  | cons y ys =>
    rw [hl, List.head?_cons] at h
    cases hy : y.ebrReservedSectors <;> simp [hy, pure, Except.pure] at h

lemma extendedWithEbr_some {s : Schema} {x : SchemaPart} {ebr : ℕ}
    (h : extendedWithEbr s = .ok (some (x, ebr))) :
    mbrExtended s = true ∧ (ofKind s .extended).head? = some x ∧
    x.ebrReservedSectors = some ebr := by
  unfold extendedWithEbr extendedOf at h
  cases hm : mbrExtended s with
  | false => simp [hm, pure, Except.pure] at h
  | true =>
    rw [hm, if_pos rfl] at h
    cases hl : (ofKind s .extended).head? with
    | none => simp [hl, pure, Except.pure] at h
    | some y =>
      rw [hl] at h
      cases hy : y.ebrReservedSectors with
      | none => simp [hy] at h
      | some n =>
        simp only [hy, pure_eq_ok, Option.some.injEq, Prod.mk.injEq] at h
        obtain ⟨rfl, rfl⟩ := h
        exact ⟨rfl, rfl, hy⟩

namespace AllocEnv

section Leaves

variable {e : AllocEnv} {r : ℕ} {ps : List (Item × ResolvedPart)} {c d : ℤ}
  (hpl : ∀ x ∈ ps, Placement e r x)
  (hpk : Packed (fun x => e.footLo x.2) (fun x => e.footHi r x.2) c ps d)

lemma start_eq_lo_add (q : ResolvedPart) :
    (q.startSectors : ℤ) = e.footLo q + e.gap q.toSchemaPart := by
  unfold footLo
  ring

lemma stop_le_hi (q : ResolvedPart) : (q.stop : ℤ) ≤ e.footHi r q := by
  unfold footHi
  omega

include hpk in
/-- Two leaves with different footprints are apart, each with its EBR gap. -/
lemma leaves_apart {a b : Item × ResolvedPart} (ha : a ∈ ps) (hb : b ∈ ps) (hab : a ≠ b) :
    (a.2.stop : ℤ) + e.gap b.2.toSchemaPart ≤ b.2.startSectors ∨
      (b.2.stop : ℤ) + e.gap a.2.toSchemaPart ≤ a.2.startSectors := by
  have h1 := stop_le_hi (e := e) (r := r) a.2
  have h2 := stop_le_hi (e := e) (r := r) b.2
  have h3 := start_eq_lo_add (e := e) a.2
  have h4 := start_eq_lo_add (e := e) b.2
  rcases or_of_pairwise hpk.pairwise ha hb hab with h | h
  · left; omega
  · right; omega

include hpk in
/-- The leaves keep the order of the captured starts. -/
lemma ordered_by_source (hsorted : ps.Pairwise (fun a b => StartsBefore a.1.p b.1.p))
    {a b : Item × ResolvedPart} (ha : a ∈ ps) (hb : b ∈ ps)
    (hlt : a.1.p.startSectors < b.1.p.startSectors) : e.footHi r a.2 ≤ e.footLo b.2 := by
  have hab : a ≠ b := by rintro rfl; omega
  rcases or_of_pairwise (hsorted.and hpk.pairwise) ha hb hab with h | h
  · exact h.2
  · have := h.1
    unfold StartsBefore at this
    omega

end Leaves

end AllocEnv

/-! ### Plans without a container -/

namespace AdjustedRun

variable {s : Schema} {l : Layout} {target : ℕ} {plan : List ResolvedPart}
  (run : AdjustedRun s l target plan)

lemma smallestStart_eq : smallestStart s = run.front := by
  unfold smallestStart
  rw [run.front_ok, Option.getD_some]

/-- The allocation of a run: the leaves paired with their items. -/
structure LeafRun where
  r : ℕ
  cursor : ℕ
  ps : List (Item × ResolvedPart)
  items_eq : ps.map Prod.fst = run.items
  placed : ∀ x ∈ ps, AllocEnv.Placement run.env r x
  packed : Packed (fun x => run.env.footLo x.2) (fun x => run.env.footHi r x.2)
    (run.front : ℤ) ps (cursor : ℤ)
  fits : (cursor : ℤ) ≤ (target : ℤ) - backReserve s run.front
  plan_eq : match run.extended with
    | some (x, ebr) =>
      AllocEnv.containerOf x ebr (ps.map Prod.snd) ((target : ℤ) - backReserve s run.front) =
        .ok plan
    | none => plan = ps.map Prod.snd

theorem leafRun : ∃ lr : run.LeafRun, lr.cursor ≤
    alignUp run.front (alignment s.logicalSectorBytes) +
      (run.items.map (run.env.room lr.r)).sum := by
  obtain ⟨r, st, -, hst, hle, hplan⟩ := resolveAdjusted_ok run.plan_ok
  obtain ⟨ps, hfst, hsnd, hpl, hpk⟩ := AllocEnv.resolveLeaves_spec _ r hst
  refine ⟨⟨r, st.cursor, ps, hfst, hpl, hpk, hle, ?_⟩, AllocEnv.resolveLeaves_cursor_le _ r hst⟩
  rw [hsnd]
  exact hplan

namespace LeafRun

variable {run} (lr : run.LeafRun)

lemma ps_p : lr.ps.map (fun x => x.1.p) = run.work := by
  rw [← run.items_p, ← lr.items_eq, List.map_map]
  rfl

/-- The source record of a leaf is a leaf of the schema. -/
lemma source_mem {a : Item × ResolvedPart} (ha : a ∈ lr.ps) : a.1.p ∈ run.work := by
  rw [← lr.ps_p]
  exact List.mem_map_of_mem (f := fun x : Item × ResolvedPart => x.1.p) ha

lemma source_schema {a : Item × ResolvedPart} (ha : a ∈ lr.ps) : a.1.p ∈ s.partitions :=
  ((mem_work run.work_ok).mp (lr.source_mem ha)).1

lemma leaf_numbers : (lr.ps.map Prod.snd).map (·.number) = run.work.map (·.number) := by
  rw [← lr.ps_p, List.map_map, List.map_map]
  refine List.map_congr_left fun x hx => ?_
  exact (lr.placed x hx).number_eq

lemma leaf_aligned {a : Item × ResolvedPart} (ha : a ∈ lr.ps) :
    alignment s.logicalSectorBytes ∣ a.2.startSectors :=
  (lr.placed a ha).aligned

lemma leaf_front {a : Item × ResolvedPart} (ha : a ∈ lr.ps) :
    (run.front : ℤ) + run.env.gap a.2.toSchemaPart ≤ a.2.startSectors := by
  have h := (lr.packed.bounds a ha).1
  have h3 := AllocEnv.start_eq_lo_add (e := run.env) a.2
  omega

lemma leaf_bound {a : Item × ResolvedPart} (ha : a ∈ lr.ps) :
    (a.2.stop : ℤ) ≤ (target : ℤ) - backReserve s run.front := by
  have h1 := AllocEnv.stop_le_hi (e := run.env) (r := lr.r) a.2
  have h2 := (lr.packed.bounds a ha).2.2
  exact (h1.trans h2).trans lr.fits

lemma leaf_apart {a b : Item × ResolvedPart} (ha : a ∈ lr.ps) (hb : b ∈ lr.ps)
    (hn : a.2.number ≠ b.2.number) :
    Apart a.2 b.2 := by
  have hab : a ≠ b := fun h => hn (h ▸ rfl)
  unfold Apart
  rcases AllocEnv.leaves_apart lr.packed ha hb hab with h | h
  · left; omega
  · right; omega

include lr in
/-- **A plan without a container is sound.** -/
theorem sound_plain (hc : Captured s) (hx : run.extended = none) : SoundPlan s target plan := by
  have hm : mbrExtended s = false := extendedWithEbr_none (hx ▸ run.extended_ok)
  have hplan : plan = lr.ps.map Prod.snd := by
    have := lr.plan_eq
    rw [hx] at this
    exact this
  have hwork := workParts_plain hm run.work_ok
  -- without a container the schema has neither kind
  have hprim : ∀ p ∈ s.partitions, p.kind ≠ some .extended ∧ p.kind ≠ some .logical := by
    intro p hp
    cases ht : s.partitionTable with
    | gpt => exact hc.gpt ht p hp
    | mbr =>
      have hno : ∀ q ∈ s.partitions, q.kind ≠ some .extended := by
        intro q hq hk
        have hv : s.version = 2 := (hc.kinds q hq).mp (by simp [hk])
        have hany : s.partitions.any (·.kind == some .extended) = true :=
          List.any_eq_true.mpr ⟨q, hq, by simp [hk]⟩
        simp [mbrExtended, hv, ht, hany] at hm
      refine ⟨hno p hp, fun hk => ?_⟩
      obtain ⟨x, hx, hxk⟩ := hc.parent p hp hk
      exact hno x hx hxk
  have hleaf : ∀ q ∈ plan, ∃ a ∈ lr.ps, a.2 = q ∧ q.kind ≠ some .extended ∧
      q.kind ≠ some .logical := by
    intro q hq
    rw [hplan] at hq
    obtain ⟨a, ha, rfl⟩ := List.mem_map.mp hq
    refine ⟨a, ha, rfl, ?_⟩
    rw [(lr.placed a ha).kind_eq]
    exact hprim _ (lr.source_schema ha)
  have hfront := run.smallestStart_eq
  refine ⟨?_, ?_, ?_, ?_, ?_, ?_, ?_, ?_, ?_⟩
  · rw [hplan, lr.leaf_numbers, hwork]
    exact (List.perm_insertionSort _ _).map _
  · intro q hq _
    obtain ⟨a, ha, rfl, -⟩ := hleaf q hq
    exact lr.leaf_aligned ha
  · intro q hq _
    obtain ⟨a, ha, rfl, -⟩ := hleaf q hq
    have := lr.leaf_front ha
    omega
  · intro q hq q' hq' hn _ _
    obtain ⟨a, ha, rfl, -⟩ := hleaf q hq
    obtain ⟨b, hb, rfl, -⟩ := hleaf q' hq'
    exact lr.leaf_apart ha hb hn
  · intro q hq
    obtain ⟨a, ha, rfl, -⟩ := hleaf q hq
    rw [hfront]
    exact lr.leaf_bound ha
  · intro q hq hk
    obtain ⟨a, ha, rfl, -, h2⟩ := hleaf q hq
    exact absurd hk h2
  · intro q hq hk
    obtain ⟨a, ha, rfl, -, h2⟩ := hleaf q hq
    exact absurd hk h2
  · intro q hq hk
    obtain ⟨a, ha, rfl, h1, -⟩ := hleaf q hq
    exact absurd hk h1
  · intro q hq _ _ x hx hk
    obtain ⟨a, ha, rfl, h1, -⟩ := hleaf x hx
    exact absurd hk h1

/-! ### Plans with a container -/

section Container

variable {x : SchemaPart} {ebr : ℕ} (hx : run.extended = some (x, ebr))
include hx

lemma gap_logical {q : SchemaPart} (hk : q.kind = some .logical) : run.env.gap q = ebr := by
  simp [AllocEnv.gap, env, hx, hk]

lemma gap_other {q : SchemaPart} (hk : q.kind ≠ some .logical) : run.env.gap q = 0 := by
  simp [AllocEnv.gap, env, hx, hk]

lemma container_checks : ContainerChecks s x ∧
    run.work = ((sortByNumber s.partitions).filter (·.kind != some .extended)).insertionSort
      StartsBefore := by
  obtain ⟨hm, hhead, -⟩ := extendedWithEbr_some (hx ▸ run.extended_ok)
  obtain ⟨y, hy, hwork⟩ := workParts_container hm run.work_ok
  rw [hy.only, List.head?_cons, Option.some.injEq] at hhead
  exact ⟨hhead ▸ hy, hwork⟩

lemma container_mem : x ∈ s.partitions ∧ x.kind = some .extended := by
  have h : x ∈ ofKind s .extended := by rw [(container_checks hx).1.only]; simp
  exact mem_ofKind.mp h

lemma container_ebr : x.ebrReservedSectors = some ebr :=
  (extendedWithEbr_some (hx ▸ run.extended_ok)).2.2

lemma leaf_not_extended {a : Item × ResolvedPart} (ha : a ∈ lr.ps) : a.2.kind ≠ some .extended := by
  obtain ⟨hm, -, -⟩ := extendedWithEbr_some (hx ▸ run.extended_ok)
  rw [(lr.placed a ha).kind_eq]
  exact ((mem_work run.work_ok).mp (lr.source_mem ha)).2 hm

lemma ps_sorted : lr.ps.Pairwise (fun a b => StartsBefore a.1.p b.1.p) := by
  have h : run.work.Pairwise StartsBefore := by
    rw [(container_checks hx).2]
    exact List.pairwise_insertionSort StartsBefore _
  rw [← lr.ps_p, List.pairwise_map] at h
  exact h

/-- Every logical partition comes before a primary one behind the container, and behind one before
it. -/
lemma primary_side (hc : Captured s) {a : Item × ResolvedPart} (ha : a ∈ lr.ps)
    (hk : a.2.kind ≠ some .logical) :
    (∀ b ∈ lr.ps, b.2.kind = some .logical → a.1.p.startSectors < b.1.p.startSectors) ∨
      (∀ b ∈ lr.ps, b.2.kind = some .logical → b.1.p.startSectors < a.1.p.startSectors) := by
  obtain ⟨hxs, hxk⟩ := container_mem hx
  have hap : a.1.p ∈ ofKind s .primary := by
    have hs := lr.source_schema ha
    have hv : s.version = 2 := (hc.kinds x hxs).mp (by simp [hxk])
    have hsome := (hc.kinds _ hs).mpr hv
    have h1 := lr.leaf_not_extended hx ha
    rw [(lr.placed a ha).kind_eq] at h1 hk
    refine mem_ofKind.mpr ⟨hs, ?_⟩
    rcases hkd : a.1.p.kind with _ | k
    · simp [hkd] at hsome
    · cases k <;> simp_all
  have hov := (container_checks hx).1.apart _ hap
  have hin : ∀ b ∈ lr.ps, b.2.kind = some .logical →
      x.startSectors + 2 ≤ b.1.p.startSectors ∧ b.1.p.startSectors < x.originalEnd := by
    intro b hb hbk
    rw [(lr.placed b hb).kind_eq] at hbk
    have hbs := lr.source_schema hb
    have h1 := hc.inside _ hbs hbk x hxs hxk
    have h2 := hc.positive _ hbs
    have h3 : b.1.p.originalEnd = b.1.p.startSectors + b.1.p.originalSectors := rfl
    omega
  simp only [sourceOverlap, Bool.and_eq_false_iff, decide_eq_false_iff_not, not_lt] at hov
  rcases hov with hov | hov
  · right
    intro b hb hbk
    have := hin b hb hbk
    omega
  · left
    intro b hb hbk
    have := hin b hb hbk
    have h3 : a.1.p.originalEnd = a.1.p.startSectors + a.1.p.originalSectors := rfl
    omega

/-- The logical leaves, in the order of the disk. -/
def logicalPairs : List (Item × ResolvedPart) := lr.ps.filter (·.1.p.kind == some .logical)

omit hx in
lemma mem_logicalPairs {a : Item × ResolvedPart} :
    a ∈ lr.logicalPairs ↔ a ∈ lr.ps ∧ a.2.kind = some .logical := by
  unfold logicalPairs
  rw [List.mem_filter, beq_iff_eq]
  refine and_congr_right fun ha => ?_
  rw [(lr.placed a ha).kind_eq]

omit hx in
lemma logicalPairs_fst :
    lr.logicalPairs.map Prod.fst = run.items.filter (·.p.kind == some .logical) := by
  rw [← lr.items_eq, List.filter_map]
  rfl

lemma logicalItems_eq : run.env.logicalItems = lr.logicalPairs.map Prod.fst := by
  have hsorted : (lr.logicalPairs.map Prod.fst).Pairwise (fun a b => StartsBefore a.p b.p) := by
    rw [List.pairwise_map]
    exact (lr.ps_sorted hx).filter _
  rw [logicalPairs_fst] at hsorted ⊢
  unfold AllocEnv.logicalItems
  simp only [env, hx]
  exact hsorted.insertionSort_eq

lemma logicalFootprint_eq : (run.env.logicalFootprint ebr lr.r : ℤ) =
    (lr.logicalPairs.map fun a => (ebr : ℤ) + a.2.resolvedSectors).sum := by
  have hsum : ((run.items.filter (·.p.kind == some .logical)).map (run.env.sizeOf lr.r)).sum =
      (lr.logicalPairs.map fun a => a.2.resolvedSectors).sum := by
    rw [← logicalPairs_fst, List.map_map]
    congr 1
    refine List.map_congr_left fun a ha => ?_
    exact ((lr.placed a (lr.mem_logicalPairs.mp ha).1).resolved_eq).symm
  unfold AllocEnv.logicalFootprint
  rw [lr.logicalItems_eq hx, List.length_map, show run.env.items = run.items from rfl, hsum]
  generalize lr.logicalPairs = L
  induction L with
  | nil => simp
  | cons a L ih =>
    simp only [List.length_cons, List.map_cons, List.sum_cons] at ih ⊢
    rw [← ih]
    push_cast
    ring

/-- **The tail makes up the container's minimum**: a container that starts with the EBR of the first
logical partition and is as long as its minimum ends before the footprint of the last logical
partition does. -/
lemma minimum_le_last (start : ℤ) (hne : lr.logicalPairs ≠ [])
    (hstart : ∀ a ∈ lr.logicalPairs, start + ebr ≤ a.2.startSectors) :
    ∃ a ∈ lr.logicalPairs, start + x.minSectors ≤ run.env.footHi lr.r a.2 := by
  obtain ⟨a, L, hL⟩ := List.exists_cons_of_ne_nil hne
  have hlast := List.getLast_mem hne
  refine ⟨lr.logicalPairs.getLast hne, hlast, ?_⟩
  have hpw :
      lr.logicalPairs.Pairwise (fun a b => (a.2.stop : ℤ) ≤ (b.2.startSectors : ℤ) - ebr) := by
    refine ((lr.packed.pairwise.filter _).imp_of_mem fun {a b} ha hb h =>
      ?_ : lr.logicalPairs.Pairwise _)
    have h1 := AllocEnv.stop_le_hi (e := run.env) (r := lr.r) a.2
    have h2 := AllocEnv.start_eq_lo_add (e := run.env) b.2
    rw [gap_logical hx (lr.mem_logicalPairs.mp hb).2] at h2
    omega
  have hsum := lr.logicalFootprint_eq hx
  have hlen : ∀ y ∈ lr.logicalPairs,
      ((y.2.startSectors : ℤ) - ebr) + ((ebr : ℤ) + y.2.resolvedSectors) ≤ y.2.stop := by
    intro y _
    have : y.2.stop = y.2.startSectors + y.2.resolvedSectors := rfl
    omega
  have hc : start ≤ (a.2.startSectors : ℤ) - ebr := by
    have := hstart a (by rw [hL]; simp)
    omega
  have htotal : start + run.env.logicalFootprint ebr lr.r ≤
      (lr.logicalPairs.getLast hne).2.stop := by
    rw [hsum]
    simp only [hL] at hpw hlen ⊢
    exact add_sum_le_of_pairwise hpw hlen hc
  -- the last logical leaf is the one behind which the loop keeps the tail
  have htail : run.env.tailAfter lr.r (lr.logicalPairs.getLast hne).2.toSchemaPart =
      run.env.extendedTailSectors lr.r := by
    have hk := (lr.mem_logicalPairs.mp hlast).2
    have hn : run.env.lastLogicalNumber = some (lr.logicalPairs.getLast hne).2.number := by
      unfold AllocEnv.lastLogicalNumber
      rw [lr.logicalItems_eq hx, List.getLast?_map, List.getLast?_eq_some_getLast hne]
      simp only [Option.map_some, Option.some.injEq]
      exact ((lr.placed _ (lr.mem_logicalPairs.mp hlast).1).number_eq).symm
    have hex : run.env.extended = some (x, ebr) := hx
    simp [AllocEnv.tailAfter, hex, hk, hn]
  have hts : (x.minSectors : ℤ) ≤ run.env.logicalFootprint ebr lr.r +
      run.env.extendedTailSectors lr.r := by
    have hex : run.env.extended = some (x, ebr) := hx
    simp only [AllocEnv.extendedTailSectors, hex]
    split <;> omega
  unfold AllocEnv.footHi
  rw [htail]
  omega

variable (x ebr) in
/-- The container the program derives from the logical leaves. -/
structure Derived (box : ResolvedPart) : Prop where
  leaves : plan.Perm (lr.ps.map Prod.snd ++ [box])
  record : ∃ start size, box = x.placed start size
  first : ∃ a ∈ lr.logicalPairs, a.2.startSectors = box.startSectors + ebr
  after : ∀ a ∈ lr.logicalPairs, box.startSectors + ebr ≤ a.2.startSectors
  covers : ∀ a ∈ lr.logicalPairs, a.2.stop ≤ box.stop
  minimum : x.minSectors ≤ box.resolvedSectors
  tight : (∃ a ∈ lr.logicalPairs, box.stop = a.2.stop) ∨ box.stop = box.startSectors + x.minSectors
  fits : (box.stop : ℤ) ≤ (target : ℤ) - backReserve s run.front

theorem derived : ∃ box, lr.Derived x ebr box := by
  have hplan := lr.plan_eq
  simp only [hx, AllocEnv.containerOf] at hplan
  have hfil : (lr.ps.map Prod.snd).filter (·.kind == some .logical) =
      lr.logicalPairs.map Prod.snd := by
    rw [List.filter_map]
    unfold logicalPairs
    congr 1
    refine List.filter_congr fun a ha => ?_
    simp only [Function.comp_apply, (lr.placed a ha).kind_eq]
  rw [hfil] at hplan
  cases hmin : ((lr.logicalPairs.map Prod.snd).map (·.startSectors)).min? with
  | none => simp only [hmin, reduceCtorEq] at hplan
  | some first =>
    cases hmax : ((lr.logicalPairs.map Prod.snd).map (·.stop)).max? with
    | none => simp only [hmin, hmax, reduceCtorEq] at hplan
    | some last =>
      simp only [hmin, hmax] at hplan
      set start := first - ebr with hstart
      set stop := if last > start + x.minSectors then last else start + x.minSectors with hstop
      by_cases hlim : (stop : ℤ) > (target : ℤ) - backReserve s run.front
      · rw [if_pos hlim] at hplan
        simp at hplan
      rw [if_neg hlim, Except.ok.injEq] at hplan
      rw [List.map_map] at hmin hmax
      obtain ⟨hm1, hm2⟩ := List.min?_eq_some_iff.mp hmin
      obtain ⟨hM1, hM2⟩ := List.max?_eq_some_iff.mp hmax
      obtain ⟨a₀, ha₀, hfirst⟩ := List.mem_map.mp hm1
      obtain ⟨a₁, ha₁, hlast⟩ := List.mem_map.mp hM1
      have hge : ebr ≤ first := by
        obtain ⟨h1, h2⟩ := lr.mem_logicalPairs.mp ha₀
        have h3 := lr.leaf_front h1
        rw [gap_logical hx h2] at h3
        have h4 : a₀.2.startSectors = first := hfirst
        omega
      have hle : start ≤ stop := by
        rw [hstop]
        split <;> omega
      have hboxstop : (x.placed start (stop - start)).stop = stop := by
        show start + (stop - start) = stop
        omega
      refine ⟨x.placed start (stop - start), ?_, ⟨_, _, rfl⟩, ⟨a₀, ha₀, ?_⟩, ?_, ?_, ?_, ?_, ?_⟩
      · exact (List.Perm.of_eq hplan.symm).trans (List.perm_insertionSort _ _)
      · show a₀.2.startSectors = start + ebr
        have h4 : a₀.2.startSectors = first := hfirst
        omega
      · intro a ha
        have h4 : first ≤ a.2.startSectors := hm2 _ (List.mem_map.mpr ⟨a, ha, rfl⟩)
        show start + ebr ≤ a.2.startSectors
        omega
      · intro a ha
        have h4 : a.2.stop ≤ last := hM2 _ (List.mem_map.mpr ⟨a, ha, rfl⟩)
        rw [hboxstop, hstop]
        split <;> omega
      · show x.minSectors ≤ stop - start
        rw [hstop]
        split <;> omega
      · rw [hboxstop]
        show _ ∨ stop = start + x.minSectors
        by_cases hgt : last > start + x.minSectors
        · exact .inl ⟨a₁, ha₁, by rw [hstop, if_pos hgt]; exact hlast.symm⟩
        · exact .inr (by rw [hstop, if_neg hgt])
      · rw [hboxstop]
        exact not_lt.mp hlim

/-- A primary leaf lies before the container or behind it. -/
lemma primary_apart (hc : Captured s) {box : ResolvedPart} (hb : lr.Derived x ebr box)
    {a : Item × ResolvedPart} (ha : a ∈ lr.ps) (hk : a.2.kind ≠ some .logical) : Apart a.2 box := by
  have hsorted := lr.ps_sorted hx
  have hgap := gap_other hx hk
  have hgo := AllocEnv.start_eq_lo_add (e := run.env) a.2
  rw [hgap] at hgo
  rcases lr.primary_side hx hc ha hk with hside | hside
  · obtain ⟨b, hbm, hbs⟩ := hb.first
    obtain ⟨hbp, hbk⟩ := lr.mem_logicalPairs.mp hbm
    have h := AllocEnv.ordered_by_source lr.packed hsorted ha hbp (hside b hbp hbk)
    have h1 := AllocEnv.stop_le_hi (e := run.env) (r := lr.r) a.2
    have h2 := AllocEnv.start_eq_lo_add (e := run.env) b.2
    rw [gap_logical hx hbk] at h2
    left
    omega
  · have hafter : ∀ b ∈ lr.logicalPairs, run.env.footHi lr.r b.2 ≤ a.2.startSectors := by
      intro b hbm
      obtain ⟨hbp, hbk⟩ := lr.mem_logicalPairs.mp hbm
      have h := AllocEnv.ordered_by_source lr.packed hsorted hbp ha (hside b hbp hbk)
      omega
    right
    rcases hb.tight with ⟨b, hbm, heq⟩ | heq
    · have h1 := AllocEnv.stop_le_hi (e := run.env) (r := lr.r) b.2
      have h2 := hafter b hbm
      omega
    · obtain ⟨b₀, hb₀, -⟩ := hb.first
      obtain ⟨b, hbm, hmin⟩ := lr.minimum_le_last hx box.startSectors (List.ne_nil_of_mem hb₀)
        (fun b hbm => by exact_mod_cast hb.after b hbm)
      have h2 := hafter b hbm
      omega

/-- The leaves and the container are the schema. -/
lemma work_perm : (run.work ++ [x]).Perm s.partitions :=
  workParts_perm (extendedWithEbr_some (hx ▸ run.extended_ok)).1 run.work_ok
    (container_checks hx).1.only

include lr in
/-- **A plan with a container is sound.** -/
theorem sound_container (hc : Captured s) : SoundPlan s target plan := by
  obtain ⟨box, hb⟩ := lr.derived hx
  obtain ⟨bstart, bsize, hbox⟩ := hb.record
  have hboxk : box.kind = some .extended := by rw [hbox]; exact (container_mem hx).2
  have hboxn : box.number = x.number := by rw [hbox]; rfl
  have hboxe : box.ebrReservedSectors.getD 0 = ebr := by
    have : box.ebrReservedSectors = x.ebrReservedSectors := by rw [hbox]; rfl
    rw [this, container_ebr hx, Option.getD_some]
  have hboxm : box.minSectors = x.minSectors := by rw [hbox]; rfl
  have hmem : ∀ q, q ∈ plan ↔ (∃ a ∈ lr.ps, a.2 = q) ∨ q = box := by
    intro q
    rw [hb.leaves.mem_iff, List.mem_append, List.mem_map, List.mem_singleton]
  have hleaf : ∀ q ∈ plan, q.kind ≠ some .extended → ∃ a ∈ lr.ps, a.2 = q := by
    intro q hq hk
    rcases (hmem q).mp hq with h | rfl
    · exact h
    · exact absurd hboxk hk
  have hext : ∀ q ∈ plan, q.kind = some .extended → q = box := by
    intro q hq hk
    rcases (hmem q).mp hq with ⟨a, ha, rfl⟩ | rfl
    · exact absurd hk (lr.leaf_not_extended hx ha)
    · rfl
  have hlog : ∀ q ∈ plan, q.kind = some .logical → ∃ a ∈ lr.logicalPairs, a.2 = q := by
    intro q hq hk
    obtain ⟨a, ha, rfl⟩ := hleaf q hq (by rw [hk]; simp)
    exact ⟨a, lr.mem_logicalPairs.mpr ⟨ha, hk⟩, rfl⟩
  have hfront := run.smallestStart_eq
  refine ⟨?_, ?_, ?_, ?_, ?_, ?_, ?_, ?_, ?_⟩
  · have h1 := hb.leaves.map (·.number)
    rw [List.map_append, lr.leaf_numbers, List.map_singleton, hboxn] at h1
    exact h1.trans (by simpa using (work_perm hx).map (·.number))
  · intro q hq hk
    obtain ⟨a, ha, rfl⟩ := hleaf q hq hk
    exact lr.leaf_aligned ha
  · intro q hq hk
    obtain ⟨a, ha, rfl⟩ := hleaf q hq hk
    have := lr.leaf_front ha
    omega
  · intro q hq q' hq' hn hk hk'
    obtain ⟨a, ha, rfl⟩ := hleaf q hq hk
    obtain ⟨b, hb', rfl⟩ := hleaf q' hq' hk'
    exact lr.leaf_apart ha hb' hn
  · intro q hq
    rw [hfront]
    rcases (hmem q).mp hq with ⟨a, ha, rfl⟩ | rfl
    · exact lr.leaf_bound ha
    · exact hb.fits
  · exact fun _ _ _ => ⟨box, (hmem box).mpr (.inr rfl), hboxk⟩
  · intro q hq hk y hy hyk
    obtain rfl := hext y hy hyk
    obtain ⟨a, ha, rfl⟩ := hlog q hq hk
    rw [hboxe]
    refine ⟨hb.after a ha, hb.covers a ha, fun q' hq' hk' hn => ?_⟩
    obtain ⟨b, hbm, rfl⟩ := hlog q' hq' hk'
    obtain ⟨hap, -⟩ := lr.mem_logicalPairs.mp ha
    obtain ⟨hbp, -⟩ := lr.mem_logicalPairs.mp hbm
    have hab : a ≠ b := fun h => hn (h ▸ rfl)
    unfold EbrFree
    rcases AllocEnv.leaves_apart lr.packed hap hbp hab with h | h
    · have : a.2.stop = a.2.startSectors + a.2.resolvedSectors := rfl
      right; omega
    · rw [gap_logical hx hk] at h
      left; omega
  · intro y hy hyk
    obtain rfl := hext y hy hyk
    rw [hboxm]
    exact hb.minimum
  · intro q hq hk hk' y hy hyk
    obtain rfl := hext y hy hyk
    obtain ⟨a, ha, rfl⟩ := hleaf q hq hk
    exact lr.primary_apart hx hc hb ha hk'

end Container

end LeafRun

end AdjustedRun

/-- **The plan of an adjusted layout is sound.**  For every captured schema, layout and target on
which the resolver succeeds and some partition other than the derived container has an adjusted
mode. -/
theorem resolveLayout_sound {s : Schema} {l : Layout} {target : ℕ} {plan : List ResolvedPart}
    (hc : Captured s) (hadj : Adjusts s l) (h : resolveLayout s l target = .ok plan) :
    SoundPlan s target plan := by
  obtain ⟨run⟩ := resolveLayout_adjusted hadj h
  obtain ⟨lr, -⟩ := run.leafRun
  rcases hx : run.extended with _ | ⟨x, ebr⟩
  · exact lr.sound_plain hc hx
  · exact lr.sound_container hx hc

/-! ### Two schemas -/

/-- A data partition of an MBR schema. -/
def ntfsPart (number start size : ℕ) (kind : Kind) (parent : Option ℕ) : SchemaPart :=
  ⟨number, start, size, size, "0x07", .data, true, "ntfs", none, none, none,
    some kind, parent, none⟩

/-- The extended container of an MBR schema. -/
def containerPart (number start size : ℕ) : SchemaPart :=
  ⟨number, start, size, size, "0x05", .extendedContainer, false, "", none, none, none,
    some .extended, none, some 2⟩

/-- A primary partition from sector 63, a container with two logical partitions, and a primary
partition behind it. -/
def dosSchema : Schema :=
  ⟨2, .mbr, 2097152, 512, [ntfsPart 1 63 449 .primary none, containerPart 3 512 2048,
    ntfsPart 4 2560 512 .primary none, ntfsPart 5 514 600 .logical (some 3),
      ntfsPart 6 1200 700 .logical (some 3)], none⟩

/-- A layout entry without a size. -/
def entry (number : ℕ) (mode : Mode) : LayoutPart := ⟨number, .value mode, .absent, .absent⟩

/-- Every leaf kept, the container derived. -/
def keptLayout : Layout :=
  ⟨some [entry 1 .original, entry 3 .derived, entry 4 .original, entry 5 .original,
    entry 6 .original], []⟩

/-- The second logical partition grows. -/
def grownLayout : Layout :=
  ⟨some [entry 1 .original, entry 3 .derived, entry 4 .original, entry 5 .original,
    entry 6 .remaining], []⟩

theorem dosSchema_captured : Captured dosSchema := by
  refine ⟨?_, ?_, ?_, ?_, ?_⟩ <;> decide

theorem grownLayout_adjusts : Adjusts dosSchema grownLayout :=
  ⟨_, rfl, entry 6 .remaining, by decide, by decide, by decide⟩

/-- The derived container is no adjusted partition: with every leaf kept the captured table is
restored verbatim, and its first partition stays at sector 63. -/
theorem resolveLayout_kept_unaligned :
    Captured dosSchema ∧
    (∃ lp, keptLayout.partitions = some lp ∧ ∃ o ∈ lp, o.modeOrOriginal ≠ .original) ∧
      ∃ plan, resolveLayout dosSchema keptLayout 8192 = .ok plan ∧
        ¬ SoundPlan dosSchema 8192 plan := by
  refine ⟨dosSchema_captured, ⟨_, rfl, entry 3 .derived, by decide, by decide⟩, _,
    (by decide +kernel : resolveLayout dosSchema keptLayout 8192 =
      .ok (dosSchema.partitions.map fun p => p.placed p.startSectors p.originalSectors)),
        fun h => ?_⟩
  have := h.aligned ((ntfsPart 1 63 449 .primary none).placed 63 449) (by decide) (by decide)
  revert this
  decide

/-- The plan of the grown layout on a disk of 8192 sectors. -/
theorem resolveLayout_grown_sound :
    ∃ plan, resolveLayout dosSchema grownLayout 8192 = .ok plan ∧
      SoundPlan dosSchema 8192 plan := by
  have hok : (resolveLayout dosSchema grownLayout 8192).isOk = true := by decide +kernel
  cases h : resolveLayout dosSchema grownLayout 8192 with
  | error m => rw [h] at hok; cases hok
  | ok plan => exact ⟨plan, rfl, resolveLayout_sound dosSchema_captured grownLayout_adjusts h⟩

end Pxeos.Deploy
