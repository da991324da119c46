import Pxeos.Sfdisk.FillOrder
import Mathlib.Data.List.Chain

/-!
# The table after a fill

What the table of a successful `fill_disk` must satisfy, and when it does.  The last check of the
function compares every two partitions, but a primary partition only with the start of the
container; the rest is left to the placement, which leaves the partitions it does not move where
they were, and a container without logical partitions with its old size.
-/

namespace Pxeos.Sfdisk

open Pxeos.Lib

/-- **A table that can be written**: partitions apart, inside the disk, and primary partitions
outside the container that holds the logical ones. -/
structure SoundTable (c : Settings) (t : Table) (out : Filled) : Prop where
  apart : ∀ p ∈ out.parts, ∀ q ∈ out.parts, p.number ≠ q.number → isExtendedType p.type = false →
    isExtendedType q.type = false → p.size ≠ 0 → q.size ≠ 0 → p.stop ≤ q.start ∨ q.stop ≤ p.start
  bound : ∀ p ∈ out.parts, p.stop ≤ diskEnd c t
  logical : t.label ≠ .gpt → ∀ p ∈ out.parts, 4 < p.number →
    ∃ x ∈ out.parts, isExtendedType x.type = true ∧ x.start + 2 ≤ p.start ∧ p.stop ≤ x.stop
  primary : t.label ≠ .gpt → ∀ x ∈ out.parts, isExtendedType x.type = true →
    ∀ p ∈ out.parts, p.number ≤ 4 →
    p.number ≠ x.number → p.size ≠ 0 → x.size ≠ 0 → p.stop ≤ x.start ∨ x.stop ≤ p.start

/-- **The condition.**  Partitions that are left in place end before the end of the disk; a
container without logical partitions does so at its new place, and nothing is placed behind it
unless it is as small as its margin; and no primary partition is placed between the container and a
logical partition. -/
structure FillSafe (c : Settings) (t : Table) (tr : Traversal t.numbers) : Prop where
  unmoved : ∀ p ∈ t.parts, wantSize c t p = 0 → p.start ≤ diskEnd c t
  bare : (∀ p ∈ t.parts, p.number ≤ 4) → ∀ x ∈ planned c t tr,
    x.isContainer t.label = true → x.size ≠ 0 →
    x.stop ≤ diskEnd c t ∧ ∀ p, [x, p].Sublist (planned c t tr) → p.size ≠ 0 → x.size ≤ 2
  between : ∀ x p l, [x, p].Sublist (planned c t tr) → [p, l].Sublist (planned c t tr) →
    x.isContainer t.label = true →
    x.size ≠ 0 → p.size ≠ 0 → p.number ≤ 4 → l.number ≤ 4

/-! ### Neighbours in the plan -/

section Chain

variable {minStart : ℕ} {label : Label}

/-- A partition starts where the one before it ends, unless it is a logical partition with a gap
before it. -/
def Adjacent (minStart : ℕ) (label : Label) (a b : Part) : Prop :=
  b.isLogical label = false ∨ minStart = 0 → slotLo minStart label b = slotHi label a

variable (minStart label) in
lemma plan_adjacent : ∀ (ps : List Part) (curr : ℤ) (k : ℕ),
    ((plan minStart label curr k ps).filter Part.present).IsChain (Adjacent minStart label) ∧
      ∀ a ∈ ((plan minStart label curr k ps).filter Part.present).head?,
        a.isLogical label = false ∨ minStart = 0 → slotLo minStart label a = curr
  | [], _, _ => ⟨.nil, by simp [plan]⟩
  | p :: ps, curr, k => by
    by_cases h0 : p.size = 0
    · have hp : ¬ p.present = true := by simp [h0]
      unfold plan
      rw [if_pos h0, List.filter_cons_of_neg hp]
      exact plan_adjacent ps curr k
    have hp : ∀ a, ({ p with start := a } : Part).present = true := fun a => by simp [h0]
    unfold plan
    rw [if_neg h0]
    split
    next hc =>
      rw [List.filter_cons_of_pos (hp _)]
      set x : Part := { p with start := curr + minStart - extendedMargin } with hx
      have hxc : x.isContainer label = true := hc
      have hlo : slotLo minStart label x = curr := by
        rw [slotLo_container hxc]; simp only [hx]; ring
      have hhi : slotHi label x = curr + minStart := by
        rw [slotHi_container hxc]; simp only [hx]; ring
      obtain ⟨h1, h2⟩ := plan_adjacent ps (curr + minStart) 0
      refine ⟨List.isChain_cons.mpr ⟨fun b hb hl => ?_, h1⟩, ?_⟩
      · rw [hhi]
        exact h2 b hb hl
      · rintro a ha -
        obtain rfl := Option.some.inj ha
        exact hlo
    next hc =>
      dsimp only
      rw [List.filter_cons_of_pos (hp _)]
      set s := dataStart minStart label curr k p with hs
      set x : Part := { p with start := s } with hx
      have hxc : x.isContainer label = false := Bool.not_eq_true _ ▸ hc
      have hlo : slotLo minStart label x = s := slotLo_data hxc
      have hhi : slotHi label x = s + p.size := slotHi_data hxc
      obtain ⟨h1, h2⟩ := plan_adjacent ps (s + p.size) (if p.isLogical label then k + 1 else k)
      refine ⟨List.isChain_cons.mpr ⟨fun b hb hl => ?_, h1⟩, ?_⟩
      · rw [hhi]
        exact h2 b hb hl
      · intro a ha hl
        obtain rfl := Option.some.inj ha
        rw [hlo, hs]
        unfold dataStart
        split
        next hcond =>
          rcases hl with hl | rfl
          · have hl : p.isLogical label = false := hl
            rw [hl] at hcond
            exact absurd hcond.1 Bool.false_ne_true
          · simp
        next => rfl

end Chain

/-! ### Order in a list -/

/-- Two members of a list come in one of the two orders. -/
lemma sublist_or_sublist {α : Type} {l : List α} {a b : α} (ha : a ∈ l) (hb : b ∈ l) (hab : a ≠ b) :
    [a, b].Sublist l ∨ [b, a].Sublist l :=
  or_of_pairwise (List.pairwise_iff_forall_sublist.mpr fun h => h) ha hb hab

/-! ### The records of a run -/

section Records

variable {c : Settings} {t : Table} {tr : Traversal t.numbers} {out : Filled}

/-- A partition with data after the fill. -/
structure DataFinal (c : Settings) (t : Table) (r q : Part) : Prop where
  number : q.number = r.number
  type : q.type = r.type
  start : q.start = r.start
  pos : 0 < q.size
  le : q.size ≤ r.size
  bound : q.stop ≤ diskEnd c t
  uncut : r.stop ≤ diskEnd c t → q.size = r.size

lemma clamp_dataFinal {r : Part} (hf : fits c.sectorSize t.label (diskEnd c t) r = true)
    (hd : r.isData t.label = true) (hr : 0 < r.size) :
    DataFinal c t r (clamp c.sectorSize t.label (diskEnd c t) r) := by
  have hsize : (clamp c.sectorSize t.label (diskEnd c t) r).size =
      clampSize c.sectorSize (diskEnd c t) r := by
    unfold clamp
    rw [if_pos hd]
  by_cases hlt : diskEnd c t < r.stop
  · have hpos : 0 < clampSize c.sectorSize (diskEnd c t) r := by simpa [fits, hd, hlt] using hf
    have hcut := clampSize_lt hf hd hlt
    refine ⟨clamp_number _ _ _ _, clamp_type _ _ _ _, clamp_start _ _ _ _, by omega,
      by omega, ?_, by omega⟩
    unfold Part.stop
    rw [hsize, clamp_start]
    unfold clampSize at hpos ⊢
    rw [if_pos hlt] at hpos ⊢
    rcases le_total 0 (diskEnd c t - r.start) with hx | hx
    · have := Int.tmod_nonneg (c.sectorSize : ℤ) hx
      omega
    · have := sub_tmod_nonpos (a := c.sectorSize) hx
      omega
  · have hcl : clampSize c.sectorSize (diskEnd c t) r = r.size := clampSize_of_le (not_lt.mp hlt)
    refine ⟨clamp_number _ _ _ _, clamp_type _ _ _ _, clamp_start _ _ _ _, by omega,
      by omega, ?_, by omega⟩
    unfold Part.stop at hlt ⊢
    rw [hsize, clamp_start, hcl]
    exact not_lt.mp hlt

/-- Every planned partition with data has its record. -/
lemma FillRun.data_final (run : FillRun c t tr out) {r : Part} (hr : r ∈ planned c t tr)
    (h0 : r.size ≠ 0) (hc : r.isContainer t.label = false) :
    ∃ q ∈ out.parts, DataFinal c t r q := by
  obtain ⟨p, hp, hn, he⟩ := planned_source hr
  obtain ⟨q, hq, hqn⟩ := run.exists_record hp
  have hpc : p.isContainer t.label = false := by rw [he] at hc; exact hc
  have hpos : 0 < r.size := lt_of_le_of_ne (planned_nonneg hr) h0.symm
  have hd : r.isData t.label = true := by simp [Part.isData, h0, hc]
  refine ⟨q, hq, ?_⟩
  rcases run.record hq hp hqn hpc with ⟨r', hr', hn', rfl⟩ | ⟨hno, -⟩
  · obtain rfl := eq_of_number planned_nodup hr' hr (hn'.trans hn.symm)
    exact clamp_dataFinal (run.fits r' hr') hd hpos
  · exact absurd hn (hno r hr)

/-- A partition that is not moved. -/
lemma FillRun.unmoved (run : FillRun c t tr out) {p q : Part} (hp : p ∈ t.parts)
    (h0 : wantSize c t p = 0) (hq : q ∈ out.parts) (hn : q.number = p.number) :
    q = wantPart c t p := by
  rcases mem_moved (run.mem_moved_of_ne hq (hn ▸ extName_ne hp (.inr h0))) hp hn with ⟨r, hr, hrn,
    rfl⟩ | ⟨-, rfl⟩
  · have hr0 : r.size = 0 := by rw [planned_record hr hp hrn]; exact h0
    have hd : r.isData t.label = false := by simp [Part.isData, hr0]
    have hrw : r ∈ wanted c t :=
      ((mem_visit (wanted_nodup c t)).mp (mem_of_mem_plan_of_size_eq_zero hr0 hr)).1
    rw [clamp, if_neg (by rw [hd]; exact Bool.false_ne_true)]
    exact eq_of_number (wanted_nodup c t) hrw (List.mem_map_of_mem hp) hrn
  · rfl

end Records

/-! ### The container -/

section Container

/-- The container loop leaves the old size, or the end of a logical partition. -/
lemma foldl_containerStep_cases (a : ℤ) : ∀ (ps : List Part) (b : ℤ),
    ps.foldl (containerStep a) b = b ∨
    ∃ l ∈ ps, 4 < l.number ∧ a < l.stop ∧ ps.foldl (containerStep a) b = l.stop - a
  | [], _ => .inl rfl
  | p :: ps, b => by
    rw [List.foldl_cons]
    rcases foldl_containerStep_cases a ps (containerStep a b p) with h | ⟨l, hl, hl'⟩
    · rw [h]
      unfold containerStep
      split
      next hp => exact .inr ⟨p, List.mem_cons_self, hp.1, hp.2, rfl⟩
      next => exact .inl rfl
    · exact .inr ⟨l, List.mem_cons_of_mem p hl, hl'⟩

/-- With a logical partition behind the container's start it is the end of one. -/
lemma foldl_containerStep_of_mem {a : ℤ} : ∀ {ps : List Part} (b : ℤ) {p : Part}, p ∈ ps →
    4 < p.number → a < p.stop →
    ∃ l ∈ ps, 4 < l.number ∧ a < l.stop ∧ ps.foldl (containerStep a) b = l.stop - a
  | q :: ps, b, p, hp, hn, hs => by
    rw [List.foldl_cons]
    rcases foldl_containerStep_cases a ps (containerStep a b q) with h | ⟨l, hl, hl'⟩
    · rcases List.mem_cons.mp hp with rfl | hp
      · refine ⟨p, List.mem_cons_self, hn, hs, ?_⟩
        rw [h]
        exact if_pos ⟨hn, hs⟩
      · obtain ⟨l, hl, hl'⟩ := foldl_containerStep_of_mem (containerStep a b q) hp hn hs
        exact ⟨l, List.mem_cons_of_mem q hl, hl'⟩
    · exact ⟨l, List.mem_cons_of_mem q hl, hl'⟩

lemma lastContainer_of_all {label : Label} {n : ℕ} : ∀ {ps : List Part},
    (∀ v ∈ ps, v.size ≠ 0 → v.isContainer label = true → v.number = n) →
    lastContainer label (some n) ps = some n
  | [], _ => rfl
  | p :: ps, h => by
    have ih := lastContainer_of_all fun v hv => h v (List.mem_cons_of_mem p hv)
    unfold lastContainer
    split
    next hp => rw [h p List.mem_cons_self hp.1 hp.2, ih]
    next => exact ih

/-- The only container that is not empty is the last one. -/
lemma lastContainer_eq {label : Label} {w : Part} (h0 : w.size ≠ 0)
    (hc : w.isContainer label = true) :
    ∀ {ps : List Part} {o : Option ℕ}, w ∈ ps →
      (∀ v ∈ ps, v.size ≠ 0 → v.isContainer label = true → v.number = w.number) →
      lastContainer label o ps = some w.number
  | p :: ps, o, hw, h => by
    have hps : ∀ v ∈ ps, v.size ≠ 0 → v.isContainer label = true → v.number = w.number :=
      fun v hv => h v (List.mem_cons_of_mem p hv)
    unfold lastContainer
    rcases List.mem_cons.mp hw with rfl | hw
    · rw [if_pos ⟨h0, hc⟩]
      exact lastContainer_of_all hps
    · exact lastContainer_eq h0 hc hw hps

variable {c : Settings} {t : Table} {tr : Traversal t.numbers} {out : Filled}

/-- There is one container at most. -/
lemma EbrSound.eq (h : EbrSound t) {x y : Part} (hx : x ∈ t.parts) (hy : y ∈ t.parts)
    (hxe : isExtendedType x.type = true) (hye : isExtendedType y.type = true) : x = y := by
  have hx' : x ∈ t.parts.filter fun x => isExtendedType x.type := List.mem_filter.mpr ⟨hx, hxe⟩
  have hy' : y ∈ t.parts.filter fun x => isExtendedType x.type := List.mem_filter.mpr ⟨hy, hye⟩
  obtain ⟨a, ha⟩ := List.length_eq_one_iff.mp (le_antisymm h.one (List.length_pos_of_mem hx'))
  rw [ha, List.mem_singleton] at hx' hy'
  rw [hx', hy']

lemma isContainer_of_dos (hl : t.label ≠ .gpt) (p : Part) :
    p.isContainer t.label = isExtendedType p.type := by
  simp [Part.isContainer, hl]

/-- The container after the fill: at its planned start, with the size the container loop gives
it. -/
structure ContainerFinal (c : Settings) (t : Table) (tr : Traversal t.numbers) (r x : Part) :
    Prop where
  number : x.number = r.number
  type : x.type = r.type
  start : x.start = r.start
  size : x.size = (walk tr (sortsIn c t) .container (moved c t tr)).foldl
    (containerStep r.start) r.size

lemma FillRun.container_final (run : FillRun c t tr out) (hl : t.label ≠ .gpt)
    (hvis : ContainerVisible t) {x : Part} (hx : x ∈ t.parts) (he : isExtendedType x.type = true)
    (h0 : x.size ≠ 0) :
    ∃ r ∈ planned c t tr, r.number = x.number ∧ r.size = x.size ∧ r.isContainer t.label = true ∧
      ∃ x' ∈ out.parts, ContainerFinal c t tr r x' := by
  have hsound := ebrSound hl run.ebr
  have hxc : x.isContainer t.label = true := by rw [isContainer_of_dos hl]; exact he
  have hwant : wantSize c t x = x.size := by simp [wantSize, hxc]
  have hvisited : wantPart c t x ∈ visited c t tr := by
    refine (List.mem_filter.mp ((visited_perm tr run.source hvis).mem_iff.mpr (List.mem_filter.mpr
      ⟨List.mem_map_of_mem hx, ?_⟩))).1
    simpa [hwant] using h0
  have hext : extName c t tr = some x.number := by
    refine lastContainer_eq (w := wantPart c t x) (by simpa [hwant] using h0) hxc hvisited fun v hv _ hvc => ?_
    obtain ⟨hv, -⟩ := (mem_visit (wanted_nodup c t)).mp hv
    obtain ⟨y, hy, rfl⟩ := List.mem_map.mp hv
    have hye : isExtendedType y.type = true := by rw [← isContainer_of_dos hl]; exact hvc
    rw [hsound.eq hy hx hye he]
  have hnum : x.number ∈ (planned c t tr).map (·.number) := by
    unfold planned
    rw [plan_numbers]
    exact List.mem_map.mpr ⟨_, hvisited, rfl⟩
  obtain ⟨r, hr, hrn⟩ := List.mem_map.mp hnum
  have hrec := planned_record hr hx hrn
  have hrc : r.isContainer t.label = true := by rw [hrec]; exact hxc
  refine ⟨r, hr, hrn, by rw [hrec]; exact hwant, hrc, ?_⟩
  obtain ⟨m, hm, hmn⟩ : ∃ m ∈ moved c t tr, m.number = x.number := by
    have : x.number ∈ (moved c t tr).map (·.number) := by
      rw [show (moved c t tr).map (·.number) = t.numbers from (overwrite_numbers _ _).trans (wanted_numbers c t)]
      exact List.mem_map_of_mem hx
    obtain ⟨m, hm, he⟩ := List.mem_map.mp this
    exact ⟨m, hm, he⟩
  have hmr : m = r := by
    rcases mem_moved hm hx hmn with ⟨r', hr', hn', rfl⟩ | ⟨hno, -⟩
    · obtain rfl := eq_of_number planned_nodup hr' hr (hn'.trans hrn.symm)
      have hd : r'.isData t.label = false := by simp [Part.isData, hrc]
      rw [clamp, if_neg (by rw [hd]; exact Bool.false_ne_true)]
    · exact absurd hrn (hno r hr)
  subst hmr
  refine ⟨{ m with
      size := (walk tr (sortsIn c t) .container (moved c t tr)).foldl (containerStep m.start) m.size }, ?_,
    ⟨rfl, rfl, rfl, rfl⟩⟩
  rw [run.parts, hext]
  exact List.mem_map.mpr ⟨m, hm, if_pos hmn⟩

end Container

section Parts

variable {c : Settings} {t : Table} {tr : Traversal t.numbers} {out : Filled}
  (run : FillRun c t tr out)

include run

/-- Every partition of the result is one of the source. -/
lemma FillRun.source_of {q : Part} (hq : q ∈ out.parts) : ∃ p ∈ t.parts, q.number = p.number := by
  have hmem : q.number ∈ t.numbers := by
    rw [← run.numbers]
    exact List.mem_map_of_mem hq
  obtain ⟨p, hp, he⟩ := List.mem_map.mp hmem
  exact ⟨p, hp, he.symm⟩

/-- A partition that is not empty is planned. -/
lemma FillRun.planned_of_want (hvis : ContainerVisible t) {p : Part} (hp : p ∈ t.parts)
    (h0 : wantSize c t p ≠ 0) :
    ∃ r ∈ planned c t tr, r.number = p.number ∧ r.size = wantSize c t p := by
  have hw : wantPart c t p ∈ (visited c t tr).filter Part.present :=
    (visited_perm tr run.source hvis).mem_iff.mpr
      (List.mem_filter.mpr ⟨List.mem_map_of_mem hp, by simpa using h0⟩)
  have hnum : p.number ∈ (planned c t tr).map (·.number) := by
    unfold planned
    rw [plan_numbers]
    exact List.mem_map.mpr ⟨_, (List.mem_filter.mp hw).1, rfl⟩
  obtain ⟨r, hr, hrn⟩ := List.mem_map.mp hnum
  exact ⟨r, hr, hrn, by rw [planned_record hr hp hrn]; rfl⟩

/-- The record of a partition with data. -/
lemma FillRun.final_of_want (hvis : ContainerVisible t) {p q : Part} (hp : p ∈ t.parts)
    (h0 : wantSize c t p ≠ 0) (hc : p.isContainer t.label = false) (hq : q ∈ out.parts)
    (hn : q.number = p.number) :
    ∃ r ∈ planned c t tr, r.number = p.number ∧ r.size ≠ 0 ∧ r.isContainer t.label = false ∧
      DataFinal c t r q := by
  obtain ⟨r, hr, hrn, hrs⟩ := run.planned_of_want hvis hp h0
  have hrc : r.isContainer t.label = false := by rw [planned_record hr hp hrn]; exact hc
  obtain ⟨q', hq', hf⟩ := run.data_final hr (hrs ▸ h0) hrc
  have hnodup : (out.parts.map (·.number)).Nodup := by rw [run.numbers]; exact t.nodup_numbers
  obtain rfl := eq_of_number hnodup hq' hq (hf.number.trans (hrn.trans hn.symm))
  exact ⟨r, hr, hrn, hrs ▸ h0, hrc, hf⟩

/-- A logical partition of the table after the placement loop is one of the result. -/
lemma FillRun.logical_mem (hl : t.label ≠ .gpt) {q : Part} (hq : q ∈ moved c t tr)
    (hn : 4 < q.number) : q ∈ out.parts := by
  rw [run.parts]
  unfold resizeContainer
  cases hext : extName c t tr with
  | none => exact hq
  | some n =>
    obtain ⟨x, hx, hxn, -, hxc⟩ := extName_some hext
    rw [isContainer_of_dos hl] at hxc
    have := ((ebrSound hl run.ebr).number x hx hxc).2
    exact List.mem_map.mpr ⟨q, hq, if_neg (by omega)⟩

section Box

variable (hl : t.label ≠ .gpt) (hvis : ContainerVisible t) {r x : Part} (hr : r ∈ planned c t tr)
  (hrc : r.isContainer t.label = true) (hr0 : r.size ≠ 0) (hx : x ∈ out.parts)
    (hf : ContainerFinal c t tr r x)

omit run in
include hr hr0 hf in
lemma ContainerFinal.pos : 0 < x.size := by
  have hpos : 0 < r.size := lt_of_le_of_ne (planned_nonneg hr) hr0.symm
  rw [hf.size]
  rcases foldl_containerStep_cases r.start
    (walk tr (sortsIn c t) .container (moved c t tr)) r.size with
    h | ⟨l, -, -, hlt, h⟩
  · omega
  · omega

include hl hr hrc in
lemma FillRun.container_number : r.number ≤ 4 := by
  obtain ⟨p, hp, hn, he⟩ := planned_source hr
  have hpe : isExtendedType p.type = true := by
    rw [← isContainer_of_dos hl]
    rw [he] at hrc
    exact hrc
  rw [hn]
  exact ((ebrSound hl run.ebr).number p hp hpe).2

include hl hr hrc hr0 hx hf in
/-- A logical partition lies inside the container. -/
lemma FillRun.inside {q : Part} (hq : q ∈ out.parts) (hn : 4 < q.number) :
    x.start + 2 ≤ q.start ∧ x.start + 2 < q.stop ∧ q.stop ≤ x.stop := by
  have hr4 := run.container_number hl hr hrc
  have hxe : isExtendedType x.type = true := by
    rw [hf.type, ← isContainer_of_dos hl]
    exact hrc
  have hne : x.number ≠ q.number := by
    have := hf.number
    omega
  exact pairOk_logical (run.final q hq x hx hne) (ne_of_gt (hf.pos hr hr0)) hxe hn

include hl hr hrc hr0 hx hf in
/-- With logical partitions the container ends where one of them does. -/
lemma FillRun.container_stop (hex : ∃ p ∈ t.parts, 4 < p.number) :
    ∃ l ∈ out.parts, 4 < l.number ∧ x.stop = l.stop := by
  obtain ⟨p, hp, hn⟩ := hex
  obtain ⟨q, hq, hqn⟩ := run.exists_record hp
  have hq4 : 4 < q.number := hqn ▸ hn
  have hin := run.inside hl hr hrc hr0 hx hf hq hq4
  have hpc : p.isContainer t.label = false := by
    rw [isContainer_of_dos hl, ← Bool.not_eq_true]
    intro he
    have := ((ebrSound hl run.ebr).number p hp he).2
    omega
  have hmoved : q ∈ moved c t tr := run.mem_moved_of_ne hq (hqn ▸ extName_ne hp (.inl hpc))
  have hnum : (moved c t tr).map (·.number) = t.numbers :=
    (overwrite_numbers _ _).trans (wanted_numbers c t)
  have hwalk : ∀ l, l ∈ walk tr (sortsIn c t) .container (moved c t tr) ↔ l ∈ moved c t tr :=
    fun l =>
    (walk_perm t.nodup_numbers tr _ _ hnum).mem_iff
  have hlt : r.start < q.stop := by
    have := hf.start
    omega
  obtain ⟨l, hlm, hl4, -, hsize⟩ := foldl_containerStep_of_mem r.size ((hwalk q).mpr hmoved) hq4 hlt
  refine ⟨l, run.logical_mem hl ((hwalk l).mp hlm) hl4, hl4, ?_⟩
  unfold Part.stop at hsize ⊢
  rw [hf.size, hsize, hf.start]
  ring

omit run in
include hf in
/-- Without logical partitions it keeps its size. -/
lemma ContainerFinal.size_eq (hno : ∀ p ∈ t.parts, p.number ≤ 4) : x.size = r.size := by
  have hnum : (moved c t tr).map (·.number) = t.numbers :=
    (overwrite_numbers _ _).trans (wanted_numbers c t)
  rw [hf.size]
  refine foldl_containerStep r.size fun p hp => ?_
  have hmem : p.number ∈ t.numbers := by
    rw [← hnum]
    exact List.mem_map_of_mem ((walk_perm t.nodup_numbers tr _ _ hnum).mem_iff.mp hp)
  obtain ⟨q, hq, hn⟩ := List.mem_map.mp hmem
  exact hn ▸ hno q hq

omit run in
/-- A partition before another in the plan. -/
lemma planned_before {a b : Part} (h : [a, b].Sublist (planned c t tr)) (ha : a.size ≠ 0)
    (hb : b.size ≠ 0) :
    slotHi t.label a ≤ slotLo c.minStart t.label b := by
  have hsub := h.filter Part.present
  rw [List.filter_cons_of_pos (by simpa using ha), List.filter_cons_of_pos (by simpa using hb),
    List.filter_nil] at hsub
  exact List.pairwise_iff_forall_sublist.mp (planned_pairwise c t tr) hsub

include hl in
/-- There is one container at most in the plan. -/
lemma FillRun.container_unique {a b : Part} (ha : a ∈ planned c t tr) (hb : b ∈ planned c t tr)
    (hac : a.isContainer t.label = true) (hbc : b.isContainer t.label = true) : a = b := by
  obtain ⟨p, hp, hpn, hpe⟩ := planned_source ha
  obtain ⟨q, hq, hqn, hqe⟩ := planned_source hb
  have hpx : isExtendedType p.type = true := by
    rw [hpe, isContainer_of_dos hl] at hac
    exact hac
  have hqx : isExtendedType q.type = true := by
    rw [hqe, isContainer_of_dos hl] at hbc
    exact hbc
  obtain rfl := (ebrSound hl run.ebr).eq hp hq hpx hqx
  exact eq_of_number planned_nodup ha hb (hpn.trans hqn.symm)

include hl hx in
/-- The last check against the start of the container. -/
lemma FillRun.start_check {z q : Part} (hzc : z.isContainer t.label = false) (hq : q ∈ out.parts)
    (hz : DataFinal c t z q) (hne : q.number ≠ x.number) (hle : q.start ≤ x.start) :
    q.stop ≤ x.start := by
  refine pairOk_start (run.final x hx q hq hne) hz.pos ?_ hle
  rw [hz.type, ← isContainer_of_dos hl]
  exact hzc

include hl hr hrc hr0 hx hf in
/-- A partition placed before the container ends before it. -/
lemma FillRun.before_container {z q : Part} (hz : z ∈ planned c t tr) (hz0 : z.size ≠ 0)
    (hzc : z.isContainer t.label = false) (hq : q ∈ out.parts) (hfin : DataFinal c t z q)
    (hne : q.number ≠ x.number) (hord : [z, r].Sublist (planned c t tr)) : q.stop ≤ x.start := by
  have hslot := planned_before hord hz0 hr0
  rw [slotHi_data hzc, slotLo_container hrc] at hslot
  have hxs := hf.start
  have hqs := hfin.start
  have hzpos : 0 < z.size := lt_of_le_of_ne (planned_nonneg hz) hz0.symm
  by_contra hstop
  have hlt : x.start < q.start := by
    by_contra hle
    exact hstop (run.start_check hl hx hzc hq hfin hne (not_lt.mp hle))
  -- only a partition of one sector without any gap can reach over the start of the container
  have hmargin : extendedMargin = 2 := rfl
  have hm0 : c.minStart = 0 := by unfold Part.stop at hslot; omega
  have hgap : r.start + 1 = z.start := by unfold Part.stop at hslot; omega
  obtain ⟨hchain, hhead⟩ := plan_adjacent c.minStart t.label (visited c t tr) c.minStart 0
  have hzL : z ∈ (planned c t tr).filter Part.present :=
    List.mem_filter.mpr ⟨hz, by simpa using hz0⟩
  obtain ⟨l₁, l₂, hsplit⟩ := List.append_of_mem hzL
  have hsplit' : (plan c.minStart t.label c.minStart 0 (visited c t tr)).filter Part.present =
      l₁ ++ z :: l₂ := hsplit
  rcases List.eq_nil_or_concat l₁ with rfl | ⟨l₀, y, rfl⟩
  · -- it is the first partition, and the container would start before the disk
    have h0 := hhead z (by rw [hsplit']; rfl) (.inr hm0)
    rw [slotLo_data hzc, hm0] at h0
    have hb := (pairOk_bounds (run.final x hx q hq hne) (ne_of_gt hfin.pos)).1
    have : (z.start : ℤ) = 0 := by simpa using h0
    omega
  · -- the partition before it ends behind the start of the container
    rw [hsplit', List.concat_eq_append, List.append_assoc] at hchain
    have hadj := (List.isChain_append_cons_cons.mp hchain).2.1 (.inr hm0)
    have hyL : y ∈ (planned c t tr).filter Part.present := by
      rw [hsplit]
      simp
    obtain ⟨hy, hy0⟩ := List.mem_filter.mp hyL
    have hy0 : y.size ≠ 0 := by simpa using hy0
    rw [slotLo_data hzc] at hadj
    cases hyc : y.isContainer t.label with
    | true =>
      rw [slotHi_container hyc, run.container_unique hl hy hr hyc hrc] at hadj
      omega
    | false =>
      rw [slotHi_data hyc] at hadj
      obtain ⟨w, hw, hwf⟩ := run.data_final hy hy0 hyc
      have hypos : 0 < y.size := lt_of_le_of_ne (planned_nonneg hy) hy0.symm
      have hqb := hfin.bound
      have hqpos := hfin.pos
      have huncut : w.size = y.size := hwf.uncut (by unfold Part.stop at hqb; omega)
      have hws := hwf.start
      have hwne : w.number ≠ x.number := by
        intro he
        have hyr := eq_of_number planned_nodup hy hr (hwf.number.symm.trans (he.trans hf.number))
        rw [hyr, hrc] at hyc
        cases hyc
      have hle : w.start ≤ x.start := by unfold Part.stop at hadj; omega
      have := run.start_check hl hx hyc hw hwf hwne hle
      unfold Part.stop at this hadj
      omega

end Box

/-- A record keeps the type of its partition. -/
lemma FillRun.type_eq {p q : Part} (hp : p ∈ t.parts) (hq : q ∈ out.parts)
    (hn : q.number = p.number) :
    q.type = p.type := by
  obtain ⟨m, hm, hmn, hmt⟩ : ∃ m ∈ moved c t tr, m.number = q.number ∧ m.type = q.type := by
    rw [run.parts] at hq
    unfold resizeContainer at hq
    cases hext : extName c t tr with
    | none => rw [hext] at hq; exact ⟨q, hq, rfl, rfl⟩
    | some n =>
      rw [hext] at hq
      obtain ⟨m, hm, rfl⟩ := List.mem_map.mp hq
      exact ⟨m, hm, by split <;> rfl, by split <;> rfl⟩
  rw [← hmt]
  rcases mem_moved hm hp (hmn.trans hn) with ⟨r, hr, hrn, rfl⟩ | ⟨-, rfl⟩
  · rw [clamp_type, planned_record hr hp hrn]
    rfl
  · rfl

/-- No partition that is not the container gets a negative size. -/
lemma FillRun.size_nonneg {p q : Part} (hp : p ∈ t.parts) (hc : p.isContainer t.label = false)
    (hq : q ∈ out.parts) (hn : q.number = p.number) : 0 ≤ q.size := by
  rcases run.record hq hp hn hc with ⟨r, hr, -, rfl⟩ | ⟨-, rfl⟩
  · exact clamp_size_nonneg (run.fits r hr) (planned_nonneg hr)
  · exact wantSize_nonneg hp

lemma FillRun.nodup : (out.parts.map (·.number)).Nodup := by
  rw [run.numbers]
  exact t.nodup_numbers

/-- Two partitions that are no containers are apart, by the last check. -/
lemma FillRun.apart {p q : Part} (hp : p ∈ out.parts) (hq : q ∈ out.parts)
    (hn : p.number ≠ q.number) (hpe : isExtendedType p.type = false)
    (hqe : isExtendedType q.type = false) (hp0 : p.size ≠ 0) (hq0 : q.size ≠ 0) :
    p.stop ≤ q.start ∨ q.stop ≤ p.start := by
  have hpos : ∀ r ∈ out.parts, isExtendedType r.type = false → r.size ≠ 0 → 0 < r.size := by
    intro r hr hre hr0
    obtain ⟨s, hs, hsn⟩ := run.source_of hr
    have hsc : s.isContainer t.label = false := by
      rw [run.type_eq hs hr hsn] at hre
      simp [Part.isContainer, hre]
    exact lt_of_le_of_ne (run.size_nonneg hs hsc hr hsn) hr0.symm
  exact run.final.apart hp hq hn (hpos p hp hpe hp0) (hpos q hq hqe hq0) hpe hqe

/-- A partition that is not empty after the fill was not empty before. -/
lemma FillRun.want_ne_zero {p q : Part} (hp : p ∈ t.parts) (hq : q ∈ out.parts)
    (hn : q.number = p.number) (h0 : q.size ≠ 0) : wantSize c t p ≠ 0 := by
  intro hw
  rw [run.unmoved hp hw hq hn] at h0
  exact h0 hw

end Parts

/-! ### When the result is sound -/

section Main

variable {c : Settings} {t : Table} {tr : Traversal t.numbers} {out : Filled}
  (run : FillRun c t tr out)
  (hvis : ContainerVisible t) (hlog : t.label ≠ .gpt → ∀ p ∈ t.parts, 4 < p.number →
    wantSize c t p ≠ 0)

include run hvis

/-- The container of the result, with its record in the plan. -/
lemma FillRun.container_of (hl : t.label ≠ .gpt) {x : Part} (hx : x ∈ out.parts)
    (he : isExtendedType x.type = true) (h0 : x.size ≠ 0) :
    ∃ r ∈ planned c t tr, r.isContainer t.label = true ∧ r.size ≠ 0 ∧
      ContainerFinal c t tr r x := by
  obtain ⟨y, hy, hyn⟩ := run.source_of hx
  have hye : isExtendedType y.type = true := by rw [← run.type_eq hy hx hyn]; exact he
  have hy0 := size_ne_zero_of_wantSize (run.want_ne_zero hy hx hyn h0)
  obtain ⟨r, hr, hrn, hrs, hrc, x', hx', hf⟩ := run.container_final hl hvis hy hye hy0
  obtain rfl := eq_of_number run.nodup hx' hx (hf.number.trans (hrn.trans hyn.symm))
  exact ⟨r, hr, hrc, hrs ▸ hy0, hf⟩

/-- A partition of the result that has data, with its record in the plan. -/
lemma FillRun.data_of (hl : t.label ≠ .gpt) {q : Part} (hq : q ∈ out.parts)
    (he : isExtendedType q.type = false)
    (h0 : ∀ p ∈ t.parts, q.number = p.number → wantSize c t p ≠ 0) :
    ∃ r ∈ planned c t tr, r.size ≠ 0 ∧ r.isContainer t.label = false ∧ DataFinal c t r q := by
  obtain ⟨p, hp, hn⟩ := run.source_of hq
  have hpc : p.isContainer t.label = false := by
    rw [isContainer_of_dos hl, ← run.type_eq hp hq hn]
    exact he
  obtain ⟨r, hr, -, hr0, hrc, hf⟩ := run.final_of_want hvis hp (h0 p hp hn) hpc hq hn
  exact ⟨r, hr, hr0, hrc, hf⟩

include hlog in
lemma FillRun.logical_of (hl : t.label ≠ .gpt) {q : Part} (hq : q ∈ out.parts) (hn : 4 < q.number) :
    ∃ r ∈ planned c t tr, r.size ≠ 0 ∧ r.isContainer t.label = false ∧ DataFinal c t r q := by
  refine run.data_of hvis hl hq ?_ fun p hp hpn => hlog hl p hp (hpn ▸ hn)
  obtain ⟨p, hp, hpn⟩ := run.source_of hq
  rw [run.type_eq hp hq hpn, ← Bool.not_eq_true]
  intro he
  have := ((ebrSound hl run.ebr).number p hp he).2
  omega

include hlog in
/-- The container ends inside the disk. -/
lemma FillRun.container_bound (hs : FillSafe c t tr) (hl : t.label ≠ .gpt) {r x : Part}
    (hr : r ∈ planned c t tr) (hrc : r.isContainer t.label = true) (hr0 : r.size ≠ 0)
    (hx : x ∈ out.parts) (hf : ContainerFinal c t tr r x) :
    x.stop ≤ diskEnd c t := by
  by_cases hex : ∃ p ∈ t.parts, 4 < p.number
  · obtain ⟨l, hlm, hln, hstop⟩ := run.container_stop hl hr hrc hr0 hx hf hex
    obtain ⟨_, -, -, -, hfin⟩ := run.logical_of hvis hlog hl hlm hln
    exact hstop ▸ hfin.bound
  · have hno : ∀ p ∈ t.parts, p.number ≤ 4 := fun p hp => not_lt.mp fun hn => hex ⟨p, hp, hn⟩
    have := (hs.bare hno r hr hrc hr0).1
    unfold Part.stop at this ⊢
    rw [hf.start, hf.size_eq hno]
    exact this

include hlog in
/-- A primary partition that is placed behind the container starts behind its end. -/
lemma FillRun.after_container (hs : FillSafe c t tr) (hl : t.label ≠ .gpt) {r x z q : Part}
    (hr : r ∈ planned c t tr) (hrc : r.isContainer t.label = true) (hr0 : r.size ≠ 0)
    (hx : x ∈ out.parts) (hf : ContainerFinal c t tr r x) (hz : z ∈ planned c t tr)
    (hz0 : z.size ≠ 0) (hzc : z.isContainer t.label = false) (hzn : z.number ≤ 4)
    (hfin : DataFinal c t z q) (hord : [r, z].Sublist (planned c t tr)) : x.stop ≤ q.start := by
  have hslot := planned_before hord hr0 hz0
  rw [slotHi_container hrc, slotLo_data hzc] at hslot
  have hqs := hfin.start
  by_cases hex : ∃ p ∈ t.parts, 4 < p.number
  · obtain ⟨l, hlm, hln, hstop⟩ := run.container_stop hl hr hrc hr0 hx hf hex
    obtain ⟨y, hy, hy0, hyc, hyf⟩ := run.logical_of hvis hlog hl hlm hln
    have hyn := hyf.number
    have hne : z ≠ y := by
      rintro rfl
      omega
    rcases sublist_or_sublist hz hy hne with h | h
    · have := hs.between r z y hord h hrc hr0 hz0 hzn
      omega
    · have hle := planned_before h hy0 hz0
      rw [slotHi_data hyc, slotLo_data hzc] at hle
      have h1 := hyf.start
      have h2 := hyf.le
      unfold Part.stop at hstop hle ⊢
      omega
  · have hno : ∀ p ∈ t.parts, p.number ≤ 4 := fun p hp => not_lt.mp fun hn => hex ⟨p, hp, hn⟩
    have hsize := (hs.bare hno r hr hrc hr0).2 z hord hz0
    have h1 := hf.start
    have h2 := hf.size_eq hno
    have hmargin : extendedMargin = 2 := rfl
    unfold Part.stop
    omega

include hlog in
lemma FillRun.sound (hs : FillSafe c t tr) : SoundTable c t out where
  apart p hp q hq hn hpe hqe hp0 hq0 := run.apart hp hq hn hpe hqe hp0 hq0
  bound q hq := by
    obtain ⟨p, hp, hn⟩ := run.source_of hq
    by_cases hw : wantSize c t p = 0
    · rw [run.unmoved hp hw hq hn]
      have := hs.unmoved p hp hw
      unfold Part.stop
      rw [wantPart_start, wantPart_size]
      omega
    · cases hpc : p.isContainer t.label with
      | false =>
        obtain ⟨_, -, -, -, -, hfin⟩ := run.final_of_want hvis hp hw hpc hq hn
        exact hfin.bound
      | true =>
        have hl : t.label ≠ .gpt := by
          simp only [Part.isContainer, Bool.and_eq_true, bne_iff_ne] at hpc
          exact hpc.1
        have hpe : isExtendedType p.type = true := by rw [← isContainer_of_dos hl]; exact hpc
        obtain ⟨r, hr, hrn, hrs, hrc, x, hx, hf⟩ :=
          run.container_final hl hvis hp hpe (size_ne_zero_of_wantSize hw)
        obtain rfl := eq_of_number run.nodup hx hq (hf.number.trans (hrn.trans hn.symm))
        exact run.container_bound hvis hlog hs hl hr hrc (hrs ▸ size_ne_zero_of_wantSize hw) hx hf
  logical hl q hq hn := by
    obtain ⟨p, hp, hpn⟩ := run.source_of hq
    obtain ⟨y, hy, hye, hin⟩ := (ebrSound hl run.ebr).inside p hp (hpn ▸ hn)
    have hy0 : y.size ≠ 0 := by
      obtain ⟨h1, h2, h3⟩ := hin
      unfold Part.stop at h3
      omega
    obtain ⟨r, hr, -, hrs, hrc, x, hx, hf⟩ := run.container_final hl hvis hy hye hy0
    obtain ⟨h1, -, h3⟩ := run.inside hl hr hrc (hrs ▸ hy0) hx hf hq hn
    refine ⟨x, hx, ?_, h1, h3⟩
    rw [hf.type, ← isContainer_of_dos hl]
    exact hrc
  primary hl x hx he q hq hn hne hq0 hx0 := by
    obtain ⟨r, hr, hrc, hr0, hf⟩ := run.container_of hvis hl hx he hx0
    have hqe : isExtendedType q.type = false := by
      rw [← Bool.not_eq_true]
      intro hqe
      obtain ⟨p, hp, hpn⟩ := run.source_of hq
      obtain ⟨y, hy, hyn⟩ := run.source_of hx
      rw [run.type_eq hp hq hpn] at hqe
      rw [run.type_eq hy hx hyn] at he
      rw [(ebrSound hl run.ebr).eq hp hy hqe he] at hpn
      exact hne (hpn.trans hyn.symm)
    obtain ⟨z, hz, hz0, hzc, hfin⟩ :=
      run.data_of hvis hl hq hqe fun p hp hpn => run.want_ne_zero hp hq hpn hq0
    have hzr : z ≠ r := by
      rintro rfl
      rw [hrc] at hzc
      cases hzc
    rcases sublist_or_sublist hz hr hzr with hord | hord
    · exact .inl (run.before_container hl hr hrc hr0 hx hf hz hz0 hzc hq hfin hne hord)
    · exact .inr
        (run.after_container hvis hlog hs hl hr hrc hr0 hx hf hz hz0 hzc
          (hfin.number ▸ hn) hfin hord)

end Main

end Pxeos.Sfdisk
