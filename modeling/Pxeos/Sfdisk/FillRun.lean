import Pxeos.Sfdisk.Plan

/-!
# A fill that succeeds

`FillRun` is what a successful `fill_disk` has computed, with the sizes and the starts of the plan;
the record of a partition after the fill is read off from it.
-/

namespace Pxeos.Sfdisk

open Pxeos.Lib

section Defs

variable (c : Settings) (t : Table) (tr : Traversal t.numbers)

/-- `PROCINFO["sorted_in"]` is set after the second loop. -/
def sortsIn : Bool :=
  t.parts.any fun p => !p.isContainer t.label && !(isFixed c t p && decide (0 < p.size))

/-- The wanted records in the order of the placement loop. -/
def visited : List Part :=
  visit (placeOrder tr (sortsIn c t) (orderedStarts tr t.parts)) (wanted c t)

/-- The wanted records that the placement loop visits, at the starts it gives them. -/
def planned : List Part := plan c.minStart t.label c.minStart 0 (visited c t tr)

/-- The table after the placement loop. -/
def moved : List Part :=
  overwrite ((planned c t tr).map (clamp c.sectorSize t.label (diskEnd c t))) (wanted c t)

/-- `ext_name` after the placement loop. -/
def extName : Option ℕ := lastContainer t.label none (visited c t tr)

lemma sortedIn_sizes : sortedIn t (sizes c t tr).fixedList = sortsIn c t := by
  obtain ⟨-, -, h⟩ := sizes_eq c t tr
  unfold sortedIn sortsIn
  rw [Bool.eq_iff_iff, List.any_eq_true, List.any_eq_true]
  refine exists_congr fun p => and_congr_right fun hp => ?_
  have := h p hp
  cases hf : isFixed c t p <;> simp_all

end Defs

/-- **A successful run.** -/
structure FillRun (c : Settings) (t : Table) (tr : Traversal t.numbers) (out : Filled) : Prop where
  ebr : validateMbrEbrLayout tr t.label t.parts = true
  source : Consistent c.diskSize t.parts
  scales : Scales c t
  fits : ∀ q ∈ planned c t tr, fits c.sectorSize t.label (diskEnd c t) q = true
  parts : out.parts = resizeContainer tr (sortsIn c t) (extName c t tr) (moved c t tr)
  final : Consistent c.diskSize out.parts

section Numbers

lemma resizeContainer_numbers {ns : List ℕ} (tr : Traversal ns) (sorted : Bool) (o : Option ℕ)
    (ps : List Part) :
    (resizeContainer tr sorted o ps).map (·.number) = ps.map (·.number) := by
  unfold resizeContainer
  cases o with
  | none => rfl
  | some n =>
    rw [List.map_map]
    refine List.map_congr_left fun p _ => ?_
    simp only [Function.comp]
    split <;> rfl

lemma overwrite_numbers (qs ps : List Part) :
    (overwrite qs ps).map (·.number) = ps.map (·.number) := by
  unfold overwrite
  rw [List.map_map]
  refine List.map_congr_left fun p _ => ?_
  simp only [Function.comp]
  cases h : qs.find? fun q => q.number == p.number with
  | none => rfl
  | some q => simpa using List.find?_some h

end Numbers

theorem fillDisk_ok {c : Settings} {t : Table} {tr : Traversal t.numbers} {out : Filled}
    (h : fillDisk c t tr = .ok out) : FillRun c t tr out := by
  simp only [fillDisk, bind_eq_ok, errorIf_eq_ok, pure_eq_ok, Bool.not_eq_false'] at h
  obtain ⟨-, hebr, -, hsrc, scaled, hscaled, ⟨cursor, placed⟩, hplaced, -, hfinal, rfl⟩ := h
  obtain ⟨rfl, hscales⟩ := mapM_scalePart (fun _ hp => hp) hscaled
  rw [sortedIn_sizes] at hplaced hfinal ⊢
  obtain ⟨s', hext, heq⟩ :=
    placeParts_eq c t.label (diskEnd c t) (visited c t tr) (initialCursor c) (.inr le_rfl)
  have hplaced : placeParts c t.label (diskEnd c t) (initialCursor c) (visited c t tr) =
      .ok (cursor, placed) := hplaced
  rw [heq] at hplaced
  split at hplaced
  next hfits =>
    obtain ⟨rfl, rfl⟩ := Prod.mk.inj (Except.ok.inj hplaced)
    rw [hext] at hfinal ⊢
    have hnum : (resizeContainer tr (sortsIn c t) (extName c t tr) (moved c t tr)).map (·.number) =
        t.numbers := by
      rw [resizeContainer_numbers]
      exact (overwrite_numbers _ _).trans (wanted_numbers c t)
    exact
      { ebr := hebr
        source := (checkAllPartitions_iff t.nodup_numbers tr false _ _ _ rfl).mp hsrc
        scales := hscales
        fits := List.all_eq_true.mp hfits
        parts := rfl
        final := (checkAllPartitions_iff t.nodup_numbers tr _ _ _ _ hnum).mp hfinal }
  next => cases hplaced

/-! ### The record of a partition -/

section Records

variable {c : Settings} {t : Table} {tr : Traversal t.numbers}

/-- The record of a partition in the plan. -/
lemma planned_record {r p : Part} (hr : r ∈ planned c t tr) (hp : p ∈ t.parts)
    (hn : r.number = p.number) :
    r = { wantPart c t p with start := r.start } := by
  obtain ⟨w, hw, he⟩ := mem_plan hr
  obtain ⟨hw, -⟩ := (mem_visit (wanted_nodup c t)).mp hw
  obtain ⟨p', hp', rfl⟩ := List.mem_map.mp hw
  have hn' : p'.number = p.number := by rw [← hn, he]; rfl
  obtain rfl := eq_of_number t.nodup_numbers hp' hp hn'
  exact he

/-- Every record of the plan is that of a partition. -/
lemma planned_source {r : Part} (hr : r ∈ planned c t tr) :
    ∃ p ∈ t.parts, r.number = p.number ∧ r = { wantPart c t p with start := r.start } := by
  obtain ⟨w, hw, he⟩ := mem_plan hr
  obtain ⟨hw, -⟩ := (mem_visit (wanted_nodup c t)).mp hw
  obtain ⟨p, hp, rfl⟩ := List.mem_map.mp hw
  exact ⟨p, hp, by rw [he]; rfl, he⟩

lemma lastWins_sublist (ps : List Part) : (lastWins ps).Sublist ps := by
  induction ps with
  | nil => exact .slnil
  | cons p ps ih =>
    unfold lastWins
    split
    · exact ih.cons p
    · exact ih.cons_cons p

lemma placeOrder_nodup : (placeOrder tr (sortsIn c t) (orderedStarts tr t.parts)).Nodup := by
  unfold placeOrder
  split
  · unfold orderedStarts
    refine ((List.perm_insertionSort _ _).map _).nodup_iff.mpr ?_
    refine ((lastWins_sublist _).map _).nodup ?_
    exact ((walk_parts_perm t tr false .starts).map _).nodup_iff.mpr t.nodup_numbers
  · exact ((tr .place).2.nodup_iff.mpr t.nodup_numbers).filter _

lemma planned_nodup : ((planned c t tr).map (·.number)).Nodup := by
  unfold planned
  rw [plan_numbers]
  exact (visit_numbers_sublist _ _).nodup placeOrder_nodup

/-- The container of the placement loop is a container. -/
lemma lastContainer_some {label : Label} {n : ℕ} : ∀ {ps : List Part} {o : Option ℕ},
    lastContainer label o ps = some n → o = some n ∨ ∃ p ∈ ps, p.number = n ∧ p.size ≠ 0 ∧
      p.isContainer label = true
  | [], o, h => .inl h
  | p :: ps, o, h => by
    unfold lastContainer at h
    rcases lastContainer_some h with h | ⟨q, hq, h⟩
    · split at h
      next hp => exact .inr ⟨p, List.mem_cons_self, Option.some.inj h, hp⟩
      next => exact .inl h
    · exact .inr ⟨q, List.mem_cons_of_mem _ hq, h⟩

/-- The record a partition has after the placement loop. -/
lemma mem_moved {q : Part} (hq : q ∈ moved c t tr) {p : Part} (hp : p ∈ t.parts)
    (hn : q.number = p.number) :
    (∃ r ∈ planned c t tr, r.number = p.number ∧ q = clamp c.sectorSize t.label (diskEnd c t) r) ∨
      (∀ r ∈ planned c t tr, r.number ≠ p.number) ∧ q = wantPart c t p := by
  unfold moved overwrite at hq
  obtain ⟨w, hw, rfl⟩ := List.mem_map.mp hq
  obtain ⟨p', hp', rfl⟩ := List.mem_map.mp hw
  cases hf : ((planned c t tr).map (clamp c.sectorSize t.label (diskEnd c t))).find?
      fun q => q.number == (wantPart c t p').number with
  | none =>
    rw [hf] at hn
    obtain rfl := eq_of_number t.nodup_numbers hp' hp hn
    refine .inr ⟨fun r hr he => ?_, rfl⟩
    have := List.find?_eq_none.mp hf _ (List.mem_map_of_mem hr)
    rw [clamp_number, he] at this
    exact this (beq_self_eq_true _)
  | some q =>
    rw [hf] at hn
    obtain ⟨r, hr, rfl⟩ := List.mem_map.mp (List.mem_of_find?_eq_some hf)
    refine .inl ⟨r, hr, ?_, rfl⟩
    rwa [Option.getD_some, clamp_number] at hn

/-- The container loop changes only the container. -/
lemma FillRun.mem_moved_of_ne {out : Filled} (run : FillRun c t tr out) {q : Part}
    (hq : q ∈ out.parts) (hn : extName c t tr ≠ some q.number) : q ∈ moved c t tr := by
  rw [run.parts] at hq
  unfold resizeContainer at hq
  cases hext : extName c t tr with
  | none => rwa [hext] at hq
  | some n =>
    rw [hext] at hq hn
    obtain ⟨x, hx, rfl⟩ := List.mem_map.mp hq
    by_cases he : x.number = n
    · rw [if_pos he] at hn
      exact absurd (congrArg some he.symm) hn
    · rwa [if_neg he]

/-- `ext_name` is the number of a container that is not empty. -/
lemma extName_some {n : ℕ} (h : extName c t tr = some n) :
    ∃ x ∈ t.parts, x.number = n ∧ wantSize c t x ≠ 0 ∧ x.isContainer t.label = true := by
  obtain h | ⟨w, hw, hwn, hw0, hwc⟩ := lastContainer_some h
  · cases h
  obtain ⟨hw, -⟩ := (mem_visit (wanted_nodup c t)).mp hw
  obtain ⟨x, hx, rfl⟩ := List.mem_map.mp hw
  exact ⟨x, hx, hwn, hw0, hwc⟩

lemma extName_ne {p : Part} (hp : p ∈ t.parts)
    (h : p.isContainer t.label = false ∨ wantSize c t p = 0) :
    extName c t tr ≠ some p.number := by
  intro hext
  obtain ⟨x, hx, hn, h0, hc⟩ := extName_some hext
  obtain rfl := eq_of_number t.nodup_numbers hx hp hn
  rcases h with h | h
  · rw [h] at hc
    cases hc
  · exact h0 h

/-- **The record of a partition that is no container**: planned and cut, or, when the placement loop
does not meet it, as the scaling loop leaves it. -/
theorem FillRun.record {out : Filled} (run : FillRun c t tr out) {q : Part} (hq : q ∈ out.parts)
    {p : Part} (hp : p ∈ t.parts) (hn : q.number = p.number) (hc : p.isContainer t.label = false) :
    (∃ r ∈ planned c t tr, r.number = p.number ∧ q = clamp c.sectorSize t.label (diskEnd c t) r) ∨
      (∀ r ∈ planned c t tr, r.number ≠ p.number) ∧ q = wantPart c t p :=
  mem_moved (run.mem_moved_of_ne hq (hn ▸ extName_ne hp (.inl hc))) hp hn

lemma FillRun.numbers {out : Filled} (run : FillRun c t tr out) :
    out.parts.map (·.number) = t.numbers := by
  rw [run.parts, resizeContainer_numbers]
  exact (overwrite_numbers _ _).trans (wanted_numbers c t)

/-- Every partition has its record. -/
lemma FillRun.exists_record {out : Filled} (run : FillRun c t tr out) {p : Part}
    (hp : p ∈ t.parts) :
    ∃ q ∈ out.parts, q.number = p.number := by
  have hmem : p.number ∈ out.parts.map (·.number) := by
    rw [run.numbers]
    exact List.mem_map_of_mem hp
  obtain ⟨q, hq, he⟩ := List.mem_map.mp hmem
  exact ⟨q, hq, he⟩

end Records

end Pxeos.Sfdisk
