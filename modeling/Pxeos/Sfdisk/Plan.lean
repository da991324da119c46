import Pxeos.Sfdisk.FillDisk
import Pxeos.Lib.Packing

/-!
# The plan of a fill

What `fill_disk` wants before it meets the end of the disk.  The sizes are a function of the table
and the settings (`wantPart`), whatever the order of the loops, and the starts are a function of the
sizes and the order of the visits (`plan`): the cursor moves by the wanted size of a partition, also
where the partition is cut.  Only the cut (`clamp`) depends on the end of the disk.
-/

namespace Pxeos.Sfdisk

open Pxeos.Lib

/-! ### Sizes -/

/-- A partition keeps its size: it is listed, or it is empty or swap. -/
def isFixed (c : Settings) (t : Table) (p : Part) : Bool :=
  decide (p.number ∈ c.fixedList) || (!p.isContainer t.label && autoFixed p)

/-- What a partition adds to `original_fixed`. -/
def fixedCost (c : Settings) (t : Table) (p : Part) : ℤ :=
  if p.isContainer t.label then c.minStart
  else (if p.isLogical t.label then c.minStart else 0) + if isFixed c t p then p.size else 0

/-- What a partition adds to `original_variable`. -/
def variableCost (c : Settings) (t : Table) (p : Part) : ℤ :=
  if p.isContainer t.label || isFixed c t p then 0 else p.size

/-- `original_fixed`. -/
def originalFixed (c : Settings) (t : Table) : ℤ :=
  (initialSizes c t).originalFixed + (t.parts.map (fixedCost c t)).sum

/-- `original_variable`. -/
def originalVariable (c : Settings) (t : Table) : ℤ := (t.parts.map (variableCost c t)).sum

/-- One iteration of the first loop, with the list as the settings give it. -/
lemma sizesStep_eq {c : Settings} {t : Table} {s : Sizes} {p : Part}
    (h : p.number ∈ s.fixedList ↔ p.number ∈ c.fixedList) :
    (sizesStep c.minStart t.label s p).originalFixed = s.originalFixed + fixedCost c t p ∧
      (sizesStep c.minStart t.label s p).originalVariable = s.originalVariable +
        variableCost c t p ∧
      ∀ n, n ∈ (sizesStep c.minStart t.label s p).fixedList ↔
        n ∈ s.fixedList ∨ (n = p.number ∧ isFixed c t p = true) := by
  unfold sizesStep fixedCost variableCost isFixed
  by_cases hc : p.isContainer t.label = true
  · simp only [hc, if_true, Bool.true_or, Bool.not_true, Bool.false_and, Bool.or_false,
      decide_eq_true_eq, add_zero,
      true_and]
    intro n
    constructor
    · exact .inl
    · rintro (hn | ⟨rfl, hn⟩)
      · exact hn
      · exact h.mpr hn
  · by_cases hl : p.number ∈ c.fixedList
    · have hs := h.mpr hl
      by_cases hlog : p.isLogical t.label = true
      · simp [hc, hl, hs, hlog]
        omega
      · simp [hc, hl, hs, hlog]
    · have hs : p.number ∉ s.fixedList := fun hn => hl (h.mp hn)
      by_cases ha : autoFixed p = true <;> by_cases hlog : p.isLogical t.label = true
      · simp [hc, hl, hs, ha, hlog]
        omega
      all_goals simp [hc, hl, hs, ha, hlog]

/-- The first loop, in any order of visits. -/
lemma sizes_foldl (c : Settings) (t : Table) : ∀ (ps : List Part) (s : Sizes),
    (ps.map (·.number)).Nodup →
    (∀ p ∈ ps, p.number ∈ s.fixedList ↔ p.number ∈ c.fixedList) →
    (ps.foldl (sizesStep c.minStart t.label) s).originalFixed = s.originalFixed +
      (ps.map (fixedCost c t)).sum ∧
      (ps.foldl (sizesStep c.minStart t.label) s).originalVariable =
        s.originalVariable + (ps.map (variableCost c t)).sum ∧
      ∀ n, n ∈ (ps.foldl (sizesStep c.minStart t.label) s).fixedList ↔
        n ∈ s.fixedList ∨ ∃ p ∈ ps, n = p.number ∧ isFixed c t p = true
  | [], s, _, _ => by simp
  | p :: ps, s, hn, hs => by
    rw [List.map_cons, List.nodup_cons] at hn
    obtain ⟨h1, h2, h3⟩ := sizesStep_eq (t := t) (hs p List.mem_cons_self)
    have hstep : ∀ q ∈ ps, q.number ∈ (sizesStep c.minStart t.label s p).fixedList ↔
        q.number ∈ c.fixedList := by
      intro q hq
      have hne : q.number ≠ p.number := fun he => hn.1 (he ▸ List.mem_map_of_mem hq)
      rw [h3, hs q (List.mem_cons_of_mem _ hq)]
      simp [hne]
    obtain ⟨i1, i2, i3⟩ := sizes_foldl c t ps _ hn.2 hstep
    rw [List.foldl_cons, i1, i2, h1, h2, List.map_cons, List.sum_cons, List.map_cons, List.sum_cons]
    refine ⟨by ring, by ring, fun n => ?_⟩
    rw [i3, h3, or_assoc]
    simp only [List.exists_mem_cons_iff]

section Sizes

variable (c : Settings) (t : Table) (tr : Traversal t.numbers)

lemma walk_parts_perm (sorted : Bool) (l : Loop) : (walk tr sorted l t.parts).Perm t.parts :=
  walk_perm t.nodup_numbers tr sorted l rfl

/-- **The sizes do not depend on the order of the visits.** -/
theorem sizes_eq :
    (sizes c t tr).originalFixed = originalFixed c t ∧
    (sizes c t tr).originalVariable = originalVariable c t ∧
      ∀ p ∈ t.parts, p.number ∈ (sizes c t tr).fixedList ↔ isFixed c t p = true := by
  have hperm := walk_parts_perm t tr false .fixed
  obtain ⟨h1, h2, h3⟩ := sizes_foldl c t (walk tr false .fixed t.parts) (initialSizes c t)
    ((hperm.map _).nodup_iff.mpr t.nodup_numbers) fun p _ => Iff.rfl
  refine ⟨?_, ?_, fun p hp => ?_⟩
  · exact h1.trans (congrArg _ (hperm.map _).sum_eq)
  · refine h2.trans ?_
    rw [(hperm.map _).sum_eq]
    exact zero_add _
  · refine (h3 p.number).trans ⟨?_, fun hf => .inr ⟨p, hperm.mem_iff.mpr hp, rfl, hf⟩⟩
    rintro (hl | ⟨q, hq, hn, hf⟩)
    · have hl : p.number ∈ c.fixedList := hl
      simp [isFixed, hl]
    · rw [eq_of_number t.nodup_numbers hp (hperm.mem_iff.mp hq) hn]
      exact hf

end Sizes

/-! ### Wanted records -/

/-- The share of a partition in the new disk, as `awk` computes it. -/
def share (c : Settings) (t : Table) (p : Part) : ℚ :=
  asDouble (asDouble ((c.diskSize - originalFixed c t : ℤ) * (p.size - p.size % c.sectorSize : ℤ))
    / originalVariable c t)

/-- The size the scaling loop leaves. -/
def wantSize (c : Settings) (t : Table) (p : Part) : ℤ :=
  if isFixed c t p || p.isContainer t.label then p.size
  else scaledSize c.sectorSize (c.diskSize - originalFixed c t) (originalVariable c t) p

/-- A record with the size the scaling loop leaves. -/
def wantPart (c : Settings) (t : Table) (p : Part) : Part := { p with size := wantSize c t p }

@[simp] lemma wantPart_number (c : Settings) (t : Table) (p : Part) :
    (wantPart c t p).number = p.number := rfl
@[simp] lemma wantPart_start (c : Settings) (t : Table) (p : Part) :
    (wantPart c t p).start = p.start := rfl
@[simp] lemma wantPart_size (c : Settings) (t : Table) (p : Part) :
    (wantPart c t p).size = wantSize c t p := rfl
@[simp] lemma wantPart_type (c : Settings) (t : Table) (p : Part) :
    (wantPart c t p).type = p.type := rfl

/-- The table after the scaling loop. -/
def wanted (c : Settings) (t : Table) : List Part := t.parts.map (wantPart c t)

lemma wanted_numbers (c : Settings) (t : Table) : (wanted c t).map (·.number) = t.numbers := by
  unfold wanted Table.numbers
  rw [List.map_map]
  rfl

lemma wanted_nodup (c : Settings) (t : Table) : ((wanted c t).map (·.number)).Nodup := by
  rw [wanted_numbers]
  exact t.nodup_numbers

/-- The scaling loop succeeds when it divides by no zero. -/
def Scales (c : Settings) (t : Table) : Prop :=
  ∀ p ∈ t.parts, c.sectorSize ≠ 0 ∧ (isFixed c t p = false → originalVariable c t ≠ 0)

section Scale

variable {c : Settings} {t : Table} {tr : Traversal t.numbers}

/-- One iteration of the scaling loop. -/
lemma scalePart_eq {p : Part} (hp : p ∈ t.parts) :
    scalePart c t.label (sizes c t tr) p =
      if c.sectorSize = 0 ∨ (isFixed c t p = false ∧ originalVariable c t = 0) then .error .fatal
      else .ok (wantPart c t p) := by
  obtain ⟨h1, h2, h3⟩ := sizes_eq c t tr
  unfold scalePart wantPart wantSize
  rw [h1, h2]
  simp only [h3 p hp]
  by_cases hS : c.sectorSize = 0
  · simp [hS]
  by_cases hf : isFixed c t p = true
  · simp [hS, hf]
  by_cases hv : originalVariable c t = 0
  · simp [hS, hf, hv]
  by_cases hc : p.isContainer t.label = true <;> simp [hS, hf, hv, hc]

/-- The scaling loop leaves the wanted records. -/
lemma mapM_scalePart {ps : List Part} : ∀ {out : List Part}, (∀ p ∈ ps, p ∈ t.parts) →
    ps.mapM (scalePart c t.label (sizes c t tr)) = .ok out →
    out = ps.map (wantPart c t) ∧ ∀ p ∈ ps, c.sectorSize ≠ 0 ∧
      (isFixed c t p = false → originalVariable c t ≠ 0) := by
  intro out hsub h
  have h2 := mapM_ok h
  clear h
  induction h2 with
  | nil => simp
  | @cons p q ps qs hx _ ih =>
    obtain ⟨i1, i2⟩ := ih fun r hr => hsub r (List.mem_cons_of_mem _ hr)
    rw [scalePart_eq (hsub p List.mem_cons_self)] at hx
    split at hx
    · cases hx
    next hno =>
      rw [not_or, not_and] at hno
      refine ⟨?_, ?_⟩
      · rw [List.map_cons, ← i1, Except.ok.inj hx]
      · intro r hr
        rcases List.mem_cons.mp hr with rfl | hr
        · exact hno
        · exact i2 r hr

/-- Only the order of the scaling errors could depend on the order of the visits, and there is one
kind. -/
lemma mapM_scalePart_congr (tr' : Traversal t.numbers) :
    t.parts.mapM (scalePart c t.label (sizes c t tr)) =
      t.parts.mapM (scalePart c t.label (sizes c t tr')) := by
  have h : ∀ ps : List Part, (∀ p ∈ ps, p ∈ t.parts) →
      ps.mapM (scalePart c t.label (sizes c t tr)) =
        ps.mapM (scalePart c t.label (sizes c t tr')) := by
    intro ps
    induction ps with
    | nil => simp
    | cons p ps ih =>
      intro hsub
      have hp := hsub p List.mem_cons_self
      rw [List.mapM_cons, List.mapM_cons, scalePart_eq hp, scalePart_eq hp,
        ih fun r hr => hsub r (List.mem_cons_of_mem _ hr)]
  exact h t.parts fun _ hp => hp

end Scale

/-- A wanted size is not negative. -/
lemma wantSize_nonneg {c : Settings} {t : Table} {p : Part} (hp : p ∈ t.parts) :
    0 ≤ wantSize c t p := by
  obtain ⟨-, hsize, hmin⟩ := t.nonneg p hp
  unfold wantSize
  split
  · exact hsize
  · unfold scaledSize
    refine mul_nonneg (Int.floor_nonneg.mpr (div_nonneg ?_ (Nat.cast_nonneg _)))
      (Int.natCast_nonneg _)
    have hmin' : (0 : ℚ) ≤ p.minsize := by exact_mod_cast hmin
    split
    · exact hmin'
    next h => exact hmin'.trans (not_lt.mp h)

/-! ### Starts -/

/-- The start of a partition with data. -/
def dataStart (minStart : ℕ) (label : Label) (curr : ℤ) (k : ℕ) (p : Part) : ℤ :=
  if p.isLogical label ∧ 0 < k then curr + minStart else curr

/-- The starts the placement loop gives, without the end of the disk: from the cursor `curr`, with
`k` logical partitions already in the container. -/
def plan (minStart : ℕ) (label : Label) : ℤ → ℕ → List Part → List Part
  | _, _, [] => []
  | curr, k, p :: ps =>
    if p.size = 0 then p :: plan minStart label curr k ps
    else if p.isContainer label then
      { p with start := curr + minStart - extendedMargin } :: plan minStart label
        (curr + minStart) 0 ps
    else
      let start := dataStart minStart label curr k p
      { p with start := start } ::
        plan minStart label (start + p.size) (if p.isLogical label then k + 1 else k) ps

/-- A partition that is not empty. -/
def Part.present (p : Part) : Bool := !decide (p.size = 0)

@[simp] lemma Part.present_iff (p : Part) : p.present = true ↔ p.size ≠ 0 := by simp [Part.present]

/-- A partition that is placed with data: not empty and not the container. -/
def Part.isData (label : Label) (p : Part) : Bool := p.present && !p.isContainer label

/-- A placed partition, cut at the end of the disk. -/
def clampSize (sectorSize : ℕ) (diskEnd : ℤ) (q : Part) : ℤ :=
  if diskEnd < q.stop then (diskEnd - q.start) - (diskEnd - q.start).tmod sectorSize else q.size

/-- The cut leaves something of the partition. -/
def fits (sectorSize : ℕ) (label : Label) (diskEnd : ℤ) (q : Part) : Bool :=
  !q.isData label || !decide (diskEnd < q.stop) || decide (0 < clampSize sectorSize diskEnd q)

/-- The record the placement loop leaves. -/
def clamp (sectorSize : ℕ) (label : Label) (diskEnd : ℤ) (q : Part) : Part :=
  if q.isData label then { q with size := clampSize sectorSize diskEnd q } else q

@[simp] lemma clamp_number (sectorSize : ℕ) (label : Label) (diskEnd : ℤ) (q : Part) :
    (clamp sectorSize label diskEnd q).number = q.number := by
  unfold clamp; split <;> rfl

@[simp] lemma clamp_start (sectorSize : ℕ) (label : Label) (diskEnd : ℤ) (q : Part) :
    (clamp sectorSize label diskEnd q).start = q.start := by
  unfold clamp; split <;> rfl

@[simp] lemma clamp_type (sectorSize : ℕ) (label : Label) (diskEnd : ℤ) (q : Part) :
    (clamp sectorSize label diskEnd q).type = q.type := by
  unfold clamp; split <;> rfl

/-- `ext_name` after the placement loop. -/
def lastContainer (label : Label) : Option ℕ → List Part → Option ℕ
  | o, [] => o
  | o, p :: ps =>
    lastContainer label (if p.size ≠ 0 ∧ p.isContainer label then some p.number else o) ps

/-- The cursor after a partition with data. -/
def afterData (c : Settings) (label : Label) (s : Cursor) (p : Part) (size : ℤ) : Cursor :=
  ⟨dataStart c.minStart label s.currStart s.logicalCount p + p.size, size,
    dataStart c.minStart label s.currStart s.logicalCount p, s.extName,
    if p.isLogical label then s.logicalCount + 1 else s.logicalCount⟩

/-- The last partition ends at or before the cursor. -/
def Cursor.Behind (s : Cursor) : Prop := s.priorSize + s.priorStart ≤ s.currStart ∨ s.priorSize ≤ 0

/-- A partition with data starts at the cursor, since the one before it ends there or earlier. -/
lemma placeData_eq {c : Settings} {label : Label} {diskEnd : ℤ} {s : Cursor} {p : Part}
    (hs : s.Behind) (hp : p.isData label = true) :
    placeData c label diskEnd s p =
      if fits c.sectorSize label diskEnd
        { p with start := dataStart c.minStart label s.currStart s.logicalCount p } then
        .ok (afterData c label s p (clampSize c.sectorSize diskEnd
            { p with start := dataStart c.minStart label s.currStart s.logicalCount p }),
          clamp c.sectorSize label diskEnd
            { p with start := dataStart c.minStart label s.currStart s.logicalCount p })
      else .error .rejected := by
  have hdata : ∀ a, ({ p with start := a } : Part).isData label = true := fun _ => hp
  set a := dataStart c.minStart label s.currStart s.logicalCount p with ha
  have hcurr : s.currStart ≤ a := by
    rw [ha]; unfold dataStart; split <;> omega
  have hstart : (if 0 < s.priorSize ∧ a < s.priorSize + s.priorStart then s.priorSize + s.priorStart
    else a) = a := by
    rw [if_neg]
    rcases hs with h | h <;> omega
  have hcut : p.size - (a + p.size - diskEnd) = diskEnd - a := by ring
  unfold placeData
  simp only [show (if p.isLogical label ∧ 0 < s.logicalCount then s.currStart + c.minStart
    else s.currStart) = a from rfl,
    hstart, hcut]
  by_cases hlt : diskEnd < a + p.size
  · by_cases hle : diskEnd - a - (diskEnd - a).tmod c.sectorSize ≤ 0
    · simp [fits, hdata, clampSize, Part.stop, hlt, hle]
      omega
    · simp [fits, hdata, clampSize, clamp, afterData, Part.stop, hlt, hle, ← ha]
      omega
  · simp [fits, hdata, clampSize, clamp, afterData, Part.stop, hlt, ← ha]

/-- What is left of a positive difference after the cut. -/
lemma sub_tmod_of_nonneg {x : ℤ} {a : ℕ} (hx : 0 ≤ x) : x - x.tmod a = a * (x / a) := by
  rw [Int.tmod_eq_emod_of_nonneg hx]
  have := Int.emod_add_mul_ediv x a
  omega

lemma sub_tmod_nonpos {x : ℤ} {a : ℕ} (hx : x ≤ 0) : x - x.tmod a ≤ 0 := by
  have h := sub_tmod_of_nonneg (x := -x) (a := a) (by omega)
  have hpos : 0 ≤ (a : ℤ) * (-x / a) :=
    mul_nonneg (Int.natCast_nonneg a) (Int.ediv_nonneg (by omega) (by omega))
  rw [Int.neg_tmod] at h
  omega

/-- A cut makes a partition smaller. -/
lemma clampSize_le (sectorSize : ℕ) (diskEnd : ℤ) (q : Part) :
    clampSize sectorSize diskEnd q ≤ q.size ∨ clampSize sectorSize diskEnd q ≤ 0 := by
  unfold clampSize
  split
  next h =>
    unfold Part.stop at h
    rcases le_total 0 (diskEnd - q.start) with hx | hx
    · left
      have := Int.tmod_nonneg (sectorSize : ℤ) hx
      omega
    · exact .inr (sub_tmod_nonpos hx)
  next => exact .inl le_rfl

/-- **The placement loop** places the partitions as planned and cuts them, and fails when a cut
leaves nothing. -/
theorem placeParts_eq (c : Settings) (label : Label) (diskEnd : ℤ) :
    ∀ (ps : List Part) (s : Cursor), s.Behind →
    ∃ s' : Cursor, s'.extName = lastContainer label s.extName ps ∧
      placeParts c label diskEnd s ps =
        if (plan c.minStart label s.currStart s.logicalCount ps).all
          (fits c.sectorSize label diskEnd) then
          .ok (s',
            (plan c.minStart label s.currStart s.logicalCount ps).map
              (clamp c.sectorSize label diskEnd))
        else .error .rejected
  | [], s, _ => ⟨s, rfl, rfl⟩
  | p :: ps, s, hs => by
    unfold placeParts placePart plan lastContainer
    by_cases h0 : p.size = 0
    · -- an empty partition is left where it is
      obtain ⟨s', hext, heq⟩ := placeParts_eq c label diskEnd ps s hs
      have hdata : p.isData label = false := by simp [Part.isData, Part.present, h0]
      refine ⟨s', by simpa [h0] using hext, ?_⟩
      simp only [h0, if_true, ok_bind, heq, List.all_cons, fits, hdata, Bool.not_false,
        Bool.true_or, Bool.true_and,
        List.map_cons, clamp]
      split <;> rfl
    by_cases hc : p.isContainer label = true
    · -- the cursor of the container is at or behind that of the partition before it
      have hs' : (placeContainer c s p).1.Behind := by
        unfold Cursor.Behind placeContainer at *
        dsimp only
        omega
      obtain ⟨s', hext, heq⟩ := placeParts_eq c label diskEnd ps (placeContainer c s p).1 hs'
      have hcurr : (placeContainer c s p).1.currStart = s.currStart + c.minStart := by
        unfold placeContainer
        dsimp only
        omega
      have hstart : (placeContainer c s p).2 =
          { p with start := s.currStart + c.minStart - extendedMargin } := by
        unfold placeContainer
        rw [add_sub_assoc]
      have hdata : ∀ a, ({ p with start := a } : Part).isData label = false := fun a => by
        have : ({ p with start := a } : Part).isContainer label = true := hc
        simp [Part.isData, this]
      refine ⟨s', by simpa [h0, hc, placeContainer] using hext, ?_⟩
      have hcount : (placeContainer c s p).1.logicalCount = 0 := rfl
      rw [hcurr, hcount] at heq
      simp only [h0, hc, if_true, if_false, ok_bind, heq, hstart, List.all_cons,
        List.map_cons, clamp, hdata,
        Bool.false_eq_true, show ∀ a, fits c.sectorSize label diskEnd { p with start := a } =
          true from fun a => by
          simp [fits, hdata], Bool.true_and]
      cases (plan c.minStart label (s.currStart + c.minStart) 0 ps).all
        (fits c.sectorSize label diskEnd) <;> rfl
    · rw [Bool.not_eq_true] at hc
      have hdata : p.isData label = true := by simp [Part.isData, Part.present, h0, hc]
      set a := dataStart c.minStart label s.currStart s.logicalCount p with ha
      set q : Part := { p with start := a } with hq
      have hs' : (afterData c label s p (clampSize c.sectorSize diskEnd q)).Behind := by
        unfold Cursor.Behind afterData
        rcases clampSize_le c.sectorSize diskEnd q with h | h
        · left
          have hsize : q.size = p.size := rfl
          dsimp only
          omega
        · exact .inr h
      obtain ⟨s', hext, heq⟩ := placeParts_eq c label diskEnd ps _ hs'
      refine ⟨s', by simpa [h0, hc, afterData] using hext, ?_⟩
      simp only [afterData, ← ha] at heq
      simp only [h0, hc, if_false, Bool.false_eq_true, placeData_eq hs hdata, ← ha, ← hq]
      cases hf : fits c.sectorSize label diskEnd q with
      | true =>
        simp only [if_true, ok_bind, heq, afterData, ← ha, List.all_cons, hf,
          Bool.true_and, List.map_cons]
        cases (plan c.minStart label (a + p.size) (if p.isLogical label = true then
          s.logicalCount + 1 else s.logicalCount)
          ps).all (fits c.sectorSize label diskEnd) <;> rfl
      | false =>
        simp only [List.all_cons, hf, Bool.false_and]
        rfl

/-! ### What the plan keeps -/

section Plan

variable {minStart : ℕ} {label : Label}

variable (minStart label) in
/-- The plan changes only starts. -/
lemma plan_forall₂ : ∀ (ps : List Part) (curr : ℤ) (k : ℕ),
    List.Forall₂ (fun p q => q = { p with start := q.start }) ps (plan minStart label curr k ps)
  | [], _, _ => .nil
  | p :: ps, curr, k => by
    unfold plan
    split
    · exact .cons rfl (plan_forall₂ ps _ _)
    split
    · exact .cons rfl (plan_forall₂ ps _ _)
    · exact .cons rfl (plan_forall₂ ps _ _)

lemma plan_numbers (ps : List Part) (curr : ℤ) (k : ℕ) :
    (plan minStart label curr k ps).map (·.number) = ps.map (·.number) := by
  have h := plan_forall₂ minStart label ps curr k
  generalize plan minStart label curr k ps = qs at h
  induction h with
  | nil => rfl
  | cons hx _ ih => rw [List.map_cons, List.map_cons, ih, hx]

lemma mem_plan {ps : List Part} {curr : ℤ} {k : ℕ} {q : Part}
    (hq : q ∈ plan minStart label curr k ps) :
    ∃ p ∈ ps, q = { p with start := q.start } := by
  have h := plan_forall₂ minStart label ps curr k
  generalize plan minStart label curr k ps = qs at h hq
  induction h with
  | nil => cases hq
  | cons hx _ ih =>
    rcases List.mem_cons.mp hq with rfl | hq
    · exact ⟨_, List.mem_cons_self, hx⟩
    · obtain ⟨p, hp, he⟩ := ih hq
      exact ⟨p, List.mem_cons_of_mem _ hp, he⟩

/-- The sectors a planned partition takes from the cursor: a container takes the gap before it and
its margin. -/
def slotLo (minStart : ℕ) (label : Label) (q : Part) : ℤ :=
  if q.isContainer label then q.start + extendedMargin - minStart else q.start

/-- The cursor after a planned partition. -/
def slotHi (label : Label) (q : Part) : ℤ :=
  if q.isContainer label then q.start + extendedMargin else q.stop

lemma slotLo_container {q : Part} (h : q.isContainer label = true) :
    slotLo minStart label q = q.start + extendedMargin - minStart := if_pos h

lemma slotLo_data {q : Part} (h : q.isContainer label = false) :
    slotLo minStart label q = q.start :=
  if_neg (by rw [h]; exact Bool.false_ne_true)

lemma slotHi_container {q : Part} (h : q.isContainer label = true) :
    slotHi label q = q.start + extendedMargin :=
  if_pos h

lemma slotHi_data {q : Part} (h : q.isContainer label = false) : slotHi label q = q.stop :=
  if_neg (by rw [h]; exact Bool.false_ne_true)

variable (minStart label) in
/-- **The plan is packed**: the partitions that are not empty lie one after another. -/
theorem plan_packed : ∀ (ps : List Part) (curr : ℤ) (k : ℕ), (∀ p ∈ ps, 0 ≤ p.size) →
    ∃ d, Packed (slotLo minStart label) (slotHi label) curr
      ((plan minStart label curr k ps).filter Part.present) d
  | [], curr, _, _ => ⟨curr, .nil le_rfl⟩
  | p :: ps, curr, k, hs => by
    have hp := hs p List.mem_cons_self
    have hs := fun q hq => hs q (List.mem_cons_of_mem p hq)
    unfold plan
    split
    next h0 =>
      obtain ⟨d, hd⟩ := plan_packed ps curr k hs
      exact ⟨d, by rwa [List.filter_cons_of_neg (by simp [Part.present, h0])]⟩
    next h0 =>
      split
      next hc =>
        obtain ⟨d, hd⟩ := plan_packed ps (curr + minStart) 0 hs
        have hc' : ({ p with start := curr + minStart - extendedMargin } : Part).isContainer label =
          true := hc
        refine ⟨d, ?_⟩
        rw [List.filter_cons_of_pos (by simp [Part.present, h0])]
        refine .cons ?_ ?_ (hd.mono ?_ le_rfl) <;> simp only [slotLo_container hc',
          slotHi_container hc'] <;> omega
      next hc =>
        dsimp only
        set a := dataStart minStart label curr k p with ha
        have hcurr : curr ≤ a := by
          rw [ha]; unfold dataStart; split <;> omega
        obtain ⟨d, hd⟩ := plan_packed ps (a + p.size) (if p.isLogical label then k + 1 else k) hs
        have hc' : ({ p with start := a } : Part).isContainer label = false :=
          Bool.not_eq_true _ ▸ hc
        refine ⟨d, ?_⟩
        rw [List.filter_cons_of_pos (by simp [Part.present, h0])]
        refine .cons ?_ ?_ (hd.mono ?_ le_rfl) <;> simp only [slotLo_data hc', slotHi_data hc',
          Part.stop] <;> omega

end Plan

end Pxeos.Sfdisk
