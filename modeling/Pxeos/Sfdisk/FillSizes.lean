import Pxeos.Sfdisk.FillRun

/-!
# The sizes after a fill

When a fixed partition keeps its size, and when a scaled one keeps its minimum.  The placement loop
cuts whatever meets the end of the disk, fixed or not, and rounds down after the minimum has been
enforced.
-/

namespace Pxeos.Sfdisk

open Pxeos.Lib

section Cut

variable {sectorSize : ℕ} {label : Label} {diskEnd : ℤ} {q : Part}

/-- A partition that has been cut is smaller than planned. -/
lemma clampSize_lt (hf : fits sectorSize label diskEnd q = true) (hd : q.isData label = true)
    (hlt : diskEnd < q.stop) :
    clampSize sectorSize diskEnd q < q.size := by
  have hpos : 0 < clampSize sectorSize diskEnd q := by simpa [fits, hd, hlt] using hf
  unfold clampSize at hpos ⊢
  rw [if_pos hlt] at hpos ⊢
  unfold Part.stop at hlt
  rcases le_total 0 (diskEnd - q.start) with hx | hx
  · have := Int.tmod_nonneg (sectorSize : ℤ) hx
    omega
  · have := sub_tmod_nonpos (a := sectorSize) hx
    omega

lemma clampSize_of_le (h : q.stop ≤ diskEnd) : clampSize sectorSize diskEnd q = q.size :=
  if_neg (by omega)

end Cut

/-! ### Fixed partitions -/

section Fixed

variable (c : Settings) (t : Table) (tr : Traversal t.numbers)

/-- Every fixed partition has the size it had. -/
def FixedKept (out : Filled) : Prop :=
  ∀ p ∈ t.parts, p.isContainer t.label = false → isFixed c t p = true →
    ∀ q ∈ out.parts, q.number = p.number → q.size = p.size

/-- Every fixed partition, at its place in the plan, ends before the end of the disk. -/
def FixedFit : Prop :=
  ∀ p ∈ t.parts, p.isContainer t.label = false → isFixed c t p = true →
    ∀ r ∈ planned c t tr, r.number = p.number → p.size ≠ 0 → r.stop ≤ diskEnd c t

variable {c t tr}

lemma wantSize_of_isFixed {p : Part} (hf : isFixed c t p = true) : wantSize c t p = p.size := by
  simp [wantSize, hf]

/-- A planned record has data when its partition has. -/
lemma isData_planned {r p : Part} (hp : p ∈ t.parts) (hr : r ∈ planned c t tr)
    (hn : r.number = p.number) (hc : p.isContainer t.label = false) (h0 : wantSize c t p ≠ 0) :
    r.isData t.label = true := by
  rw [planned_record hr hp hn]
  change (!decide (wantSize c t p = 0) && !p.isContainer t.label) = true
  simp [hc, h0]

/-- **When a fill keeps the fixed sizes.** -/
theorem fillDisk_fixedKept_iff (c : Settings) (t : Table) (tr : Traversal t.numbers) (out : Filled)
    (h : fillDisk c t tr = .ok out) : FixedKept c t out ↔ FixedFit c t tr := by
  have run := fillDisk_ok h
  constructor
  · intro hk p hp hc hf r hr hn h0
    obtain ⟨q, hq, hqn⟩ := run.exists_record hp
    have hsize := hk p hp hc hf q hq hqn
    have hwant := wantSize_of_isFixed hf
    have hd := isData_planned hp hr hn hc (hwant ▸ h0)
    have hrsize : r.size = p.size := by
      rw [planned_record hr hp hn]
      exact hwant
    rcases run.record hq hp hqn hc with ⟨r', hr', hn', rfl⟩ | ⟨hno, -⟩
    · obtain rfl := eq_of_number planned_nodup hr' hr (hn'.trans hn.symm)
      by_contra hlt
      have hcut := clampSize_lt (run.fits _ hr) hd (not_le.mp hlt)
      rw [clamp, if_pos hd] at hsize
      dsimp only at hsize
      omega
    · exact absurd hn (hno r hr)
  · intro hfit p hp hc hf q hq hqn
    have hwant := wantSize_of_isFixed hf
    rcases run.record hq hp hqn hc with ⟨r, hr, hn, rfl⟩ | ⟨-, rfl⟩
    · have hrsize : r.size = p.size := by
        rw [planned_record hr hp hn]
        exact hwant
      unfold clamp
      split
      next hd =>
        have h0 : p.size ≠ 0 := by
          rw [← hrsize]
          simp only [Part.isData, Part.present, Bool.and_eq_true, Bool.not_eq_true',
            decide_eq_false_iff_not] at hd
          exact hd.1
        rw [← hrsize]
        exact clampSize_of_le (hfit p hp hc hf r hr hn h0)
      next => exact hrsize
    · exact hwant

end Fixed

/-- A partition of an example: its number, start, size, minimum and type. -/
def examplePart (number : ℕ) (start size minsize : ℤ) (type : String) : Part :=
  ⟨[], number, start, size, minsize, type.toList, [], [], [], []⟩

/-- A GPT disk of 10000 sectors whose second partition ends at its last usable sector. -/
def fullGpt : Table :=
  ⟨.gpt, 34, 9966, [examplePart 1 2048 4096 4096 "0FC63DAF-8483-4772-8E79-3D69D8477DE4",
    examplePart 2 6144 3823 3823 "0657FD6D-A4AB-43C4-84E5-0933C84B4F4F"], by decide, by decide⟩

/-- Filling a disk with its own table cuts the fixed partition at its end: the last usable sector of
a GPT disk is `diskSize - firstlba`, and `disk_end` is taken for the sector behind it. -/
theorem fullGpt_cut :
    ∃ out, fillDisk ⟨10000, 2048, 512, [2]⟩ fullGpt (byNumber _) = .ok out ∧
      ¬ FixedKept ⟨10000, 2048, 512, [2]⟩ fullGpt out := by
  refine ⟨⟨[examplePart 1 2048 4096 4096 "0FC63DAF-8483-4772-8E79-3D69D8477DE4",
    examplePart 2 6144 3584 3823 "0657FD6D-A4AB-43C4-84E5-0933C84B4F4F"], 9966⟩,
      by decide +kernel, fun h => ?_⟩
  have := h (examplePart 2 6144 3823 3823 "0657FD6D-A4AB-43C4-84E5-0933C84B4F4F") (by decide)
    (by decide) (by decide)
    (examplePart 2 6144 3584 3823 "0657FD6D-A4AB-43C4-84E5-0933C84B4F4F") (by decide) rfl
  revert this
  decide

/-- On a disk of 20000 sectors the fixed partition keeps its size. -/
theorem fullGpt_grown_fixedKept :
    ∃ out, fillDisk ⟨20000, 2048, 512, [2]⟩ fullGpt (byNumber _) = .ok out ∧
      FixedKept ⟨20000, 2048, 512, [2]⟩ fullGpt out := by
  have hok : fillDisk ⟨20000, 2048, 512, [2]⟩ fullGpt (byNumber _) =
      .ok ⟨[examplePart 1 2048 13824 4096 "0FC63DAF-8483-4772-8E79-3D69D8477DE4",
        examplePart 2 15872 3823 3823 "0657FD6D-A4AB-43C4-84E5-0933C84B4F4F"],
          19966⟩ := by decide +kernel
  refine ⟨_, hok, (fillDisk_fixedKept_iff _ _ _ _ hok).mpr ?_⟩
  unfold FixedFit
  decide +kernel

/-! ### Scaled partitions -/

section Scaled

variable (c : Settings) (t : Table) (tr : Traversal t.numbers)

/-- Every scaled partition has at least its minimum. -/
def MinKept (out : Filled) : Prop :=
  ∀ p ∈ t.parts, p.isContainer t.label = false → isFixed c t p = false →
    ∀ q ∈ out.parts, q.number = p.number → p.minsize ≤ q.size

/-- The minimum of a partition, rounded up. -/
def alignedMin (p : Part) : ℤ := ⌈(p.minsize : ℚ) / c.sectorSize⌉ * c.sectorSize

/-- The minimum of every scaled partition is aligned, or its share has room for the rounded minimum;
and the rounded minimum fits between the partition's place in the plan and the end of the disk. -/
def MinFit : Prop :=
  ∀ p ∈ t.parts, p.isContainer t.label = false → isFixed c t p = false →
    ((c.sectorSize : ℤ) ∣ p.minsize ∨ (alignedMin c p : ℚ) ≤ share c t p) ∧
      (0 < p.minsize → ∀ r ∈ planned c t tr, r.number = p.number →
        r.start + alignedMin c p ≤ diskEnd c t)

/-- Rounding down keeps what is below a multiple. -/
lemma mul_le_floor_iff {S : ℕ} (hS : 0 < S) (k : ℤ) (x : ℚ) :
    k * S ≤ ⌊x / S⌋ * (S : ℤ) ↔ (k * S : ℚ) ≤ x := by
  have hS' : (0 : ℚ) < S := by exact_mod_cast hS
  rw [mul_le_mul_iff_left₀ (by exact_mod_cast hS : (0 : ℤ) < S), Int.le_floor, le_div_iff₀ hS']

variable {c t tr}

/-- Among the multiples of the sector size, those above the minimum are those above the rounded
minimum. -/
lemma min_le_mul_iff (hS : 0 < c.sectorSize) (p : Part) (k : ℤ) :
    p.minsize ≤ k * c.sectorSize ↔ alignedMin c p ≤ k * c.sectorSize := by
  have hS' : (0 : ℚ) < c.sectorSize := by exact_mod_cast hS
  unfold alignedMin
  rw [mul_le_mul_iff_left₀ (by exact_mod_cast hS : (0 : ℤ) < c.sectorSize), Int.ceil_le,
    div_le_iff₀ hS']
  exact_mod_cast Iff.rfl

lemma alignedMin_le_min_iff (hS : 0 < c.sectorSize) (p : Part) :
    alignedMin c p ≤ p.minsize ↔ (c.sectorSize : ℤ) ∣ p.minsize := by
  constructor
  · intro h
    have hle := (min_le_mul_iff hS p ⌈(p.minsize : ℚ) / c.sectorSize⌉).mpr le_rfl
    exact ⟨_, (le_antisymm hle h).trans (mul_comm _ _)⟩
  · rintro ⟨k, hk⟩
    have h := (min_le_mul_iff hS p k).mp (by rw [hk, mul_comm])
    rwa [mul_comm, ← hk] at h

/-- The scaled size reaches the minimum. -/
lemma min_le_scaledSize_iff (hS : 0 < c.sectorSize) (p : Part) :
    p.minsize ≤ scaledSize c.sectorSize (c.diskSize - originalFixed c t) (originalVariable c t) p ↔
      (c.sectorSize : ℤ) ∣ p.minsize ∨ (alignedMin c p : ℚ) ≤ share c t p := by
  change p.minsize ≤ ⌊(if share c t p < p.minsize then (p.minsize : ℚ) else share c t p) /
    c.sectorSize⌋ * c.sectorSize ↔ _
  rw [min_le_mul_iff hS]
  have hfloor := mul_le_floor_iff hS ⌈(p.minsize : ℚ) / c.sectorSize⌉
    (if share c t p < p.minsize then (p.minsize : ℚ) else share c t p)
  rw [← alignedMin_le_min_iff hS]
  refine hfloor.trans ?_
  have hcast : (⌈(p.minsize : ℚ) / c.sectorSize⌉ * c.sectorSize : ℚ) = (alignedMin c p : ℤ) := by
    unfold alignedMin
    push_cast
    rfl
  rw [hcast]
  split
  next hlt =>
    refine ⟨fun h => .inl (by exact_mod_cast h), ?_⟩
    rintro (h | h)
    · exact_mod_cast h
    · exact h.trans hlt.le
  next hge =>
    refine ⟨.inr, ?_⟩
    rintro (h | h)
    · have h' : (alignedMin c p : ℚ) ≤ p.minsize := by exact_mod_cast h
      exact h'.trans (not_lt.mp hge)
    · exact h

/-- The rounded minimum after the cut. -/
lemma alignedMin_le_clampSize_iff (hS : 0 < c.sectorSize) {p r : Part} {e : ℤ}
    (hr : alignedMin c p ≤ r.size) (hpos : 0 < alignedMin c p) :
    alignedMin c p ≤ clampSize c.sectorSize e r ↔ r.start + alignedMin c p ≤ e := by
  have hS' : (0 : ℤ) < c.sectorSize := by exact_mod_cast hS
  unfold clampSize
  split
  next hlt =>
    rcases le_total 0 (e - r.start) with hx | hx
    · rw [sub_tmod_of_nonneg hx]
      unfold alignedMin
      rw [mul_comm (c.sectorSize : ℤ), mul_le_mul_iff_left₀ hS', Int.le_ediv_iff_mul_le hS']
      omega
    · have := sub_tmod_nonpos (a := c.sectorSize) hx
      omega
  next hge =>
    unfold Part.stop at hge
    exact ⟨fun _ => by omega, fun _ => hr⟩

lemma wantSize_of_scaled {p : Part} (hc : p.isContainer t.label = false)
    (hf : isFixed c t p = false) :
    wantSize c t p = scaledSize c.sectorSize (c.diskSize - originalFixed c t)
      (originalVariable c t) p := by
  simp [wantSize, hc, hf]

lemma alignedMin_pos_iff (hS : 0 < c.sectorSize) (p : Part) :
    0 < alignedMin c p ↔ 0 < p.minsize := by
  have h := min_le_mul_iff hS p 0
  rw [zero_mul] at h
  exact not_iff_not.mp (by rw [not_lt, not_lt]; exact h.symm)

/-- A cut leaves a multiple of the sector size. -/
lemma clampSize_mul {S : ℕ} {e : ℤ} {r : Part} (hr : ∃ k : ℤ, r.size = k * S) :
    ∃ k : ℤ, clampSize S e r = k * S := by
  unfold clampSize
  split
  · refine ⟨(e - r.start).tdiv S, ?_⟩
    rw [Int.tmod_def]
    ring
  · exact hr

/-- The size of a record that has been cut is not negative. -/
lemma clamp_size_nonneg {S : ℕ} {label : Label} {e : ℤ} {r : Part} (hf : fits S label e r = true)
    (hr : 0 ≤ r.size) :
    0 ≤ (clamp S label e r).size := by
  unfold clamp
  split
  next hd =>
    by_cases hlt : e < r.stop
    · have : 0 < clampSize S e r := by simpa [fits, hd, hlt] using hf
      exact this.le
    · rw [clampSize_of_le (not_lt.mp hlt)]
      exact hr
  next => exact hr

/-- One partition: its minimum after the fill. -/
lemma FillRun.min_le_iff {out : Filled} (run : FillRun c t tr out) {p q : Part} (hp : p ∈ t.parts)
    (hc : p.isContainer t.label = false) (hf : isFixed c t p = false) (hq : q ∈ out.parts)
    (hqn : q.number = p.number) :
    p.minsize ≤ q.size ↔ p.minsize ≤ wantSize c t p ∧
      (0 < p.minsize → ∀ r ∈ planned c t tr, r.number = p.number →
        r.start + alignedMin c p ≤ diskEnd c t) := by
  have hS : 0 < c.sectorSize := Nat.pos_of_ne_zero (run.scales p hp).1
  rcases run.record hq hp hqn hc with ⟨r, hr, hn, rfl⟩ | ⟨hno, rfl⟩
  · have hrsize : r.size = wantSize c t p := by rw [planned_record hr hp hn]; rfl
    have hw := wantSize_nonneg (c := c) hp
    have hmin := (t.nonneg p hp).2.2
    rcases hmin.eq_or_lt with h0 | hpos
    · have := clamp_size_nonneg (run.fits r hr) (hrsize ▸ hw)
      exact ⟨fun _ => ⟨by omega, fun h => absurd h (by omega)⟩, fun _ => by omega⟩
    by_cases hwant : p.minsize ≤ wantSize c t p
    · have hd : r.isData t.label = true := isData_planned hp hr hn hc (by omega)
      have hmul : ∃ k : ℤ, r.size = k * c.sectorSize := by
        rw [hrsize, wantSize_of_scaled hc hf]
        exact ⟨_, rfl⟩
      obtain ⟨k, hk⟩ := clampSize_mul (e := diskEnd c t) hmul
      obtain ⟨j, hj⟩ := hmul
      have hle : alignedMin c p ≤ r.size := by
        rw [hj]
        exact (min_le_mul_iff hS p j).mp (by rw [← hj, hrsize]; exact hwant)
      have hcut :=
        alignedMin_le_clampSize_iff (e := diskEnd c t) hS hle ((alignedMin_pos_iff hS p).mpr hpos)
      have hsize : (clamp c.sectorSize t.label (diskEnd c t) r).size =
          clampSize c.sectorSize (diskEnd c t) r := by
        unfold clamp
        rw [if_pos hd]
      rw [hsize, hk, min_le_mul_iff hS p k, ← hk, hcut]
      refine ⟨fun h => ⟨hwant, fun _ r' hr' hn' => ?_⟩, fun h => h.2 hpos r hr hn⟩
      obtain rfl := eq_of_number planned_nodup hr' hr (hn'.trans hn.symm)
      exact h
    · refine ⟨fun h => absurd ?_ hwant, fun h => absurd h.1 hwant⟩
      unfold clamp at h
      split at h
      · rcases clampSize_le c.sectorSize
          (diskEnd c t) r with hcl | hcl <;> dsimp only at h <;> omega
      · omega
  · exact ⟨fun h => ⟨h, fun _ r hr hn => absurd hn (hno r hr)⟩, fun h => h.1⟩

/-- **When a fill keeps the minima.** -/
theorem fillDisk_minKept_iff (c : Settings) (t : Table) (tr : Traversal t.numbers) (out : Filled)
    (h : fillDisk c t tr = .ok out) : MinKept c t out ↔ MinFit c t tr := by
  have run := fillDisk_ok h
  have hwant : ∀ p ∈ t.parts, p.isContainer t.label = false → isFixed c t p = false →
      (p.minsize ≤ wantSize c t p ↔ (c.sectorSize : ℤ) ∣ p.minsize ∨
        (alignedMin c p : ℚ) ≤ share c t p) := by
    intro p hp hc hf
    rw [wantSize_of_scaled hc hf]
    exact min_le_scaledSize_iff (Nat.pos_of_ne_zero (run.scales p hp).1) p
  constructor
  · intro hk p hp hc hf
    obtain ⟨q, hq, hqn⟩ := run.exists_record hp
    rw [← hwant p hp hc hf]
    exact (run.min_le_iff hp hc hf hq hqn).mp (hk p hp hc hf q hq hqn)
  · intro hfit p hp hc hf q hq hqn
    rw [run.min_le_iff hp hc hf hq hqn, hwant p hp hc hf]
    exact hfit p hp hc hf

/-- An MBR disk with one partition of 5000 sectors, all of them used. -/
def oneDos : Table := ⟨.dos, 0, 0, [examplePart 1 2048 5000 5000 "83"], by decide, by decide⟩

/-- On a disk of 7200 sectors the minimum is enforced and then rounded down. -/
theorem oneDos_below_minimum :
    ∃ out, fillDisk ⟨7200, 2048, 512, []⟩ oneDos (byNumber _) = .ok out ∧
      ¬ MinKept ⟨7200, 2048, 512, []⟩ oneDos out := by
  refine ⟨⟨[examplePart 1 2048 4608 5000 "83"], 0⟩, by decide +kernel, fun h => ?_⟩
  have := h (examplePart 1 2048 5000 5000 "83") (by decide) (by decide) (by decide)
    (examplePart 1 2048 4608 5000 "83")
    (by decide) rfl
  revert this
  decide

/-- On a disk of 20000 sectors the share has room for the rounded minimum. -/
theorem oneDos_grown_minKept :
    ∃ out, fillDisk ⟨20000, 2048, 512, []⟩ oneDos (byNumber _) = .ok out ∧
      MinKept ⟨20000, 2048, 512, []⟩ oneDos out := by
  have hok : fillDisk ⟨20000, 2048, 512, []⟩ oneDos (byNumber _) =
      .ok ⟨[examplePart 1 2048 16384 5000 "83"], 0⟩ := by
    decide +kernel
  refine ⟨_, hok, (fillDisk_minKept_iff _ _ _ _ hok).mpr ?_⟩
  unfold MinFit
  decide +kernel

end Scaled

end Pxeos.Sfdisk
