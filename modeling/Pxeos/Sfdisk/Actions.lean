import Pxeos.Sfdisk.RoundTrip
import Pxeos.Sfdisk.Verdicts
import Mathlib.Algebra.Order.BigOperators.Group.List

/-!
# Resizing, moving and scaling

What `resize` and `move` leave of a sound table, and where `filldisk` divides.  The first two look
only at the start of the target at its new place, so they go wrong where another partition starts
inside it; the division goes wrong where the container is the only partition that is not fixed.
-/

namespace Pxeos.Sfdisk

open Pxeos.Lib

/-! ### The partitions with data -/

/-- The partitions that are no containers lie on the disk and apart. -/
structure DataSound (diskSize : ℕ) (ps : List Part) : Prop where
  onDisk : ∀ p ∈ ps, isExtendedType p.type = false → OnDisk diskSize p
  apart : ∀ p ∈ ps, ∀ q ∈ ps, p.number ≠ q.number → isExtendedType p.type = false →
    isExtendedType q.type = false → Apart p q

lemma Apart.symm {p q : Part} (h : Apart p q) : Apart q p := by
  unfold Apart at h ⊢
  omega

/-- The target of an action. -/
def Action.target : Action → Option Text
  | .resize target _ _ => some target
  | .move target _ => some target
  | .filldisk => none

/-- The place an action asks for. -/
def requested (c : Settings) : Action → Part → ℤ × ℤ
  | .resize _ sizePos logicalSectorSize, p =>
    (p.start, (sizePos + logicalSectorSize - 1).tdiv logicalSectorSize)
  | .move _ sizePos, p =>
    let start := sizePos + c.sectorSize
    let start := start - start.tmod c.sectorSize
    (if start < c.minStart then (c.minStart : ℤ) else start, p.size)
  | .filldisk, p => (p.start, p.size)

lemma map_eq_self_of_ne {ps : List Part} {target : Text} {f : Part → Part}
    (h : ps.any (·.device == target) = false) :
    ps.map (fun p => if p.device = target then f p else p) = ps := by
  rw [List.any_eq_false] at h
  conv_rhs => rw [← List.map_id ps]
  refine List.map_congr_left fun p hp => ?_
  rw [if_neg (by simpa using h p hp)]
  rfl

/-- What `resize` and `move` leave. -/
lemma perform_targeted {c : Settings} {a : Action} {unit target : Text} {t : Table}
    {tr : Traversal t.numbers} {out : Filled} (ha : a.target = some target)
    (h : perform c a unit t tr = .ok out) :
    out.parts = if unit = "sectors".toList then retarget c t tr target (requested c a)
      else t.parts := by
  have hskip : (unit == "sectors".toList && t.parts.any (·.device == target)) = false →
      t.parts = if unit = "sectors".toList then retarget c t tr target (requested c a)
        else t.parts := by
    intro hno
    split
    next hu =>
      rw [hu, beq_self_eq_true, Bool.true_and] at hno
      exact (map_eq_self_of_ne hno).symm
    next => rfl
  have hdo : (unit == "sectors".toList && t.parts.any (·.device == target)) = true →
      unit = "sectors".toList := by
    intro hyes
    rw [Bool.and_eq_true, beq_iff_eq] at hyes
    exact hyes.1
  cases a with
  | filldisk => cases ha
  | resize target' sizePos logical =>
    obtain rfl := Option.some.inj ha
    rw [perform] at h
    split at h
    next htarget =>
      split at h
      · cases h
      · obtain rfl := Except.ok.inj h
        rw [if_pos (hdo htarget)]
        rfl
    next htarget =>
      obtain rfl := Except.ok.inj h
      exact hskip (by simpa using htarget)
  | move target' sizePos =>
    obtain rfl := Option.some.inj ha
    rw [perform] at h
    split at h
    next htarget =>
      split at h
      · cases h
      · obtain rfl := Except.ok.inj h
        rw [if_pos (hdo htarget)]
        rfl
    next htarget =>
      obtain rfl := Except.ok.inj h
      exact hskip (by simpa using htarget)

/-! ### One target -/

section Target

variable {c : Settings} {t : Table} {tr : Traversal t.numbers} {target : Text}
  {place : Part → ℤ × ℤ}

/-- The target at the place it is given. -/
def targetAt (c : Settings) (t : Table) (tr : Traversal t.numbers) (place : Part → ℤ × ℤ)
    (p : Part) : Part :=
  if checkOverlap tr false (.overlap p.number) c.diskSize t.parts p (place p).1 (place p).2 then
    p.moveTo (place p).1 (place p).2
  else p

lemma retarget_eq :
    retarget c t tr target place = t.parts.map fun p => if p.device = target then
      targetAt c t tr place p else p :=
  rfl

/-- What `check_overlap` has compared. -/
lemma checkOverlap_pair {p o : Part} {a b : ℤ}
    (h : checkOverlap tr false (.overlap p.number) c.diskSize t.parts p a b = true)
    (ho : o ∈ t.parts) (hne : o.number ≠ p.number) : pairOk c.diskSize p a b o = true := by
  unfold checkOverlap at h
  rw [List.all_eq_true] at h
  have := h o ((walk_perm t.nodup_numbers tr false (.overlap p.number) rfl).mem_iff.mpr ho)
  simpa [hne] using this

/-- A place that `check_overlap` accepts is apart from another partition unless that one starts
inside it. -/
lemma apart_of_checkOverlap {p o : Part} {a b : ℤ}
    (h : checkOverlap tr false (.overlap p.number) c.diskSize t.parts p a b = true)
    (ho : o ∈ t.parts) (hne : o.number ≠ p.number) (hext : isExtendedType o.type = false) :
    Apart (p.moveTo a b) o ↔ (0 < o.size → ¬ (a < o.start ∧ o.start < a + b)) := by
  have hnonneg := (t.nonneg o ho).2.1
  have hstop : o.stop = o.start + o.size := rfl
  have hmoved : (p.moveTo a b).start = a ∧ (p.moveTo a b).stop = a + b := ⟨rfl, rfl⟩
  unfold Apart
  rw [hmoved.1, hmoved.2]
  rcases hnonneg.eq_or_lt with hzero | hpos
  · omega
  · have hpair := ((pairOk_iff hpos.ne' hext a b).mp (checkOverlap_pair h ho hne)).2
    split at hpair
    · omega
    · by_cases hle : o.start ≤ a
      · have := hpair hle
        omega
      · omega

/-- The place a target is given is safe: it is refused, or it lies on the disk and no other
partition starts inside it. -/
def PlaceSafe (c : Settings) (t : Table) (tr : Traversal t.numbers) (place : Part → ℤ × ℤ)
    (p : Part) : Prop :=
  checkOverlap tr false (.overlap p.number) c.diskSize t.parts p (place p).1 (place p).2 = true →
    0 ≤ (place p).1 ∧ (place p).1 + (place p).2 ≤ c.diskSize ∧
      ∀ o ∈ t.parts, o.number ≠ p.number → isExtendedType o.type = false → 0 < o.size →
        ¬ ((place p).1 < o.start ∧ o.start < (place p).1 + (place p).2)

lemma targetAt_number (p : Part) : (targetAt c t tr place p).number = p.number := by
  unfold targetAt
  split <;> rfl

lemma targetAt_type (p : Part) : (targetAt c t tr place p).type = p.type := by
  unfold targetAt
  split <;> rfl

/-- The target at its new place, against a sound table. -/
lemma targetAt_sound_iff (hs : DataSound c.diskSize t.parts) {p : Part} (hp : p ∈ t.parts)
    (hext : isExtendedType p.type = false) :
    (OnDisk c.diskSize (targetAt c t tr place p) ∧ ∀ o ∈ t.parts, o.number ≠ p.number →
      isExtendedType o.type = false →
      Apart (targetAt c t tr place p) o) ↔ PlaceSafe c t tr place p := by
  unfold targetAt PlaceSafe
  split
  next hcheck =>
    constructor
    · rintro ⟨⟨h0, h1⟩, hap⟩ -
      exact ⟨h0, h1, fun o ho hne hoe => (apart_of_checkOverlap hcheck ho hne hoe).mp
        (hap o ho hne hoe)⟩
    · intro h
      obtain ⟨h0, h1, hap⟩ := h hcheck
      exact ⟨⟨h0, h1⟩, fun o ho hne hoe => (apart_of_checkOverlap hcheck ho hne hoe).mpr
        (hap o ho hne hoe)⟩
  next hcheck =>
    refine ⟨fun _ h => absurd h hcheck, fun _ => ⟨hs.onDisk p hp hext, fun o ho hne hoe => ?_⟩⟩
    exact hs.apart p hp o ho hne.symm hext hoe

/-- **A retargeted table is sound exactly when the place of its target is safe.** -/
lemma retarget_sound_iff (hdev : (t.parts.map (·.device)).Nodup)
    (hs : DataSound c.diskSize t.parts) :
    DataSound c.diskSize (retarget c t tr target place) ↔
      ∀ p ∈ t.parts, p.device = target → isExtendedType p.type = false →
        PlaceSafe c t tr place p := by
  rw [retarget_eq]
  constructor
  · intro h p hp hpt hext
    refine (targetAt_sound_iff hs hp hext).mp ⟨?_, fun o ho hne hoe => ?_⟩
    · refine h.onDisk _ (List.mem_map.mpr ⟨p, hp, if_pos hpt⟩) ?_
      rw [targetAt_type]
      exact hext
    · have hot : o.device ≠ target := by
        intro hot
        refine hne (congrArg Part.number ?_)
        exact List.inj_on_of_nodup_map hdev ho hp (hot.trans hpt.symm)
      refine h.apart _ (List.mem_map.mpr ⟨p, hp, if_pos hpt⟩) _
        (List.mem_map.mpr ⟨o, ho, if_neg hot⟩) ?_ ?_ hoe
      · rw [targetAt_number]
        exact hne.symm
      · rw [targetAt_type]
        exact hext
  · intro h
    have hsafe : ∀ p ∈ t.parts, p.device = target → isExtendedType p.type = false →
        OnDisk c.diskSize (targetAt c t tr place p) ∧ ∀ o ∈ t.parts, o.number ≠ p.number →
          isExtendedType o.type = false →
          Apart (targetAt c t tr place p) o :=
      fun p hp hpt hext => (targetAt_sound_iff hs hp hext).mpr (h p hp hpt hext)
    refine ⟨fun r hr hext => ?_, fun r hr r' hr' hne hext hext' => ?_⟩
    · obtain ⟨p, hp, rfl⟩ := List.mem_map.mp hr
      by_cases hpt : p.device = target
      · rw [if_pos hpt, targetAt_type] at hext
        rw [if_pos hpt]
        exact (hsafe p hp hpt hext).1
      · rw [if_neg hpt] at hext ⊢
        exact hs.onDisk p hp hext
    · obtain ⟨p, hp, rfl⟩ := List.mem_map.mp hr
      obtain ⟨q, hq, rfl⟩ := List.mem_map.mp hr'
      -- at most one of the two is the target
      by_cases hpt : p.device = target <;> by_cases hqt : q.device = target
      · have hpq : p = q := List.inj_on_of_nodup_map hdev hp hq (hpt.trans hqt.symm)
        rw [hpq] at hne
        exact absurd rfl hne
      · rw [if_pos hpt, if_neg hqt, targetAt_number] at hne
        rw [if_pos hpt, targetAt_type] at hext
        rw [if_neg hqt] at hext'
        rw [if_pos hpt, if_neg hqt]
        exact (hsafe p hp hpt hext).2 q hq hne.symm hext'
      · rw [if_neg hpt, if_pos hqt, targetAt_number] at hne
        rw [if_neg hpt] at hext
        rw [if_pos hqt, targetAt_type] at hext'
        rw [if_neg hpt, if_pos hqt]
        exact ((hsafe q hq hqt hext').2 p hp hne hext).symm
      · rw [if_neg hpt, if_neg hqt] at hne ⊢
        rw [if_neg hpt] at hext
        rw [if_neg hqt] at hext'
        exact hs.apart p hp q hq hne hext hext'

lemma retarget_others :
    List.Forall₂ (fun p q => p.device ≠ target → q = p) t.parts (retarget c t tr target place) := by
  rw [retarget_eq, List.forall₂_map_right_iff, List.forall₂_same]
  exact fun p _ hne => if_neg hne

end Target

/-! ### The script -/

lemma readPart_device (label : Text) (old : Part) (line : Text) :
    (readPart label old line).device = ((words line)[0]?).getD [] := by
  unfold readPart
  dsimp only
  split
  · rfl
  · split <;> rfl

lemma headerRules_parts {rule : Text × (Scan → Text → Scan)} (h : rule ∈ headerRules) (s : Scan)
    (v : Text) :
    (rule.2 s v).parts = s.parts := by
  simp only [headerRules, List.mem_cons, List.not_mem_nil, or_false] at h
  rcases h with rfl | rfl | rfl | rfl | rfl | rfl | rfl <;> rfl

lemma foldl_headerRules_parts (line v : Text) :
    ∀ (rules : List (Text × (Scan → Text → Scan))) (s : Scan),
    (∀ rule ∈ rules, rule ∈ headerRules) →
    (rules.foldl (fun s rule => if rule.1 <+: line then rule.2 s v else s) s).parts = s.parts
  | [], _, _ => rfl
  | rule :: rules, s, h => by
    rw [List.foldl_cons, foldl_headerRules_parts line v rules _
      fun r hr => h r (List.mem_cons_of_mem _ hr)]
    split
    · exact headerRules_parts (h rule List.mem_cons_self) s v
    · rfl

/-- The records are kept by their device. -/
lemma scanPart_devices {s : Scan} (h : (s.parts.map (·.device)).Nodup) (line : Text) :
    ((scanPart s line).parts.map (·.device)).Nodup := by
  unfold scanPart
  dsimp only
  split
  · have hsame : (s.parts.map fun p => if p.device = ((words line)[0]?).getD [] then
      readPart s.label p line else p).map
        (·.device) = s.parts.map (·.device) := by
      rw [List.map_map]
      refine List.map_congr_left fun p _ => ?_
      show Part.device (if _ then _ else _) = _
      split
      next hd => rw [readPart_device, hd]
      next => rfl
    rw [hsame]
    exact h
  next hnew =>
    rw [List.map_append, List.nodup_append]
    refine ⟨h, List.nodup_singleton _, ?_⟩
    intro a ha b hb
    rw [List.map_singleton, List.mem_singleton, readPart_device] at hb
    obtain ⟨p, hp, rfl⟩ := List.mem_map.mp ha
    rw [hb]
    intro heq
    exact hnew (List.any_eq_true.mpr ⟨p, hp, beq_iff_eq.mpr heq⟩)

lemma scanLine_devices {s : Scan} (h : (s.parts.map (·.device)).Nodup) (line : Text) :
    ((scanLine s line).parts.map (·.device)).Nodup := by
  unfold scanLine
  dsimp only
  have hheaders := foldl_headerRules_parts line (((words line)[1]?).getD []) headerRules s
    fun rule hr => hr
  split
  · refine scanPart_devices ?_ line
    rw [hheaders]
    exact h
  · rw [hheaders]
    exact h

lemma foldl_scanLine_devices : ∀ (lines : List Text) {s : Scan}, (s.parts.map (·.device)).Nodup →
    ((lines.foldl scanLine s).parts.map (·.device)).Nodup
  | [], _, h => h
  | line :: lines, _, h => foldl_scanLine_devices lines (scanLine_devices h line)

lemma table?_perm {s : Scan} {t : Table} (h : s.table? = some t) : t.parts.Perm s.parts := by
  have hperm := List.perm_insertionSort (fun p q : Part => p.number ≤ q.number) s.parts
  unfold Scan.table? at h
  dsimp only at h
  split at h
  · split at h
    · obtain rfl := Option.some.inj h
      exact hperm
    · cases h
  · split at h
    · split at h
      · obtain rfl := Option.some.inj h
        exact hperm
      · cases h
    · cases h

/-- **When `resize` and `move` print a sound table.** -/
theorem runScript_sound_iff (c : Settings) (a : Action) (tr : (t : Table) → Traversal t.numbers)
    (lines : List Text) {target : Text} (ha : a.target = some target) {t : Table}
    (ht : (scan lines).table? = some t) (hs : DataSound c.diskSize t.parts) {r : Scan}
    (hr : runScript c a tr lines = some r) :
    (DataSound c.diskSize r.parts ∧
      List.Forall₂ (fun p q => p.device ≠ target → q = p) t.parts r.parts) ↔
      ((scan lines).unit = "sectors".toList →
        ∀ p ∈ t.parts, p.device = target → isExtendedType p.type = false →
          PlaceSafe c t (tr t) (requested c a) p) := by
  have hdev : (t.parts.map (·.device)).Nodup :=
    ((table?_perm ht).map _).nodup_iff.mpr (foldl_scanLine_devices lines List.nodup_nil)
  unfold runScript at hr
  simp only [ht] at hr
  split at hr
  · cases hr
  next out hout =>
    obtain rfl := Option.some.inj hr
    have hparts := perform_targeted ha hout
    dsimp only
    by_cases hu : (scan lines).unit = "sectors".toList
    · rw [if_pos hu] at hparts
      rw [hparts, and_iff_left retarget_others, retarget_sound_iff hdev hs]
      exact ⟨fun h _ => h, fun h => h hu⟩
    · rw [if_neg hu] at hparts
      rw [hparts]
      exact ⟨fun _ h => absurd h hu, fun _ => ⟨hs, List.forall₂_same.mpr fun p _ _ => rfl⟩⟩

/-- The dump of a disk with two primary partitions. -/
def primaryDump : List Text :=
  ["label: dos", "label-id: 0x5c1f83aa", "device: /dev/sda", "unit: sectors", "",
    "/dev/sda1 : start=        2048, size=        4096, type=83",
    "/dev/sda2 : start=        8192, size=        4096, type=83"].map String.toList

/-- Its table. -/
def primaryTable : Table :=
  ⟨.dos, 0, 0, [⟨"/dev/sda1".toList, 1, 2048, 4096, 4096, "83".toList, [], [], [], []⟩,
    ⟨"/dev/sda2".toList, 2, 8192, 4096, 4096, "83".toList, [], [], [], []⟩], by decide, by decide⟩

lemma primaryDump_table : (scan primaryDump).table? = some primaryTable := by rfl

lemma primaryTable_sound : DataSound 20000 primaryTable.parts := by
  refine ⟨?_, ?_⟩
  · unfold OnDisk
    decide
  · unfold Apart
    decide

/-- The first partition is resized over the second. -/
theorem runScript_resize_overlaps :
    ∃ r, (scan primaryDump).table? = some primaryTable ∧ DataSound 20000 primaryTable.parts ∧
    runScript ⟨20000, 2048, 1, []⟩ (.resize "/dev/sda1".toList 5120000 512)
      (fun t => byNumber t.numbers) primaryDump = some r ∧
    ¬ DataSound 20000 r.parts := by
  refine ⟨⟨"dos".toList, "0x5c1f83aa".toList, "/dev/sda".toList, "sectors".toList, 0, 0, 0,
    [⟨"/dev/sda1".toList, 1, 2048, 10000, 4096, "83".toList, [], [], [], []⟩,
      ⟨"/dev/sda2".toList, 2, 8192, 4096, 4096, "83".toList, [], [], [], []⟩]⟩, primaryDump_table,
        primaryTable_sound,
    by decide +kernel, fun h => ?_⟩
  have := h.apart _ List.mem_cons_self _ (List.mem_cons_of_mem _ List.mem_cons_self) (by decide)
    (by decide) (by decide)
  revert this
  unfold Apart
  decide

/-- The first partition is shrunk. -/
theorem runScript_sound_shrunk : ∃ r,
    runScript ⟨20000, 2048, 1, []⟩ (.resize "/dev/sda1".toList 1048576 512)
      (fun t => byNumber t.numbers) primaryDump = some r ∧
    DataSound 20000 r.parts ∧
      List.Forall₂ (fun p q => p.device ≠ "/dev/sda1".toList → q = p)
        primaryTable.parts r.parts := by
  have hrun : runScript ⟨20000, 2048, 1, []⟩ (.resize "/dev/sda1".toList 1048576 512)
      (fun t => byNumber t.numbers)
      primaryDump = some ⟨"dos".toList, "0x5c1f83aa".toList, "/dev/sda".toList,
        "sectors".toList, 0, 0, 0,
        [⟨"/dev/sda1".toList, 1, 2048, 2048, 4096, "83".toList, [], [], [], []⟩,
          ⟨"/dev/sda2".toList, 2, 8192, 4096, 4096, "83".toList, [], [], [], []⟩]⟩ := by
              decide +kernel
  refine ⟨_, hrun,
    (runScript_sound_iff _ _ _ primaryDump rfl primaryDump_table primaryTable_sound hrun).mpr
    fun _ p hp hd _ => ?_⟩
  rcases List.mem_cons.mp hp with rfl | hp
  · unfold PlaceSafe requested
    decide +kernel
  · obtain rfl := List.mem_singleton.mp hp
    exact absurd hd (by decide)

/-! ### The division -/

section Division

variable (c : Settings) (t : Table) (tr : Traversal t.numbers)

/-- A partition reaches the division: the table has passed the first checks, and the partition is
not fixed. -/
structure ReachesDivision (p : Part) : Prop where
  layout : validateMbrEbrLayout tr t.label t.parts = true
  consistent : checkAllPartitions tr false .check .overlap c.diskSize t.parts = true
  mem : p ∈ t.parts
  notFixed : p.number ∉ (sizes c t tr).fixedList

/-- A container that is not in `fixedList` is not alone: some other partition is neither listed, nor
empty, nor swap. -/
def ContainerNotAlone : Prop :=
  ∀ x ∈ t.parts, x.isContainer t.label = true → x.number ∉ c.fixedList →
    ∃ p ∈ t.parts, p.isContainer t.label = false ∧ p.number ∉ c.fixedList ∧ autoFixed p = false

variable {c t tr}

lemma isFixed_eq_false {p : Part} : isFixed c t p = false ↔
    p.number ∉ c.fixedList ∧ (p.isContainer t.label = true ∨ autoFixed p = false) := by
  unfold isFixed
  rw [Bool.or_eq_false_iff, decide_eq_false_iff_not, Bool.and_eq_false_iff, Bool.not_eq_false']

lemma variableCost_nonneg {p : Part} (hp : p ∈ t.parts) : 0 ≤ variableCost c t p := by
  unfold variableCost
  split
  · exact le_rfl
  · exact (t.nonneg p hp).2.1

/-- A partition that is scaled has sectors. -/
lemma variableCost_pos {p : Part} (hp : p ∈ t.parts) : 0 < variableCost c t p ↔
    p.isContainer t.label = false ∧ p.number ∉ c.fixedList ∧ autoFixed p = false := by
  have hnonneg := (t.nonneg p hp).2.1
  unfold variableCost
  constructor
  · intro h
    split at h
    · exact absurd h (lt_irrefl 0)
    next hno =>
      rw [Bool.or_eq_true, not_or, Bool.not_eq_true, Bool.not_eq_true] at hno
      obtain ⟨hl, hor⟩ := isFixed_eq_false.mp hno.2
      refine ⟨hno.1, hl, hor.resolve_left ?_⟩
      rw [hno.1]
      exact Bool.false_ne_true
  · rintro ⟨hc, hl, ha⟩
    rw [hc, isFixed_eq_false.mpr ⟨hl, .inr ha⟩]
    have hne : p.size ≠ 0 := by
      intro h0
      rw [autoFixed, h0] at ha
      cases ha
    simp only [Bool.or_self, Bool.false_eq_true, if_false]
    omega

lemma originalVariable_pos_iff : 0 < originalVariable c t ↔
    ∃ p ∈ t.parts, p.isContainer t.label = false ∧ p.number ∉ c.fixedList ∧
      autoFixed p = false := by
  have hnonneg : ∀ x ∈ t.parts.map (variableCost c t), 0 ≤ x := by
    intro x hx
    obtain ⟨p, hp, rfl⟩ := List.mem_map.mp hx
    exact variableCost_nonneg hp
  unfold originalVariable
  constructor
  · intro h
    by_contra hno
    have hzero : ∀ x ∈ t.parts.map (variableCost c t), x = 0 := by
      intro x hx
      obtain ⟨p, hp, rfl⟩ := List.mem_map.mp hx
      refine le_antisymm (not_lt.mp fun hpos => hno ⟨p, hp, ?_⟩) (variableCost_nonneg hp)
      exact (variableCost_pos hp).mp hpos
    rw [List.sum_eq_zero hzero] at h
    exact lt_irrefl 0 h
  · rintro ⟨p, hp, h⟩
    calc 0 < variableCost c t p := (variableCost_pos hp).mpr h
      _ ≤ _ := List.single_le_sum hnonneg _ (List.mem_map_of_mem hp)

/-- Only the container can come to the division without a part in the divisor. -/
lemma divisor_pos_iff :
    (∀ p ∈ t.parts, p.number ∉ (sizes c t tr).fixedList → 0 < (sizes c t tr).originalVariable) ↔
    ContainerNotAlone c t := by
  obtain ⟨-, hvar, hfixed⟩ := sizes_eq c t tr
  unfold ContainerNotAlone
  rw [hvar, originalVariable_pos_iff]
  constructor
  · intro h x hx hc hl
    refine h x hx ?_
    rw [hfixed x hx, isFixed_eq_false.mpr ⟨hl, .inl hc⟩]
    exact Bool.false_ne_true
  · intro h p hp hreach
    rw [hfixed p hp, Bool.not_eq_true, isFixed_eq_false] at hreach
    obtain ⟨hl, hor⟩ := hreach
    cases hc : p.isContainer t.label with
    | true => exact h p hp hc hl
    | false =>
      rw [hc] at hor
      exact ⟨p, hp, hc, hl, hor.resolve_left Bool.false_ne_true⟩

/-- Behind the scaling loop `fill_disk` divides no more. -/
lemma fillDisk_ne_fatal (hS : 0 < c.sectorSize) (h : ContainerNotAlone c t) :
    fillDisk c t tr ≠ .error .fatal := by
  intro hfatal
  have hscale : ∀ p ∈ t.parts, ∃ q, scalePart c t.label (sizes c t tr) p = .ok q := by
    intro p hp
    refine ⟨wantPart c t p, ?_⟩
    rw [scalePart_eq hp, if_neg]
    rintro (h0 | ⟨hf, hv⟩)
    · omega
    · have hpos : p.number ∉ (sizes c t tr).fixedList → 0 < (sizes c t tr).originalVariable :=
        divisor_pos_iff.mpr h p hp
      rw [(sizes_eq c t tr).2.2 p hp, (sizes_eq c t tr).2.1, hf, hv] at hpos
      exact absurd (hpos Bool.false_ne_true) (lt_irrefl 0)
  obtain ⟨scaled, hscaled⟩ := exists_mapM_ok hscale
  simp only [fillDisk, bind_eq_error, errorIf_eq_error, reduceCtorEq, and_false, false_or,
    hscaled] at hfatal
  obtain ⟨-, -, -, -, qs, hqs, hplace | ⟨⟨cursor, placed⟩, -, hlast⟩⟩ := hfatal
  · obtain ⟨s', -, heq⟩ := placeParts_eq c t.label (diskEnd c t)
      (visit (placeOrder tr (sortedIn t (sizes c t tr).fixedList) (orderedStarts tr t.parts)) qs)
        (initialCursor c) (.inr le_rfl)
    rw [heq] at hplace
    split at hplace <;> cases hplace
  · obtain ⟨-, -, hlast⟩ := hlast
    cases hlast

/-- **When `filldisk` divides by zero**, of the tables that pass its first checks. -/
theorem fillDisk_divides_iff (c : Settings) (t : Table) (tr : Traversal t.numbers)
    (hS : 0 < c.sectorSize) (hlayout : validateMbrEbrLayout tr t.label t.parts = true)
    (hcheck : checkAllPartitions tr false .check .overlap c.diskSize t.parts = true) :
    ((∀ p, ReachesDivision c t tr p → 0 < (sizes c t tr).originalVariable) ∧
      fillDisk c t tr ≠ .error .fatal) ↔
      ContainerNotAlone c t := by
  constructor
  · rintro ⟨hreach, -⟩
    exact divisor_pos_iff.mp fun p hp hnf => hreach p ⟨hlayout, hcheck, hp, hnf⟩
  · intro h
    exact ⟨fun p hp => divisor_pos_iff.mpr h p hp.mem hp.notFixed, fillDisk_ne_fatal hS h⟩

end Division

/-- A disk with a root partition, and swap in a container. -/
def swapDos : Table :=
  ⟨.dos, 0, 0, [examplePart 1 2048 8192 8192 "83", examplePart 2 12288 8192 8192 "5",
    examplePart 5 14336 4096 4096 "82"],
    by decide, by decide⟩

/-- With the root partition fixed, the container is scaled by nothing. -/
theorem fillDisk_divides_by_zero :
    validateMbrEbrLayout (byNumber swapDos.numbers) swapDos.label swapDos.parts = true ∧
    checkAllPartitions (byNumber swapDos.numbers) false .check .overlap 100000 swapDos.parts =
      true ∧
    ReachesDivision ⟨100000, 2048, 512, [1]⟩ swapDos (byNumber swapDos.numbers)
      (examplePart 2 12288 8192 8192 "5") ∧
    (sizes ⟨100000, 2048, 512, [1]⟩ swapDos (byNumber swapDos.numbers)).originalVariable = 0 ∧
    fillDisk ⟨100000, 2048, 512, [1]⟩ swapDos (byNumber swapDos.numbers) = .error .fatal := by
  refine ⟨by decide +kernel, by decide +kernel,
    ⟨by decide +kernel, by decide +kernel, by decide, by decide +kernel⟩,
    by decide +kernel, by decide +kernel⟩

/-- With nothing listed, the root partition is scaled. -/
theorem fillDisk_divides_root :
    (∀ p, ReachesDivision ⟨100000, 2048, 512, []⟩ swapDos (byNumber swapDos.numbers) p →
      0 < (sizes ⟨100000, 2048, 512, []⟩ swapDos (byNumber swapDos.numbers)).originalVariable) ∧
    fillDisk ⟨100000, 2048, 512, []⟩ swapDos (byNumber swapDos.numbers) ≠ .error .fatal := by
  refine (fillDisk_divides_iff _ swapDos (byNumber swapDos.numbers) (by decide) (by decide +kernel)
    (by decide +kernel)).mpr ?_
  intro x _ _ _
  exact ⟨examplePart 1 2048 8192 8192 "83", by decide, by decide, by decide, by decide⟩

end Pxeos.Sfdisk
