import Pxeos.Deploy.Lvm

/-!
# What a resolved group satisfies

`LvmSound` says what the plan of a volume group must satisfy.  The program merges the layout entry
over the schema's record before it reads `originalBytes`, so an entry that carries this key replaces
the captured size; and `%` truncates, so a fixed size that is no integer passes the extent check.
`PlainEntries` excludes both.
-/

namespace Pxeos.Deploy

open Pxeos.Lib

/-- The capacity of the plan's group. -/
def LvmPlan.capacity (out : LvmPlan) : ℤ :=
  lvmCapacity out.pvBytes out.pv out.vg out.freeSpacePolicy

/-- **A plan that fits its group.**  The entries of the layout are joined by uuid. -/
structure LvmSound (ls : LvmSchema) (l : Layout) (out : LvmPlan) : Prop where
  group : ls.pvs = [out.pv] ∧ ls.vgs = [out.vg]
  order : out.volumes.map (·.toLvmLv) = out.vg.lvs
  total : (out.pv.peStartBytes : ℚ) + (out.volumes.map (·.resolvedBytes)).sum +
    keptFreeBytes out.vg out.freeSpacePolicy ≤
    out.pvBytes
  capacity : (out.volumes.map (·.resolvedBytes)).sum ≤ (out.capacity : ℚ)
  minimum : ∀ a ∈ out.volumes, (a.minBytes : ℚ) ≤ a.resolvedBytes
  fixed : ∀ a ∈ out.volumes, ∀ g ∈ l.lvm, ∀ v ∈ g.volumes, v.uuid = a.uuid →
    v.modeIs .fixed = true →
    v.fixedBytes = .value a.resolvedBytes ∧ ∃ k : ℤ, a.resolvedBytes = k * out.vg.extentBytes
  original : ∀ a ∈ out.volumes, ∀ g ∈ l.lvm, ∀ v ∈ g.volumes, v.uuid = a.uuid →
    v.modeIs .original = true →
    a.resolvedBytes = a.originalBytes
  oneRemaining : ∀ g ∈ l.lvm, (g.volumes.filter (·.modeIs .remaining)).length ≤ 1
  remaining : ∀ a ∈ out.volumes, ∀ g ∈ l.lvm, ∀ v ∈ g.volumes, v.uuid = a.uuid →
    v.modeIs .remaining = true →
    (∃ k : ℤ, a.resolvedBytes = k * out.vg.extentBytes) ∧
      ∀ k : ℤ, (out.volumes.map (·.resolvedBytes)).sum - a.resolvedBytes + k * out.vg.extentBytes ≤
        (out.capacity : ℚ) → (k * out.vg.extentBytes : ℚ) ≤ a.resolvedBytes

/-- No entry in mode `original` replaces the captured size, and every fixed size is an integer. -/
def PlainEntries (ls : LvmSchema) (l : Layout) : Prop :=
  ∀ vg ∈ ls.vgs, ∀ lv ∈ vg.lvs, ∀ g ∈ l.lvm, ∀ v ∈ g.volumes, v.uuid = lv.uuid →
    (v.modeIs .original = true → v.originalBytes = .absent ∨
      v.originalBytes = .value (lv.originalBytes : ℚ)) ∧
    (v.modeIs .fixed = true → ∀ b, v.fixedBytes = .value b → ∃ n : ℤ, b = n)

/-! ### The items -/

/-- The item of a volume and the checks it has passed. -/
structure LvItemChecks (vg : LvmVg) (plan : LayoutGroup) (lv : LvmLv) (it : LvItem) : Prop where
  lv_eq : it.lv = lv
  entry : plan.volumes.filter (·.uuid == lv.uuid) = [it.v]
  mode : it.v.modeIs .original = true ∨ it.v.modeIs .fixed = true ∨ it.v.modeIs .remaining = true
  fixed : it.v.modeIs .fixed = true → ∃ b, it.v.fixedBytes = .value b ∧
    ⌊b⌋ % (vg.extentBytes : ℤ) = 0

lemma mkLvItem_ok {vg : LvmVg} {plan : LayoutGroup} {lv : LvmLv} {it : LvItem}
    (h : mkLvItem vg plan lv = .ok it) :
    LvItemChecks vg plan lv it := by
  simp only [mkLvItem, bind_eq_ok, exactlyOne_eq_ok, errorIf_eq_ok, pure_eq_ok] at h
  obtain ⟨v, hv, -, h1, -, -, -, -, -, h2, -, -, rfl⟩ := h
  rw [Bool.not_eq_false', Bool.or_eq_true, Bool.or_eq_true, or_assoc] at h1
  refine ⟨rfl, hv, h1, fun hf => ?_⟩
  have hf : v.modeIs .fixed = true := hf
  have hok : fixedBytesOk lv v vg.extentBytes = true := by simpa [hf] using h2
  unfold fixedBytesOk at hok
  cases hb : v.fixedBytes with
  | value b =>
    simp only [hb, Bool.and_eq_true, decide_eq_true_eq] at hok
    exact ⟨b, rfl, hok.2⟩
  | absent => simp [hb] at hok
  | illTyped => simp [hb] at hok

lemma modeIs_unique {v : LayoutVolume} {m m' : Mode} (h : v.modeIs m = true)
    (h' : v.modeIs m' = true) : m = m' := by
  unfold LayoutVolume.modeIs at h h'
  rw [beq_iff_eq] at h h'
  rw [h] at h'
  exact DocField.value.inj h'

/-- The only entry with the uuid of an item is the item's. -/
lemma LvItemChecks.unique {vg : LvmVg} {plan : LayoutGroup} {lv : LvmLv} {it : LvItem}
    (h : LvItemChecks vg plan lv it) {v : LayoutVolume} (hv : v ∈ plan.volumes)
    (hu : v.uuid = lv.uuid) : v = it.v := by
  have hmem : v ∈ plan.volumes.filter (·.uuid == lv.uuid) := List.mem_filter.mpr ⟨hv, by simp [hu]⟩
  rw [h.entry] at hmem
  simpa using hmem

lemma LvItemChecks.entry_mem {vg : LvmVg} {plan : LayoutGroup} {lv : LvmLv} {it : LvItem}
    (h : LvItemChecks vg plan lv it) : it.v ∈ plan.volumes ∧ it.v.uuid = lv.uuid := by
  have hmem : it.v ∈ plan.volumes.filter (·.uuid == lv.uuid) := by rw [h.entry]; simp
  simpa using List.mem_filter.mp hmem

lemma mkLvItems_ok {vg : LvmVg} {plan : LayoutGroup} {lvs : List LvmLv} {items : List LvItem}
    (h : lvs.mapM (mkLvItem vg plan) = .ok items) :
    items.map (·.lv) = lvs ∧ ∀ it ∈ items, LvItemChecks vg plan it.lv it := by
  have h2 := mapM_ok h
  clear h
  induction h2 with
  | nil => simp
  | @cons lv it lvs items hx _ ih =>
    have hx := mkLvItem_ok hx
    refine ⟨by rw [List.map_cons, ih.1, hx.lv_eq], fun it' hit' => ?_⟩
    rcases List.mem_cons.mp hit' with rfl | hit'
    · rw [hx.lv_eq]; exact hx
    · exact ih.2 it' hit'

/-! ### The volumes -/

/-- The volume of an item with its bytes. -/
def resolvedVolume (capacity : ℤ) (used : ℚ) (extent : ℕ) (x : LvItem × ℚ) : ResolvedLv :=
  { x.1.lv with resolvedBytes := volumeBytes capacity used extent x.1 x.2 }

/-- What `resolveVolumes` has computed: the items with their bytes before the remaining one is
filled. -/
structure Volumes (capacity : ℤ) (extent : ℕ) (items : List LvItem)
    (volumes : List ResolvedLv) where
  pre : List (LvItem × ℚ)
  items_eq : pre.map (·.1) = items
  bytes : ∀ x ∈ pre, modebytes x.1 = .ok x.2
  volumes_eq : volumes = pre.map (resolvedVolume capacity (pre.map (·.2)).sum extent)
  minimum : ∀ a ∈ volumes, (a.minBytes : ℚ) ≤ a.resolvedBytes
  total : (volumes.map (·.resolvedBytes)).sum ≤ (capacity : ℚ)

lemma mapM_pre {items : List LvItem} {pre : List (LvItem × ℚ)}
    (h : items.mapM (fun it => do pure (it, ← modebytes it)) = .ok pre) :
    pre.map (·.1) = items ∧ ∀ x ∈ pre, modebytes x.1 = .ok x.2 := by
  have h2 := mapM_ok h
  clear h
  induction h2 with
  | nil => simp
  | @cons it x items pre hx _ ih =>
    rw [bind_eq_ok] at hx
    obtain ⟨b, hb, hx⟩ := hx
    rw [pure_eq_ok] at hx
    subst hx
    refine ⟨by rw [List.map_cons, ih.1], fun y hy => ?_⟩
    rcases List.mem_cons.mp hy with rfl | hy
    · exact hb
    · exact ih.2 y hy

lemma mapM_entries {α : Type} {f : α → ResolvedLv} {xs : List α} {ys : List ResolvedLv}
    (h : xs.mapM (fun x => do
      errorIf (decide ((f x).resolvedBytes < (f x).minBytes)) "lvm minimum"
      pure (f x)) = .ok ys) :
    ys = xs.map f ∧ ∀ a ∈ ys, (a.minBytes : ℚ) ≤ a.resolvedBytes := by
  have h2 := mapM_ok h
  clear h
  induction h2 with
  | nil => simp
  | @cons x y xs ys hx _ ih =>
    rw [bind_eq_ok] at hx
    obtain ⟨u, hu, hx⟩ := hx
    rw [errorIf_eq_ok, decide_eq_false_iff_not, not_lt] at hu
    rw [pure_eq_ok] at hx
    subst hx
    refine ⟨by rw [List.map_cons, ← ih.1], fun a ha => ?_⟩
    rcases List.mem_cons.mp ha with rfl | ha
    · exact hu
    · exact ih.2 a ha

theorem resolveVolumes_ok {capacity : ℤ} {extent : ℕ} {items : List LvItem}
    {volumes : List ResolvedLv} (h : resolveVolumes capacity extent items = .ok volumes) :
    Nonempty (Volumes capacity extent items volumes) := by
  simp only [resolveVolumes, bind_eq_ok, errorIf_eq_ok, decide_eq_false_iff_not, not_lt] at h
  obtain ⟨pre, hpre, -, -, vols, hvols, -, htotal, h⟩ := h
  rw [pure_eq_ok] at h
  subst h
  obtain ⟨hitems, hbytes⟩ := mapM_pre (by simpa only [bind_eq_ok] using hpre)
  obtain ⟨hveq, hmin⟩ := mapM_entries (f := fun x : LvItem × ℚ =>
    { x.1.lv with resolvedBytes := volumeBytes capacity (pre.map (·.2)).sum extent x.1 x.2 }) hvols
  exact ⟨⟨pre, hitems, hbytes, hveq, hmin, htotal⟩⟩

/-! ### The bytes of a volume -/

lemma modebytes_original {it : LvItem} {b : ℚ} (hm : it.v.modeIs .original = true)
    (h : modebytes it = .ok b) :
    (it.v.originalBytes = .absent ∧ b = it.lv.originalBytes) ∨ it.v.originalBytes = .value b := by
  unfold modebytes at h
  rw [if_pos hm] at h
  cases hb : it.v.originalBytes with
  | absent =>
    rw [hb] at h
    exact .inl ⟨rfl, (Except.ok.inj h).symm⟩
  | value c =>
    rw [hb] at h
    exact .inr (congrArg _ (Except.ok.inj h))
  | illTyped => simp [hb] at h

lemma not_modeIs {v : LayoutVolume} {m m' : Mode} (h : v.modeIs m = true) (hne : m ≠ m') :
    v.modeIs m' = false := by
  rw [← Bool.not_eq_true]
  exact fun h' => hne (modeIs_unique h h')

lemma modebytes_fixed {it : LvItem} {b : ℚ} (hm : it.v.modeIs .fixed = true)
    (h : modebytes it = .ok b) :
    b = it.v.fixedBytes.get?.getD 0 := by
  unfold modebytes at h
  rw [if_neg (by rw [not_modeIs hm (by decide)]; simp), if_pos hm] at h
  exact (Except.ok.inj h).symm

lemma modebytes_remaining {it : LvItem} {b : ℚ} (hm : it.v.modeIs .remaining = true)
    (h : modebytes it = .ok b) :
    b = 0 := by
  unfold modebytes at h
  rw [if_neg (by rw [not_modeIs hm (by decide)]; simp),
    if_neg (by rw [not_modeIs hm (by decide)]; simp)] at h
  exact (Except.ok.inj h).symm

/-- The free extents, in bytes. -/
def freeExtents (capacity : ℤ) (used : ℚ) (extent : ℕ) : ℚ :=
  ⌊((capacity : ℚ) - used) / extent⌋ * extent

lemma volumeBytes_remaining {capacity : ℤ} {used b : ℚ} {extent : ℕ} {it : LvItem}
    (hm : it.v.modeIs .remaining = true) :
    volumeBytes capacity used extent it b = freeExtents capacity used extent :=
  if_pos hm

lemma volumeBytes_other {capacity : ℤ} {used b : ℚ} {extent : ℕ} {it : LvItem}
    (hm : it.v.modeIs .remaining = false) : volumeBytes capacity used extent it b = b :=
  if_neg (by rw [hm]; simp)

/-- The remaining volume has no bytes before it is filled, so that it adds its share to the sum. -/
lemma sum_volumeBytes (capacity : ℤ) (used : ℚ) (extent : ℕ) {pre : List (LvItem × ℚ)}
    (h : ∀ x ∈ pre, modebytes x.1 = .ok x.2) :
    (pre.map fun x => volumeBytes capacity used extent x.1 x.2).sum =
      (pre.map (·.2)).sum + (pre.filter (·.1.v.modeIs .remaining)).length *
        freeExtents capacity used extent := by
  induction pre with
  | nil => simp
  | cons x pre ih =>
    have ih := ih fun y hy => h y (List.mem_cons_of_mem _ hy)
    rw [List.map_cons, List.sum_cons, List.map_cons, List.sum_cons, ih]
    cases hm : x.1.v.modeIs .remaining with
    | true =>
      have hx := modebytes_remaining hm (h x List.mem_cons_self)
      rw [volumeBytes_remaining hm, List.filter_cons, if_pos hm, List.length_cons, hx]
      push_cast
      ring
    | false =>
      rw [volumeBytes_other hm, List.filter_cons, if_neg (by rw [hm]; simp)]
      ring

/-- The free extents are the largest multiple that fits. -/
lemma le_freeExtents {capacity : ℤ} {used : ℚ} {extent : ℕ} (he : 0 < extent) {k : ℤ}
    (h : used + k * extent ≤ (capacity : ℚ)) :
    (k * extent : ℚ) ≤ freeExtents capacity used extent := by
  have he' : (0 : ℚ) < extent := by exact_mod_cast he
  have hk : k ≤ ⌊((capacity : ℚ) - used) / extent⌋ := by
    rw [Int.le_floor, le_div_iff₀ he']
    linarith
  have hk' : (k : ℚ) ≤ (⌊((capacity : ℚ) - used) / extent⌋ : ℤ) := by exact_mod_cast hk
  exact mul_le_mul_of_nonneg_right hk' he'.le

/-- The capacity is what the physical volume has left, rounded down. -/
lemma lvmCapacity_le {pvBytes : ℕ} {pv : LvmPv} {vg : LvmVg} {policy : FreeSpacePolicy}
    (he : 0 < vg.extentBytes) :
    (lvmCapacity pvBytes pv vg policy : ℚ) ≤ pvBytes - pv.peStartBytes -
      keptFreeBytes vg policy := by
  have he' : (0 : ℚ) < vg.extentBytes := by exact_mod_cast he
  have hfloor :=
    Int.floor_le
      ((((pvBytes : ℤ) - pv.peStartBytes - keptFreeBytes vg policy : ℤ) : ℚ) / vg.extentBytes)
  rw [le_div_iff₀ he'] at hfloor
  unfold lvmCapacity
  push_cast at hfloor ⊢
  linarith

/-! ### A successful run -/

/-- What a successful run has computed. -/
structure LvmRun (ls : LvmSchema) (l : Layout) (out : LvmPlan) where
  plan : LayoutGroup
  items : List LvItem
  pvs : ls.pvs = [out.pv]
  vgs : ls.vgs = [out.vg]
  lvm : l.lvm = [plan]
  oneRemaining : (plan.volumes.filter (·.modeIs .remaining)).length ≤ 1
  extent : 0 < out.vg.extentBytes
  lvs : items.map (·.lv) = out.vg.lvs
  checks : ∀ it ∈ items, LvItemChecks out.vg plan it.lv it
  oneItem : (items.filter (·.v.modeIs .remaining)).length ≤ 1
  vols : Volumes out.capacity out.vg.extentBytes items out.volumes

lemma lvmTopology_ok {ls : LvmSchema} {l : Layout} {i : LvmInput} (h : lvmTopology ls l = .ok i) :
    ls.pvs = [i.pv] ∧ ls.vgs = [i.vg] ∧ l.lvm = [i.plan] ∧
    (i.plan.volumes.filter (·.modeIs .remaining)).length ≤ 1 := by
  simp only [lvmTopology, bind_eq_ok, exactlyOne_eq_ok, errorIf_eq_ok, pure_eq_ok] at h
  obtain ⟨-, -, pv, hpv, vg, hvg, plan, hplan, -, hrem, _, -, -, -, -, -, -, -, rfl⟩ := h
  exact ⟨hpv, hvg, hplan, by simpa using hrem⟩

theorem resolveLvm_ok {s : Schema} {ls : LvmSchema} {l : Layout} {parts : List ResolvedPart}
    {out : LvmPlan} (h : resolveLvm s ls l parts = .ok out) : Nonempty (LvmRun ls l out) := by
  simp only [resolveLvm, bind_eq_ok, errorIf_eq_ok, pure_eq_ok] at h
  obtain ⟨i, hi, pvBytes, -, -, hext, -, -, items, hitems, -, hone, -, -, volumes, hvols, rfl⟩ := h
  obtain ⟨hpv, hvg, hlvm, hrem⟩ := lvmTopology_ok hi
  obtain ⟨hlvs, hchecks⟩ := mkLvItems_ok hitems
  obtain ⟨vols⟩ := resolveVolumes_ok hvols
  exact ⟨⟨i.plan, items, hpv, hvg, hlvm, hrem, Nat.pos_of_ne_zero (by simpa using hext), hlvs,
    hchecks,
    by simpa using hone, vols⟩⟩

theorem validateLvmDeploymentLayoutSingle_ok {s : Schema} {ls : LvmSchema} {l : Layout}
    {parts : List ResolvedPart} {out : LvmPlan} (hs : s.lvm = some ls)
    (h : validateLvmDeploymentLayoutSingle s l parts = .ok (some out)) :
    Nonempty (LvmRun ls l out) := by
  simp only [validateLvmDeploymentLayoutSingle, hs, bind_eq_ok, pure_eq_ok] at h
  obtain ⟨-, -, plan, hplan, heq⟩ := h
  obtain rfl := Option.some.inj heq
  exact resolveLvm_ok hplan

section Run

variable {ls : LvmSchema} {l : Layout} {out : LvmPlan} (r : LvmRun ls l out)

/-- The bytes the plan has before the remaining volume is filled. -/
def LvmRun.used : ℚ := (r.vols.pre.map (·.2)).sum

/-- The volume of an item in this run. -/
def LvmRun.resolved (x : LvItem × ℚ) : ResolvedLv :=
  resolvedVolume out.capacity r.used out.vg.extentBytes x

lemma LvmRun.volumes_eq : out.volumes = r.vols.pre.map r.resolved := r.vols.volumes_eq

lemma LvmRun.pre_checks {x : LvItem × ℚ} (hx : x ∈ r.vols.pre) :
    LvItemChecks out.vg r.plan x.1.lv x.1 := by
  refine r.checks x.1 ?_
  rw [← r.vols.items_eq]
  exact List.mem_map_of_mem hx

/-- Every volume of the plan comes from an item, and its entry is the only one with its uuid. -/
lemma LvmRun.volume {a : ResolvedLv} (ha : a ∈ out.volumes) {g : LayoutGroup} (hg : g ∈ l.lvm)
    {v : LayoutVolume} (hv : v ∈ g.volumes) (hu : v.uuid = a.uuid) :
    ∃ x ∈ r.vols.pre, a = r.resolved x ∧ v = x.1.v := by
  rw [r.volumes_eq] at ha
  obtain ⟨x, hx, rfl⟩ := List.mem_map.mp ha
  rw [r.lvm, List.mem_singleton] at hg
  subst hg
  exact ⟨x, hx, rfl, (r.pre_checks hx).unique hv hu⟩

/-- Every logical volume of the group has its volume in the plan. -/
lemma LvmRun.volume_of_lv {lv : LvmLv} (hlv : lv ∈ out.vg.lvs) :
    ∃ x ∈ r.vols.pre, x.1.lv = lv ∧ r.resolved x ∈ out.volumes := by
  rw [← r.lvs, ← r.vols.items_eq, List.map_map] at hlv
  obtain ⟨x, hx, rfl⟩ := List.mem_map.mp hlv
  refine ⟨x, hx, rfl, ?_⟩
  rw [r.volumes_eq]
  exact List.mem_map_of_mem hx

include r in
lemma LvmRun.order : out.volumes.map (·.toLvmLv) = out.vg.lvs := by
  calc out.volumes.map (·.toLvmLv) = (r.vols.pre.map r.resolved).map (·.toLvmLv) :=
    congrArg _ r.volumes_eq
    _ = (r.vols.pre.map (·.1)).map (·.lv) := by rw [List.map_map, List.map_map]; rfl
    _ = out.vg.lvs := by rw [r.vols.items_eq, r.lvs]

include r in
lemma LvmRun.total : (out.pv.peStartBytes : ℚ) + (out.volumes.map (·.resolvedBytes)).sum +
    keptFreeBytes out.vg out.freeSpacePolicy ≤ out.pvBytes := by
  have hsum := r.vols.total
  have hcap : (out.capacity : ℚ) ≤ out.pvBytes - out.pv.peStartBytes -
      keptFreeBytes out.vg out.freeSpacePolicy :=
    lvmCapacity_le r.extent
  linarith

/-- The volumes that are not the remaining one have the bytes used. -/
lemma LvmRun.sum_eq {x : LvItem × ℚ} (hx : x ∈ r.vols.pre) (hm : x.1.v.modeIs .remaining = true) :
    (out.volumes.map (·.resolvedBytes)).sum =
      r.used + freeExtents out.capacity r.used out.vg.extentBytes := by
  have hone : (r.vols.pre.filter (·.1.v.modeIs .remaining)).length = 1 := by
    have hle := r.oneItem
    rw [← r.vols.items_eq, List.filter_map, List.length_map] at hle
    have hpos : 0 < (r.vols.pre.filter (·.1.v.modeIs .remaining)).length :=
      List.length_pos_of_mem (List.mem_filter.mpr ⟨hx, hm⟩)
    exact le_antisymm hle hpos
  have hmap : out.volumes.map (·.resolvedBytes) =
      r.vols.pre.map fun x => volumeBytes out.capacity r.used out.vg.extentBytes x.1 x.2 := by
    conv_lhs => rw [r.volumes_eq, List.map_map]
    rfl
  rw [hmap, sum_volumeBytes out.capacity r.used out.vg.extentBytes r.vols.bytes, hone,
    Nat.cast_one, one_mul]
  rfl

lemma LvmRun.remaining {x : LvItem × ℚ} (hx : x ∈ r.vols.pre)
    (hm : x.1.v.modeIs .remaining = true) :
    (∃ k : ℤ, (r.resolved x).resolvedBytes = k * out.vg.extentBytes) ∧
      ∀ k : ℤ, (out.volumes.map (·.resolvedBytes)).sum - (r.resolved x).resolvedBytes +
        k * out.vg.extentBytes ≤
        (out.capacity : ℚ) → (k * out.vg.extentBytes : ℚ) ≤ (r.resolved x).resolvedBytes := by
  have hbytes : (r.resolved x).resolvedBytes = freeExtents out.capacity r.used out.vg.extentBytes :=
    volumeBytes_remaining hm
  refine ⟨⟨_, hbytes⟩, fun k hk => ?_⟩
  rw [hbytes] at hk ⊢
  rw [r.sum_eq hx hm, add_sub_cancel_right] at hk
  exact le_freeExtents r.extent hk

/-- A volume in mode `original` has the captured size exactly when its entry does not carry another
one. -/
lemma LvmRun.original_iff {x : LvItem × ℚ} (hx : x ∈ r.vols.pre)
    (hm : x.1.v.modeIs .original = true) :
    (r.resolved x).resolvedBytes = x.1.lv.originalBytes ↔
      x.1.v.originalBytes = .absent ∨ x.1.v.originalBytes = .value (x.1.lv.originalBytes : ℚ) := by
  have hbytes : (r.resolved x).resolvedBytes = x.2 := volumeBytes_other (not_modeIs hm (by decide))
  rw [hbytes]
  rcases modebytes_original hm (r.vols.bytes x hx) with ⟨habs, hb⟩ | hval
  · exact ⟨fun _ => .inl habs, fun _ => hb⟩
  · rw [hval]
    simp

/-- A volume in mode `fixed` has its fixed size, and this is a multiple of the extent exactly when
it is an integer. -/
lemma LvmRun.fixed_iff {x : LvItem × ℚ} (hx : x ∈ r.vols.pre) (hm : x.1.v.modeIs .fixed = true) :
    x.1.v.fixedBytes = .value (r.resolved x).resolvedBytes ∧
      ((∃ k : ℤ, (r.resolved x).resolvedBytes = k * out.vg.extentBytes) ↔
        ∃ n : ℤ, (r.resolved x).resolvedBytes = n) := by
  obtain ⟨b, hb, hmod⟩ := (r.pre_checks hx).fixed hm
  have hbytes : (r.resolved x).resolvedBytes = b := by
    have hother : (r.resolved x).resolvedBytes = x.2 :=
      volumeBytes_other (not_modeIs hm (by decide))
    rw [hother, modebytes_fixed hm (r.vols.bytes x hx), hb]
    rfl
  rw [hbytes]
  refine ⟨hb, fun ⟨k, hk⟩ => ⟨k * out.vg.extentBytes, by rw [hk]; push_cast; rfl⟩,
    fun ⟨n, hn⟩ => ?_⟩
  subst hn
  rw [Int.floor_intCast] at hmod
  obtain ⟨k, rfl⟩ := Int.dvd_of_emod_eq_zero hmod
  exact ⟨k, by push_cast; ring⟩

end Run

/-! ### The main result -/

lemma LvmRun.sound {ls : LvmSchema} {l : Layout} {out : LvmPlan} (r : LvmRun ls l out)
    (hp : PlainEntries ls l) :
    LvmSound ls l out := by
  have hplain : ∀ x ∈ r.vols.pre, (x.1.v.modeIs .original = true →
        x.1.v.originalBytes = .absent ∨ x.1.v.originalBytes = .value (x.1.lv.originalBytes : ℚ)) ∧
      (x.1.v.modeIs .fixed = true → ∀ b, x.1.v.fixedBytes = .value b → ∃ n : ℤ, b = n) := by
    intro x hx
    have hlv : x.1.lv ∈ out.vg.lvs := by
      rw [← r.lvs, ← r.vols.items_eq, List.map_map]
      exact List.mem_map.mpr ⟨x, hx, rfl⟩
    obtain ⟨hv, hu⟩ := (r.pre_checks hx).entry_mem
    exact hp out.vg (by rw [r.vgs]; simp) x.1.lv hlv r.plan (by rw [r.lvm]; simp) x.1.v hv hu
  refine
    { group := ⟨r.pvs, r.vgs⟩
      order := r.order
      total := r.total
      capacity := r.vols.total
      minimum := r.vols.minimum
      fixed := fun a ha g hg v hv hu hm => ?_
      original := fun a ha g hg v hv hu hm => ?_
      oneRemaining := fun g hg => ?_
      remaining := fun a ha g hg v hv hu hm => ?_ }
  · obtain ⟨x, hx, rfl, rfl⟩ := r.volume ha hg hv hu
    obtain ⟨hval, hiff⟩ := r.fixed_iff hx hm
    exact ⟨hval, hiff.mpr ((hplain x hx).2 hm _ hval)⟩
  · obtain ⟨x, hx, rfl, rfl⟩ := r.volume ha hg hv hu
    exact (r.original_iff hx hm).mpr ((hplain x hx).1 hm)
  · rw [r.lvm, List.mem_singleton] at hg
    subst hg
    exact r.oneRemaining
  · obtain ⟨x, hx, rfl, rfl⟩ := r.volume ha hg hv hu
    exact r.remaining hx hm

lemma LvmRun.plain {ls : LvmSchema} {l : Layout} {out : LvmPlan} (r : LvmRun ls l out)
    (hs : LvmSound ls l out) :
    PlainEntries ls l := by
  intro vg hvg lv hlv g hg v hv hu
  rw [r.vgs, List.mem_singleton] at hvg
  subst hvg
  obtain ⟨x, hx, rfl, hmem⟩ := r.volume_of_lv hlv
  obtain rfl : v = x.1.v := by
    rw [r.lvm, List.mem_singleton] at hg
    subst hg
    exact (r.pre_checks hx).unique hv hu
  refine ⟨fun hm => (r.original_iff hx hm).mp (hs.original _ hmem g hg _ hv hu hm),
    fun hm b hb => ?_⟩
  obtain ⟨hval, hmul⟩ := hs.fixed _ hmem g hg _ hv hu hm
  obtain rfl : (r.resolved x).resolvedBytes = b := DocField.value.inj (hval.symm.trans hb)
  exact (r.fixed_iff hx hm).2.mp hmul

/-- **When the resolved group is sound.**  Of the plans the resolver accepts, those are sound whose
entries are plain. -/
theorem validateLvmDeploymentLayoutSingle_sound_iff (s : Schema) (ls : LvmSchema) (l : Layout)
    (parts : List ResolvedPart) (out : LvmPlan) (hs : s.lvm = some ls)
    (h : validateLvmDeploymentLayoutSingle s l parts = .ok (some out)) :
    LvmSound ls l out ↔ PlainEntries ls l := by
  obtain ⟨r⟩ := validateLvmDeploymentLayoutSingle_ok hs h
  exact ⟨r.plain, r.sound⟩

/-! ### A group of one volume -/

/-- The captured root volume: two extents of one MiB, one of them used. -/
def rootLv : LvmLv :=
  ⟨"root-uuid", "root", "ext4", .data, true, some "d1p1.lv1.img", none, 2097152, 1048576⟩

/-- The group of the root volume, with one free extent. -/
def rootGroup : LvmSchema :=
  ⟨1, "per_lv", "grow_only", [⟨1, "pv-uuid", "vg-uuid", 4194304, 2097152, 1048576⟩],
    [⟨"vg-uuid", "vg0", [1], 1048576, 1048576, [rootLv]⟩]⟩

/-- The partition of the physical volume. -/
def pvPart : SchemaPart :=
  ⟨1, 2048, 8192, 4096, "e6d6d379-f507-44c2-a23c-238f2a3df928", .lvmPv, true, "LVM2_member",
    none, none, none,
    some .primary, none, none⟩

/-- A GPT disk with the physical volume as its only partition. -/
def lvmSchema : Schema := ⟨2, .gpt, 6291456, 512, [pvPart], some rootGroup⟩

/-- The group's only volume kept, with what its entry says about `originalBytes`. -/
def keptVolume (originalBytes : DocField ℚ) : Layout :=
  ⟨some [⟨1, .value .original, .absent, .absent⟩],
    [⟨1, .preserveOriginal, [⟨"root-uuid", .value .original, .absent, originalBytes, .absent⟩]⟩]⟩

/-- The plan of the kept volume. -/
def keptPlan (bytes : ℚ) : LvmPlan :=
  ⟨⟨1, "pv-uuid", "vg-uuid", 4194304, 2097152, 1048576⟩,
    ⟨"vg-uuid", "vg0", [1], 1048576, 1048576, [rootLv]⟩,
    4194304, .preserveOriginal, [{ rootLv with resolvedBytes := bytes }]⟩

/-- An entry in mode `original` with an `originalBytes` of its own is resolved to this size. -/
theorem keptVolume_shadowed :
    validateLvmDeploymentLayoutSingle lvmSchema (keptVolume (.value 1048576))
      [pvPart.placed 2048 8192] =
      .ok (some (keptPlan 1048576)) ∧ ¬ LvmSound rootGroup (keptVolume (.value 1048576))
        (keptPlan 1048576) := by
  refine ⟨by decide +kernel, fun h => ?_⟩
  have hbytes :=
    h.original { rootLv with resolvedBytes := 1048576 } (by decide +kernel) _ List.mem_cons_self _
    List.mem_cons_self rfl (by decide)
  norm_num [rootLv] at hbytes

/-- An entry without the key is resolved to the captured size. -/
theorem keptVolume_plain_sound :
    validateLvmDeploymentLayoutSingle lvmSchema (keptVolume .absent) [pvPart.placed 2048 8192] =
      .ok (some (keptPlan 2097152)) ∧
      LvmSound rootGroup (keptVolume .absent) (keptPlan 2097152) := by
  have hok : validateLvmDeploymentLayoutSingle lvmSchema (keptVolume .absent)
      [pvPart.placed 2048 8192] =
      .ok (some (keptPlan 2097152)) := by decide +kernel
  refine ⟨hok, (validateLvmDeploymentLayoutSingle_sound_iff _ _ _ _ _ rfl hok).mpr ?_⟩
  intro vg hvg lv hlv g hg v hv _
  obtain rfl := List.mem_singleton.mp hg
  obtain rfl := List.mem_singleton.mp hv
  exact ⟨fun _ => .inl rfl, fun hm => by cases hm⟩

end Pxeos.Deploy
