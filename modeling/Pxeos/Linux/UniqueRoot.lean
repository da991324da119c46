import Pxeos.Linux.RootSearch

/-!
# The only root of a disk

What the search for the root filesystem should establish: every partition of the disk, and every
logical volume of the groups that lie on it, has been examined, and there is one root among them.
The status 0 says so unless something was passed over without a failed probe: a device whose type is
not known, a mount that fails, or a group that could not be examined.
-/

namespace Pxeos.Linux

open Pxeos.Lib

/-! ### What is on the disk -/

/-- The physical volumes of a group are on the disk. -/
def onDisk (h : Host) (vg : Vg) : Bool :=
  (h.physicalVolumes vg.uuid).all fun pv => pv ∈ h.permittedParts

/-- The roots that a device holds. -/
def deviceRoots (h : Host) (device : Str) (vg : Option Vg) : List Candidate :=
  match h.fsType device with
  | none => []
  | some fs => rootsOf h.toFilesystems device fs vg

/-- The roots on the logical volumes of a group that lies on the disk. -/
def groupRoots (h : Host) (vg : Vg) : List Candidate :=
  if onDisk h vg then (h.logicalVolumes vg.uuid).flatMap fun lv => deviceRoots h lv.path (some vg)
  else []

/-- The roots on the partitions and on the groups that lie on the disk. -/
def rootsOnDisk (h : Host) : List Candidate :=
  (h.partitions.flatMap fun part => deviceRoots h part none) ++
    (diskGroups h).flatMap (groupRoots h)

/-! ### What is examined -/

/-- A partition is examined: its group is reported, or its filesystem is probed. -/
def PartExamined (h : Host) (part : Str) : Prop :=
  ∃ fs, h.fsType part = some fs ∧ (fs = lvmMember → h.pvReport part = true) ∧
    (fs ≠ lvmMember → h.refuses fs = false ∧ Examined h.toFilesystems part fs)

/-- A group is examined: it is active, its logical volumes are reported, and each is probed. -/
structure GroupExamined (h : Host) (active : Activity) (vg : Vg) : Prop where
  activation : activationOf h active vg = .yes ∨ activationOf h active vg = .no
  file : h.searchFile vg = true
  report : h.lvsReport vg .search = true
  volumes : ∀ lv ∈ h.logicalVolumes vg.uuid, ∃ fs, h.fsType lv.path = some fs ∧
    Examined h.toFilesystems lv.path fs

/-- Nothing on the disk is passed over. -/
structure AllExamined (h : Host) (active : Activity) : Prop where
  parts : ∀ part ∈ h.partitions, PartExamined h part
  groups : ∀ vg ∈ diskGroups h, onDisk h vg = true → GroupExamined h active vg

/-- The status 0 comes with the only root of the disk. -/
def UniqueRoot (h : Host) (active : Activity) (r : SearchOutcome) : Prop :=
  r.status = 0 → AllExamined h active ∧ ∃ c, r.printed = some c ∧ rootsOnDisk h = [c]

/-! ### An examined disk shows its roots -/

lemma rootsOf_lvmMember (h : Filesystems) (device : Str) (vg : Option Vg) :
    rootsOf h device lvmMember vg = [] := by
  unfold rootsOf
  rw [if_pos (by decide)]

lemma partResult_of_examined {h : Host} {part : Str} (he : PartExamined h part) :
    partResult h part = (deviceRoots h part none, false) := by
  obtain ⟨fs, hfs, -, hrest⟩ := he
  unfold partResult deviceRoots
  rw [hfs]
  dsimp only
  by_cases hpv : fs = lvmMember
  · rw [hpv, refuses_lvmMember, if_neg Bool.false_ne_true, if_pos rfl, rootsOf_lvmMember]
  · obtain ⟨hr, hex⟩ := hrest hpv
    rw [hr, if_neg Bool.false_ne_true, if_neg hpv, examine_of_examined none hex]

lemma gather_of_examined {ι : Type} {f : ι → List Candidate × Bool} {roots : ι → List Candidate}
    {l : List ι} (h : ∀ i ∈ l, f i = (roots i, false)) :
    gather (l.map f) = (l.flatMap roots, false) := by
  induction l with
  | nil => rfl
  | cons i l ih =>
    rw [List.map_cons, gather_cons, h i List.mem_cons_self,
      ih fun j hj => h j (List.mem_cons_of_mem _ hj), List.flatMap_cons]
    rfl

lemma groupResult_of_examined {h : Host} {active : Activity} {vg : Vg} (hd : onDisk h vg = true)
    (he : GroupExamined h active vg) : groupResult h active vg = (groupRoots h vg, false) := by
  unfold groupResult volumesResult groupRoots
  rw [if_pos ⟨he.activation, he.file, he.report⟩, if_pos hd]
  refine gather_of_examined fun lv hlv => ?_
  obtain ⟨fs, hfs, hex⟩ := he.volumes lv hlv
  unfold deviceResult deviceRoots
  rw [hfs]
  exact examine_of_examined (some vg) hex

/-- A group that does not lie on the disk is passed over. -/
lemma groupResult_of_offDisk {h : Host} {active : Activity} {vg : Vg} (hd : onDisk h vg = false) :
    groupResult h active vg = (groupRoots h vg, false) := by
  have hv : validateVgTargetPvs h.toVolumeGroups vg = false := by
    unfold onDisk at hd
    unfold validateVgTargetPvs
    rw [hd, Bool.and_false]
  have hact : activationOf h active vg = .crossDisk := by
    unfold activationOf activateVgIfNeeded
    rw [if_pos hv]
  unfold groupResult volumesResult groupRoots
  rw [hact, hd, if_neg Bool.false_ne_true, if_neg]
  rintro ⟨hbad | hbad, -⟩
  · cases hbad
  · cases hbad

lemma visible_of_examined {h : Host} {active : Activity} (he : AllExamined h active) :
    visible h active = (rootsOnDisk h, false) := by
  have hparts := gather_of_examined fun part hpart => partResult_of_examined (he.parts part hpart)
  have hgroups : gather ((diskGroups h).map (groupResult h active)) =
      ((diskGroups h).flatMap (groupRoots h), false) := by
    refine gather_of_examined fun vg hvg => ?_
    cases hd : onDisk h vg with
    | true => exact groupResult_of_examined hd (he.groups vg hvg hd)
    | false => exact groupResult_of_offDisk hd
  unfold visible rootsOnDisk
  rw [gather_append, hparts, hgroups]
  rfl

/-! ### The status -/

lemma deactivateAll_status (h : Host) (vgs : List Vg) (r : Groups × ℕ) :
    (deactivateAll h vgs r).2 = if h.privateMount = true ∧ ∃ vg ∈ vgs, h.deactivates vg = false then
      23 else r.2 := by
  induction vgs generalizing r with
  | nil =>
    rw [if_neg (fun hbad => by obtain ⟨-, vg, hvg, -⟩ := hbad; exact List.not_mem_nil hvg)]; rfl
  | cons vg vgs ih =>
    obtain ⟨g, status⟩ := r
    rw [deactivateAll]
    dsimp only
    rw [ih]
    have hok : (h.changeAn vg g).1 = h.deactivates vg := rfl
    rw [hok]
    by_cases hrest : h.privateMount = true ∧ ∃ x ∈ vgs, h.deactivates x = false
    · obtain ⟨hp, x, hx, hd⟩ := hrest
      rw [if_pos ⟨hp, x, hx, hd⟩, if_pos ⟨hp, x, List.mem_cons_of_mem _ hx, hd⟩]
    · rw [if_neg hrest]
      refine if_congr ?_ rfl rfl
      constructor
      · exact fun hb => ⟨hb.2, vg, List.mem_cons_self, hb.1⟩
      · rintro ⟨hp, x, hx, hd⟩
        rcases List.mem_cons.mp hx with rfl | hx
        · exact ⟨hd, hp⟩
        · exact absurd ⟨hp, x, hx, hd⟩ hrest

lemma verdict_eq_zero {s : Search} :
    verdict s = 0 ↔ s.probeFailed = false ∧ s.candidates.length = 1 := by
  unfold verdict
  by_cases hf : s.probeFailed = true
  · rw [if_pos hf, hf]
    exact iff_of_false (by omega) fun hall => by cases hall.1
  · rw [if_neg hf]
    rw [Bool.not_eq_true] at hf
    split
    next hlen => exact iff_of_true rfl ⟨hf, hlen⟩
    next hlen =>
      rw [hlen]
      refine iff_of_false ?_ fun hall => by cases hall.2
      split_ifs <;> decide
    next hone _ => exact iff_of_false (by omega) fun hall => hone hall.2

/-- A group that the search activated cannot be deactivated, which a search with a mount point of
its own reports. -/
def CleanupFails (h : Host) (active : Activity) : Prop :=
  h.privateMount = true ∧ ∃ vg ∈ diskGroups h, activationOf h active vg = .yes ∧
    h.deactivates vg = false

/-- **The status 0**: no probe failed, the devices that were reached show one root, and the groups
were put back. -/
lemma status_eq_zero {h : Host} {active : Activity} :
    (findLinuxRootFilesystem h active).status = 0 ↔
    (visible h active).2 = false ∧ (visible h active).1.length = 1 ∧ ¬ CleanupFails h active := by
  obtain ⟨hcand, hfail, hacts⟩ := searchAll_eq h active
  unfold findLinuxRootFilesystem
  by_cases hparts : h.partitions = []
  · have hvis : visible h active = ([], false) := by
      unfold visible diskGroups
      rw [hparts]
      rfl
    rw [if_pos hparts, hvis]
    refine iff_of_false (by dsimp only; omega) ?_
    rintro ⟨-, hlen, -⟩
    cases hlen
  · have hclean :
        (h.privateMount = true ∧
          ∃ vg ∈ (diskGroups h).filter fun vg => activationOf h active vg = .yes,
        h.deactivates vg = false) ↔ CleanupFails h active := by
      unfold CleanupFails
      simp only [List.mem_filter, decide_eq_true_iff, and_assoc]
    rw [if_neg hparts]
    dsimp only
    rw [deactivateAll_status, hacts]
    have hverdict : verdict (searchAll h active) = 0 ↔ (visible h active).2 = false ∧
        (visible h active).1.length = 1 := by
      rw [verdict_eq_zero, hcand, hfail]
    by_cases hc : CleanupFails h active
    · rw [if_pos (hclean.mpr hc)]
      exact iff_of_false (by omega) fun hall => hall.2.2 hc
    · rw [if_neg fun hb => hc (hclean.mp hb), hverdict]
      exact ⟨fun hv => ⟨hv.1, hv.2, hc⟩, fun hv => ⟨hv.1, hv.2.1⟩⟩

lemma printed_eq {h : Host} {active : Activity}
    (hz : (findLinuxRootFilesystem h active).status = 0) :
    (findLinuxRootFilesystem h active).printed = (visible h active).1.getLast? := by
  obtain ⟨hcand, -, -⟩ := searchAll_eq h active
  unfold findLinuxRootFilesystem at hz ⊢
  by_cases hparts : h.partitions = []
  · rw [if_pos hparts] at hz
    cases hz
  · rw [if_neg hparts] at hz ⊢
    dsimp only at hz ⊢
    rw [if_pos hz, hcand]

/-- **The only root of the disk.**  The status 0 comes with it exactly if nothing on the disk is
passed over, or it is not given in any case: because a probe failed, because the devices that are
reached do not show one root, or because a group cannot be put back. -/
theorem findLinuxRootFilesystem_unique_iff (h : Host) (active : Activity) :
    UniqueRoot h active (findLinuxRootFilesystem h active) ↔
      AllExamined h active ∨ (visible h active).2 = true ∨ (visible h active).1.length ≠ 1 ∨
      CleanupFails h active := by
  constructor
  · intro hu
    by_cases hz : (findLinuxRootFilesystem h active).status = 0
    · exact .inl (hu hz).1
    · rw [status_eq_zero] at hz
      by_contra hall
      rw [not_or, not_or, not_or, Bool.not_eq_true, not_not] at hall
      exact hz hall.2
  · intro hcond hz
    obtain ⟨hfail, hlen, hclean⟩ := status_eq_zero.mp hz
    have he : AllExamined h active := by
      rcases hcond with he | hbad | hbad | hbad
      · exact he
      · rw [hfail] at hbad
        cases hbad
      · exact absurd hlen hbad
      · exact absurd hbad hclean
    have hvis := visible_of_examined he
    rw [hvis] at hlen
    dsimp only at hlen
    obtain ⟨c, hc⟩ := List.length_eq_one_iff.mp hlen
    refine ⟨he, c, ?_, hc⟩
    rw [printed_eq hz, hvis, hc]
    rfl

/-- A disk with a root on its first partition, and a group with the volumes `lvs` on its second
one. -/
def sampleHost (lvs : List Lv) (activates : Bool) : Host where
  privateMount := false
  cloudInit := false
  fsType d := if d = "/dev/sda2".toList then some lvmMember else some "ext4".toList
  mounting _ := ⟨true, false, true, true, true⟩
  etc _ := true
  marker _ := 0
  defaultSubvolid _ := none
  listMounting _ := ⟨true, false, true, true, true⟩
  subvolumes _ := none
  permittedParts := ["/dev/sda1".toList, "/dev/sda2".toList]
  partsKnown _ := true
  pvsReport _ := true
  physicalVolumes _ := ["/dev/sda2".toList]
  logicalVolumes _ := lvs
  rowsFile _ := true
  lvsReport _ _ := true
  activates _ := activates
  activated _ _ := activates
  readable _ := true
  deactivates _ := true
  kept _ _ := true
  partitions := ["/dev/sda1".toList, "/dev/sda2".toList]
  pvReport _ := true
  groupOf _ := some ⟨"vg0".toList, "uuid-0".toList⟩
  searchFile _ := true

def rootVolume : Lv := ⟨"root".toList, "/dev/vg0/root".toList, true, false, by decide⟩

/-- A group whose activation fails, beside a root on a partition. -/
theorem findLinuxRootFilesystem_notUnique :
    ¬ ∀ (h : Host) (active : Activity), UniqueRoot h active (findLinuxRootFilesystem h active) := by
  intro hall
  have hu := hall (sampleHost [rootVolume] false) fun _ _ => false
  obtain ⟨he, -⟩ := hu (by decide +kernel)
  have hg :=
    (he.groups ⟨"vg0".toList, "uuid-0".toList⟩ (by decide +kernel) (by decide +kernel)).activation
  exact absurd hg (by decide +kernel)

end Pxeos.Linux
