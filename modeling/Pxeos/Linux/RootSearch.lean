import Pxeos.Linux.VolumeGroup

/-!
# The search for the root filesystem

`rootpxe_find_linux_root_filesystem` of `funcs.sh`: every partition of a disk and every logical
volume of its volume groups is examined, the candidates are collected, and three flags say what has
failed.  A failed probe decides the status; a group that could not be examined only does so when
there is no candidate.
-/

namespace Pxeos.Linux

open Pxeos.Lib

/-! ### The search -/

/-- The disk, and how each command of the search ends. -/
structure Host extends Filesystems, VolumeGroups where
  /-- `getPartitions`. -/
  partitions : List Str
  /-- The report of a physical volume, and the file for its rows. -/
  pvReport : Str → Bool
  groupOf : Str → Option Vg
  /-- `mktemp` for the rows of the logical volumes. -/
  searchFile : Vg → Bool

/-- The variables of the search. -/
structure Search where
  groups : Groups
  lvmParts : List Str
  seen : List Str
  activated : List Vg
  candidates : List Candidate
  probeFailed : Bool
  crossDisk : Bool
  lvmFailed : Bool

/-- The candidates of a device, and the failure of a probe. -/
def Search.add (s : Search) (r : List Candidate × Bool) : Search :=
  { s with candidates := s.candidates ++ r.1, probeFailed := s.probeFailed || r.2 }

def lvmMember : Str := "LVM2_member".toList

/-- The filesystems that are not probed for cloud-init. -/
def Filesystems.refuses (h : Filesystems) (fs : Str) : Bool :=
  h.cloudInit && (fs = btrfs || fs = "f2fs".toList)

/-- The loop over the partitions. -/
def partitionStep (h : Host) (s : Search) (part : Str) : Search :=
  match h.fsType part with
  | none => s
  | some fs =>
    if h.refuses fs then { s with probeFailed := true }
    else if fs = lvmMember then { s with lvmParts := s.lvmParts ++ [part] }
    else s.add (examine h.toFilesystems part fs none)

/-- The loop over the rows of the logical volumes. -/
def lvStep (h : Host) (vg : Vg) (s : Search) (row : Row) : Search :=
  if row.path = [] then { s with lvmFailed := true }
  else
    match h.fsType row.path with
    | none => s
    | some fs => s.add (examine h.toFilesystems row.path fs (some vg))

/-- The logical volumes of a group that is active. -/
def searchRows (h : Host) (vg : Vg) (s : Search) : Search :=
  if h.searchFile vg = false then { s with lvmFailed := true }
  else
    match lvsForVg h.toVolumeGroups vg .search s.groups.active with
    | none => { s with lvmFailed := true }
    | some rows => rows.foldl (lvStep h vg) s

/-- A group that has not been seen. -/
def searchGroup (h : Host) (vg : Vg) (s : Search) : Search :=
  let (activation, groups) := activateVgIfNeeded h.toVolumeGroups vg s.groups
  match activation with
  | .crossDisk => { s with groups := groups, crossDisk := true }
  | .failed => { s with groups := groups, lvmFailed := true }
  | .no => searchRows h vg { s with groups := groups }
  | .yes => searchRows h vg { s with groups := groups, activated := s.activated ++ [vg] }

/-- The loop over the physical volumes. -/
def groupStep (h : Host) (s : Search) (part : Str) : Search :=
  if h.pvReport part = false then { s with lvmFailed := true }
  else
    match h.groupOf part with
    | none => s
    | some vg =>
      if vg.name = [] ∨ vg.uuid = [] ∨ vg.uuid ∈ s.seen then s
      else searchGroup h vg { s with seen := s.seen ++ [vg.uuid] }

/-- The status by the flags and the number of candidates. -/
def verdict (s : Search) : ℕ :=
  if s.probeFailed then 24
  else
    match s.candidates.length with
    | 1 => 0
    | 0 => if s.crossDisk then 22 else if s.lvmFailed then 23 else 20
    | _ => 21

/-- The groups that were activated are deactivated. -/
def deactivateAll (h : Host) : List Vg → Groups × ℕ → Groups × ℕ
  | [], r => r
  | vg :: vgs, (g, status) =>
    let (ok, g') := h.changeAn vg g
    deactivateAll h vgs (g', if ok = false ∧ h.privateMount = true then 23 else status)

/-- The status of the search, what it prints, and the groups after it. -/
structure SearchOutcome where
  status : ℕ
  printed : Option Candidate
  groups : Groups

def Search.start (active : Activity) : Search := ⟨⟨active, []⟩, [], [], [], [], false, false, false⟩

/-- Both loops. -/
def searchAll (h : Host) (active : Activity) : Search :=
  let s := h.partitions.foldl (partitionStep h) (.start active)
  s.lvmParts.foldl (groupStep h) s

/-- `rootpxe_find_linux_root_filesystem`, from its partitions on. -/
def findLinuxRootFilesystem (h : Host) (active : Activity) : SearchOutcome :=
  if h.partitions = [] then ⟨20, none, ⟨active, []⟩⟩
  else
    let s := searchAll h active
    let (groups, status) := deactivateAll h s.activated (s.groups, verdict s)
    ⟨status, if status = 0 then s.candidates.getLast? else none, groups⟩

/-! ### What the loops add -/

@[simp] lemma Search.add_add (s : Search) (a b : List Candidate × Bool) :
    (s.add a).add b = s.add (a.1 ++ b.1, a.2 || b.2) := by
  unfold Search.add
  dsimp only
  rw [List.append_assoc, Bool.or_assoc]

lemma Search.add_nil (s : Search) : s.add ([], false) = s := by
  unfold Search.add
  rw [List.append_nil, Bool.or_false]

/-- What a device adds. -/
def deviceResult (h : Host) (device : Str) (vg : Option Vg) : List Candidate × Bool :=
  match h.fsType device with
  | none => ([], false)
  | some fs => examine h.toFilesystems device fs vg

/-- What a partition adds. -/
def partResult (h : Host) (part : Str) : List Candidate × Bool :=
  match h.fsType part with
  | none => ([], false)
  | some fs =>
    if h.refuses fs then ([], true) else if fs = lvmMember then ([], false)
    else examine h.toFilesystems part fs none

/-- A partition that is a physical volume. -/
def isPv (h : Host) (part : Str) : Bool := h.fsType part = some lvmMember

lemma refuses_lvmMember (h : Filesystems) : h.refuses lvmMember = false := by
  unfold Filesystems.refuses
  cases h.cloudInit <;> decide

lemma partitionStep_eq (h : Host) (s : Search) (part : Str) :
    partitionStep h s part =
      { s.add (partResult h part) with lvmParts := s.lvmParts ++ [part].filter (isPv h) } := by
  unfold partitionStep partResult isPv
  cases hfs : h.fsType part with
  | none => simp [Search.add, hfs]
  | some fs =>
    dsimp only
    by_cases hr : h.refuses fs = true
    · have hne : fs ≠ lvmMember := by
        rintro rfl
        rw [refuses_lvmMember] at hr
        cases hr
      rw [if_pos hr, if_pos hr]
      simp [Search.add, hfs, hne]
    · rw [if_neg hr, if_neg hr]
      by_cases hpv : fs = lvmMember
      · rw [if_pos hpv, if_pos hpv]
        simp [Search.add, hfs, hpv]
      · rw [if_neg hpv, if_neg hpv]
        simp [Search.add, hfs, hpv]

/-- **The loop over the partitions.** -/
lemma partitions_fold (h : Host) (parts : List Str) (s : Search) :
    parts.foldl (partitionStep h) s =
      { s.add (gather (parts.map (partResult h))) with
        lvmParts := s.lvmParts ++ parts.filter (isPv h) } := by
  induction parts generalizing s with
  | nil => simp [Search.add]
  | cons part parts ih =>
    rw [List.foldl_cons, ih, partitionStep_eq, List.map_cons, gather_cons]
    have hfilter : (part :: parts).filter (isPv h) = [part].filter (isPv h) ++
        parts.filter (isPv h) := by
      rw [← List.filter_append]
      rfl
    rw [hfilter]
    simp [Search.add, Bool.or_assoc]

/-- The loop over the logical volumes. -/
lemma lvs_fold (h : Host) (vg : Vg) (rows : List Row) (hpath : ∀ row ∈ rows, row.path ≠ [])
    (s : Search) :
    rows.foldl (lvStep h vg) s =
      s.add (gather (rows.map fun row => deviceResult h row.path (some vg))) := by
  induction rows generalizing s with
  | nil => exact s.add_nil.symm
  | cons row rows ih =>
    have hstep : lvStep h vg s row = s.add (deviceResult h row.path (some vg)) := by
      unfold lvStep deviceResult
      rw [if_neg (hpath row List.mem_cons_self)]
      cases h.fsType row.path with
      | none => exact s.add_nil.symm
      | some fs => rfl
    rw [List.foldl_cons, hstep, ih fun x hx => hpath x (List.mem_cons_of_mem _ hx), List.map_cons,
      gather_cons, Search.add_add]

/-- What a group adds once it has been activated or not. -/
def volumesResult (h : Host) (vg : Vg) (a : Activation) : List Candidate × Bool :=
  if (a = .yes ∨ a = .no) ∧ h.searchFile vg = true ∧ h.lvsReport vg .search = true then
    gather ((h.logicalVolumes vg.uuid).map fun lv => deviceResult h lv.path (some vg))
  else ([], false)

/-- The variables of the search after a group. -/
structure Visited (h : Host) (vg : Vg) (s s' : Search) : Prop where
  groups : s'.groups = (activateVgIfNeeded h.toVolumeGroups vg s.groups).2
  activated : s'.activated = s.activated ++ if (activateVgIfNeeded h.toVolumeGroups vg s.groups).1 =
    .yes then [vg] else []
  seen : s'.seen = s.seen
  candidates : s'.candidates = s.candidates ++
    (volumesResult h vg (activateVgIfNeeded h.toVolumeGroups vg s.groups).1).1
  probeFailed : s'.probeFailed =
    (s.probeFailed || (volumesResult h vg (activateVgIfNeeded h.toVolumeGroups vg s.groups).1).2)

lemma searchRows_eq (h : Host) (vg : Vg) (s : Search) {a : Activation} (ha : a = .yes ∨ a = .no)
    (hs : Shown h.toVolumeGroups vg s.groups.active) :
    searchRows h vg s = s.add (volumesResult h vg a) ∨
      volumesResult h vg a = ([], false) ∧ searchRows h vg s = { s with lvmFailed := true } := by
  unfold searchRows volumesResult
  by_cases hf : h.searchFile vg = false
  · rw [if_pos hf]
    refine .inr ⟨if_neg fun hall => ?_, rfl⟩
    rw [hall.2.1] at hf
    cases hf
  rw [if_neg hf]
  by_cases hr : h.lvsReport vg .search = true
  · -- the report of an active group gives the paths
    have hrows : lvsForVg h.toVolumeGroups vg .search s.groups.active =
        some ((h.logicalVolumes vg.uuid).map fun lv => lv.row (s.groups.active vg.uuid lv.name)) := by
      unfold lvsForVg
      rw [if_pos]
      rw [hs.name, hs.uuid, hr, decide_eq_true hs.volumes]
      rfl
    have hpath : ∀ row ∈ (h.logicalVolumes vg.uuid).map fun lv =>
        lv.row (s.groups.active vg.uuid lv.name), row.path ≠ [] := by
      intro row hrow
      obtain ⟨lv, hlv, rfl⟩ := List.mem_map.mp hrow
      obtain ⟨hpath, hne⟩ := Lv.row_active (hs.states lv hlv)
      rwa [hpath]
    have hsame :
        ((h.logicalVolumes vg.uuid).map fun lv => lv.row (s.groups.active vg.uuid lv.name)).map
        (fun row => deviceResult h row.path (some vg)) =
          (h.logicalVolumes vg.uuid).map fun lv => deviceResult h lv.path (some vg) := by
      rw [List.map_map]
      refine List.map_congr_left fun lv hlv => ?_
      rw [Function.comp_apply, (Lv.row_active (hs.states lv hlv)).1]
    rw [hrows, if_pos ⟨ha, by rwa [Bool.not_eq_false] at hf, hr⟩]
    dsimp only
    rw [lvs_fold h vg _ hpath, hsame]
    exact .inl rfl
  · have hnone : lvsForVg h.toVolumeGroups vg .search s.groups.active = none := by
      unfold lvsForVg
      rw [if_neg]
      rw [Bool.and_eq_true, Bool.and_eq_true]
      exact fun hall => hr hall.1.2
    rw [hnone]
    exact .inr ⟨if_neg fun hall => hr hall.2.2, rfl⟩

lemma visited (h : Host) (vg : Vg) (s : Search) : Visited h vg s (searchGroup h vg s) := by
  have hact := activates h.toVolumeGroups vg s.groups
  have hnone : ∀ {a : Activation}, a ≠ .yes → a ≠ .no → volumesResult h vg a = ([], false) :=
    fun h1 h2 =>
    if_neg fun hall => hall.1.elim h1 h2
  unfold searchGroup
  generalize hrun : activateVgIfNeeded h.toVolumeGroups vg s.groups = r at hact
  obtain ⟨a, g⟩ := r
  dsimp only at hact ⊢
  cases hact with
  | crossDisk hv =>
    have := hnone (a := .crossDisk) (by decide) (by decide)
    exact ⟨by rw [hrun], by simp [hrun], rfl, by simp [hrun, this], by simp [hrun, this]⟩
  | refused hv hr =>
    have := hnone (a := .failed) (by decide) (by decide)
    exact ⟨by rw [hrun], by simp [hrun], rfl, by simp [hrun, this], by simp [hrun, this]⟩
  | undone hr =>
    have := hnone (a := .failed) (by decide) (by decide)
    exact ⟨by rw [hrun], by simp [hrun], rfl, by simp [hrun, this], by simp [hrun, this]⟩
  | active hr hs =>
    rcases searchRows_eq h vg s (a := .no) (.inr rfl) hs with heq | ⟨hres, heq⟩
    · dsimp only
      rw [heq]
      exact ⟨by rw [hrun]; rfl, by simp [hrun, Search.add], rfl, by rw [hrun]; rfl, by rw [hrun]; rfl⟩
    · dsimp only
      rw [heq]
      exact ⟨by rw [hrun], by simp [hrun], rfl, by simp [hrun, hres], by simp [hrun, hres]⟩
  | done hr hs =>
    rcases searchRows_eq h vg { s with
        groups := (h.changeAy vg s.groups).2, activated := s.activated ++ [vg] } (a := .yes)
      (.inl rfl) hs with heq | ⟨hres, heq⟩
    · dsimp only
      rw [heq]
      exact ⟨by rw [hrun]; rfl, by simp [hrun, Search.add], rfl, by rw [hrun]; rfl,
        by rw [hrun]; rfl⟩
    · dsimp only
      rw [heq]
      exact ⟨by rw [hrun], by simp [hrun], rfl, by simp [hrun, hres], by simp [hrun, hres]⟩

/-! ### The groups of the disk -/

/-- The groups of the physical volumes that are reported, each at its first one. -/
def groupsOn (h : Host) : List Str → List Str → List Vg
  | _, [] => []
  | seen, part :: parts =>
    if h.pvReport part = false then groupsOn h seen parts
    else
      match h.groupOf part with
      | none => groupsOn h seen parts
      | some vg =>
        if vg.name = [] ∨ vg.uuid = [] ∨ vg.uuid ∈ seen then groupsOn h seen parts
        else vg :: groupsOn h (seen ++ [vg.uuid]) parts

/-- The activation of a group on its own. -/
def activationOf (h : Host) (active : Activity) (vg : Vg) : Activation :=
  (activateVgIfNeeded h.toVolumeGroups vg ⟨active, []⟩).1

/-- What a group adds on its own. -/
def groupResult (h : Host) (active : Activity) (vg : Vg) : List Candidate × Bool :=
  volumesResult h vg (activationOf h active vg)

/-- The groups that have not been seen are as they were. -/
def Untouched (active : Activity) (s : Search) : Prop :=
  ∀ u, u ∉ s.seen → s.groups.active u = active u

/-- A group on its way: as on its own, and those that are still to come stay. -/
lemma untouched_step {h : Host} {active : Activity} {s : Search} {vg : Vg} (hs : Untouched active s)
    (hnew : vg.uuid ∉ s.seen) :
    (activateVgIfNeeded h.toVolumeGroups vg s.groups).1 = activationOf h active vg ∧
      Untouched active (searchGroup h vg { s with seen := s.seen ++ [vg.uuid] }) := by
  refine ⟨activation_congr _ vg (hs vg.uuid hnew), fun u hu => ?_⟩
  have hv := visited h vg { s with seen := s.seen ++ [vg.uuid] }
  rw [hv.seen, List.mem_append, List.mem_singleton, not_or] at hu
  rw [hv.groups, (activates h.toVolumeGroups vg s.groups).frame hu.2]
  exact hs u hu.1

/-- The variables after the loop over the physical volumes. -/
structure Searched (h : Host) (active : Activity) (vgs : List Vg) (s s' : Search) : Prop where
  candidates : s'.candidates = s.candidates ++ (gather (vgs.map (groupResult h active))).1
  probeFailed : s'.probeFailed = (s.probeFailed || (gather (vgs.map (groupResult h active))).2)
  activated : s'.activated = s.activated ++ vgs.filter fun vg => activationOf h active vg = .yes

lemma Searched.refl (h : Host) (active : Activity) (s : Search) : Searched h active [] s s :=
  ⟨(List.append_nil _).symm, (Bool.or_false _).symm, (List.append_nil _).symm⟩

/-- A physical volume: its group is visited, or it is passed over, with a flag or without. -/
lemma groupStep_cases (h : Host) (s : Search) (part : Str) (parts : List Str) :
    ((groupStep h s part = s ∨ groupStep h s part = { s with lvmFailed := true }) ∧
      groupsOn h s.seen (part :: parts) = groupsOn h s.seen parts) ∨
    ∃ vg : Vg, vg.uuid ∉ s.seen ∧
      groupStep h s part = searchGroup h vg { s with seen := s.seen ++ [vg.uuid] } ∧
      groupsOn h s.seen (part :: parts) = vg :: groupsOn h (s.seen ++ [vg.uuid]) parts := by
  unfold groupStep
  rw [groupsOn]
  by_cases hreport : h.pvReport part = false
  · rw [if_pos hreport, if_pos hreport]
    exact .inl ⟨.inr rfl, rfl⟩
  rw [if_neg hreport, if_neg hreport]
  cases h.groupOf part with
  | none => exact .inl ⟨.inl rfl, rfl⟩
  | some vg =>
    dsimp only
    by_cases hskip : vg.name = [] ∨ vg.uuid = [] ∨ vg.uuid ∈ s.seen
    · rw [if_pos hskip, if_pos hskip]
      exact .inl ⟨.inl rfl, rfl⟩
    · rw [if_neg hskip, if_neg hskip]
      exact .inr ⟨vg, fun hmem => hskip (.inr (.inr hmem)), rfl, rfl⟩

/-- **The loop over the physical volumes.** -/
lemma groups_fold (h : Host) (active : Activity) (parts : List Str) {s : Search}
    (hs : Untouched active s) :
    Searched h active (groupsOn h s.seen parts) s (parts.foldl (groupStep h) s) := by
  induction parts generalizing s with
  | nil => exact .refl h active s
  | cons part parts ih =>
    rw [List.foldl_cons]
    rcases groupStep_cases h s part parts with ⟨hstep | hstep, hgroups⟩ | ⟨vg, hnew, hstep, hgroups⟩
    · rw [hstep, hgroups]
      exact ih hs
    · have hrest := ih (s := { s with lvmFailed := true }) hs
      rw [hstep, hgroups]
      exact ⟨hrest.candidates, hrest.probeFailed, hrest.activated⟩
    · obtain ⟨hown, hnext⟩ := untouched_step (h := h) hs hnew
      have hv := visited h vg { s with seen := s.seen ++ [vg.uuid] }
      have hrest := ih hnext
      rw [hv.seen] at hrest
      have hcand := hv.candidates
      have hfail := hv.probeFailed
      have hacts := hv.activated
      rw [hown] at hcand hfail hacts
      rw [hstep, hgroups]
      refine ⟨?_, ?_, ?_⟩
      · rw [hrest.candidates, hcand, List.map_cons, gather_cons, List.append_assoc]
        rfl
      · rw [hrest.probeFailed, hfail, List.map_cons, gather_cons, Bool.or_assoc]
        rfl
      · rw [hrest.activated, hacts, List.append_assoc]
        by_cases hyes : activationOf h active vg = .yes
        · rw [if_pos hyes, List.filter_cons_of_pos (by simpa using hyes)]
          rfl
        · rw [if_neg hyes, List.filter_cons_of_neg (by simpa using hyes)]
          rfl

/-- The groups that the search visits. -/
def diskGroups (h : Host) : List Vg := groupsOn h [] (h.partitions.filter (isPv h))

/-- What the devices that are reached add. -/
def visible (h : Host) (active : Activity) : List Candidate × Bool :=
  gather (h.partitions.map (partResult h) ++ (diskGroups h).map (groupResult h active))

lemma gather_append (as bs : List (List Candidate × Bool)) :
    gather (as ++ bs) = ((gather as).1 ++ (gather bs).1, (gather as).2 || (gather bs).2) := by
  unfold gather
  rw [List.flatMap_append, List.any_append]

/-- The variables before the loop over the physical volumes. -/
def afterPartitions (h : Host) (active : Activity) : Search :=
  { (Search.start active).add (gather (h.partitions.map (partResult h))) with
    lvmParts := h.partitions.filter (isPv h) }

lemma searchAll_fold (h : Host) (active : Activity) :
    searchAll h active = (h.partitions.filter (isPv h)).foldl (groupStep h)
      (afterPartitions h active) := by
  unfold searchAll
  dsimp only
  rw [partitions_fold]
  rfl

/-- **The search**: the candidates and the failures are those of the devices, each on its own. -/
lemma searchAll_eq (h : Host) (active : Activity) :
    (searchAll h active).candidates = (visible h active).1 ∧
    (searchAll h active).probeFailed = (visible h active).2 ∧
      (searchAll h active).activated = (diskGroups h).filter fun vg =>
        activationOf h active vg = .yes := by
  have hfold :=
    groups_fold h active (h.partitions.filter (isPv h)) (s := afterPartitions h active) fun u _ =>
      rfl
  unfold visible
  rw [searchAll_fold, gather_append]
  exact ⟨hfold.candidates, hfold.probeFailed, hfold.activated⟩

end Pxeos.Linux
