import Pxeos.Linux.Probe

/-!
# The activation of a volume group

`rootpxe_linux_activate_vg_if_needed` of `funcs.sh`: a group whose physical volumes are all on the
disk is activated if the report of its logical volumes shows them all as inactive, and is left alone
if it shows them all as active.  A line of the report is read with tabs between the fields, so that
a field that is empty is not seen, and the next one takes its place.
-/

namespace Pxeos.Linux

open Pxeos.Lib

/-! ### Groups -/

/-- A logical volume, which has a name; a pool has no path. -/
structure Lv where
  name : Str
  path : Str
  /-- What the report shows if the volume is inactive: nothing, or the word. -/
  blank : Bool
  /-- The report does not know the state. -/
  unknown : Bool
  named : name ≠ []
  deriving DecidableEq

/-- The reports of the logical volumes of a group: before and after an activation, and for the
search. -/
inductive Report where
  | before
  | after
  | search
  deriving DecidableEq, Repr

/-- The volume groups, and how each command on them ends. -/
structure VolumeGroups where
  /-- The partitions that a group may use, if they are found out: those of the disk, or of all
  permitted disks. -/
  permittedParts : List Str
  partsKnown : Vg → Bool
  /-- The report of all physical volumes, and the paths in it. -/
  pvsReport : Vg → Bool
  physicalVolumes : Str → List Str
  logicalVolumes : Str → List Lv
  /-- `mktemp`. -/
  rowsFile : Vg → Bool
  lvsReport : Vg → Report → Bool
  /-- `vgchange -ay`, and which volumes are active after it. -/
  activates : Vg → Bool
  activated : Vg → Str → Bool
  /-- `[[ -b $path && -r $path ]]`. -/
  readable : Str → Bool
  /-- `vgchange -an`, and which volumes are active after it has failed. -/
  deactivates : Vg → Bool
  kept : Vg → Str → Bool

/-- `[A-Za-z0-9]` and some marks. -/
def wordOf (marks : Str) (s : Str) : Bool := s.all fun c => c.isAlphanum || marks.contains c

/-- `rootpxe_lvm_safe_identifier`. -/
def safeIdentifier (s : Str) : Bool := s != [] && s.length ≤ 160 && wordOf "._:+-".toList s

/-- `rootpxe_lvm_validate_vg_name`. -/
def validateVgName (s : Str) : Bool :=
  s != [] && s.length ≤ 127 && wordOf "+_.".toList (s.take 1) && wordOf "+_.-".toList (s.drop 1) &&
    s != ".".toList && s != "..".toList

/-- Which volumes are active: by the group's uuid and the name. -/
abbrev Activity := Str → Str → Bool

inductive Change where
  | activate (vg : Vg)
  | deactivate (vg : Vg)
  deriving DecidableEq, Repr

/-- The groups as they are, and what has been done to them. -/
structure Groups where
  active : Activity
  changes : List Change

/-- A group gets a new state of its volumes. -/
def VolumeGroups.set (h : VolumeGroups) (active : Activity) (uuid : Str) (new : Str → Bool) :
    Activity := fun u n =>
  if u = uuid ∧ n ∈ (h.logicalVolumes uuid).map Lv.name then new n else active u n

/-- `vgchange -ay --select "vg_uuid=$vg_uuid" "$vg_name"`. -/
def VolumeGroups.changeAy (h : VolumeGroups) (vg : Vg) (g : Groups) : Bool × Groups :=
  (h.activates vg, ⟨h.set g.active vg.uuid (h.activated vg), g.changes ++ [.activate vg]⟩)

/-- `vgchange -an --select "vg_uuid=$vg_uuid" "$vg_name"`. -/
def VolumeGroups.changeAn (h : VolumeGroups) (vg : Vg) (g : Groups) : Bool × Groups :=
  (h.deactivates vg,
    ⟨h.set g.active vg.uuid (if h.deactivates vg then fun _ => false else h.kept vg),
      g.changes ++ [.deactivate vg]⟩)

/-! ### Reports -/

/-- `lv_active`. -/
def Lv.state (lv : Lv) (active : Bool) : Str :=
  if lv.unknown then "unknown".toList
  else if active then "active".toList
  else if lv.blank then []
  else "inactive".toList

/-- What `IFS=$'\t' read -r lv_name lv_path state` makes of a line. -/
structure Row where
  name : Str
  path : Str
  state : Str
  deriving DecidableEq, Repr

/-- A line with tabs between its fields; tabs next to each other separate once. -/
def readRow (fields : List Str) : Row :=
  let seen := fields.filter (· ≠ [])
  ⟨seen.getD 0 [], seen.getD 1 [], seen.getD 2 []⟩

def Lv.row (lv : Lv) (active : Bool) : Row := readRow [lv.name, lv.path, lv.state active]

/-- `rootpxe_linux_lvs_for_vg_json`. -/
def lvsForVg (h : VolumeGroups) (vg : Vg) (r : Report) (active : Activity) : Option (List Row) :=
  if validateVgName vg.name && safeIdentifier vg.uuid && h.lvsReport vg r &&
    h.logicalVolumes vg.uuid ≠ [] then
    some ((h.logicalVolumes vg.uuid).map fun lv => lv.row (active vg.uuid lv.name))
  else none

/-! ### The activation -/

/-- `rootpxe_linux_validate_vg_target_pvs`. -/
def validateVgTargetPvs (h : VolumeGroups) (vg : Vg) : Bool :=
  h.partsKnown vg && h.permittedParts ≠ [] && safeIdentifier vg.uuid && h.pvsReport vg &&
    h.physicalVolumes vg.uuid ≠ [] &&
    (h.physicalVolumes vg.uuid).all fun pv => pv ∈ h.permittedParts

/-- The states in the rows: inactive and active ones; nothing if a row does not fit. -/
def countStates : List Row → Option (ℕ × ℕ)
  | [] => some (0, 0)
  | row :: rows =>
    if row.name = [] ∨ row.path = [] then none
    else if row.state = [] ∨ row.state = "inactive".toList then
      (countStates rows).map fun n => (n.1 + 1, n.2)
    else if row.state = "active".toList then (countStates rows).map fun n => (n.1, n.2 + 1)
    else none

/-- What the activation prints, or its status 2 or 1. -/
inductive Activation where
  | yes
  | no
  | crossDisk
  | failed
  deriving DecidableEq, Repr

/-- `rootpxe_linux_activate_vg_if_needed`. -/
def activateVgIfNeeded (h : VolumeGroups) (vg : Vg) (g : Groups) : Activation × Groups :=
  if validateVgTargetPvs h vg = false then (.crossDisk, g)
  else if h.rowsFile vg = false then (.failed, g)
  else
    match lvsForVg h vg .before g.active with
    | none => (.failed, g)
    | some rows =>
      match countStates rows with
      | none => (.failed, g)
      | some (inactive, active) =>
        if rows.length = 0 then (.failed, g)
        else if inactive = rows.length then
          let (ok, g') := h.changeAy vg g
          if ok = false then (.failed, (h.changeAn vg g').2)
          else
            match lvsForVg h vg .after g'.active with
            | none => (.failed, (h.changeAn vg g').2)
            | some rows' =>
              if rows'.all (fun row => row.state = "active".toList && h.readable row.path) &&
                rows' ≠ [] then (.yes, g')
              else (.failed, (h.changeAn vg g').2)
        else if active = rows.length then (.no, g)
        else (.failed, g)

/-! ### What the rows say -/

/-- A row that counts as inactive. -/
structure Row.Idle (row : Row) : Prop where
  name : row.name ≠ []
  path : row.path ≠ []
  state : row.state = [] ∨ row.state = "inactive".toList

lemma countStates_le {rows : List Row} {n : ℕ × ℕ} (h : countStates rows = some n) :
    n.1 + n.2 = rows.length := by
  induction rows generalizing n with
  | nil =>
    obtain rfl := Option.some.inj h
    rfl
  | cons row rows ih =>
    rw [countStates] at h
    rw [List.length_cons]
    split_ifs at h
    · obtain ⟨m, hm, rfl⟩ := Option.map_eq_some_iff.mp h
      have := ih hm
      dsimp only
      omega
    · obtain ⟨m, hm, rfl⟩ := Option.map_eq_some_iff.mp h
      have := ih hm
      dsimp only
      omega

/-- All rows count as inactive. -/
lemma countStates_idle {rows : List Row} :
    (∃ n, countStates rows = some n ∧ n.1 = rows.length) ↔ ∀ row ∈ rows, row.Idle := by
  induction rows with
  | nil => exact iff_of_true ⟨(0, 0), rfl, rfl⟩ fun row h => absurd h List.not_mem_nil
  | cons row rows ih =>
    rw [List.forall_mem_cons, ← ih]
    constructor
    · rintro ⟨n, hn, hlen⟩
      have hsum := countStates_le hn
      rw [List.length_cons] at hlen hsum
      rw [countStates] at hn
      split_ifs at hn with hempty hidle hactive
      · obtain ⟨m, hm, rfl⟩ := Option.map_eq_some_iff.mp hn
        exact ⟨⟨fun h => hempty (.inl h), fun h => hempty (.inr h), hidle⟩, m, hm,
          by dsimp only at hlen; omega⟩
      · obtain ⟨m, hm, rfl⟩ := Option.map_eq_some_iff.mp hn
        dsimp only at hlen hsum
        omega
    · rintro ⟨hrow, n, hn, hlen⟩
      refine ⟨(n.1 + 1, n.2), ?_, by rw [List.length_cons, hlen]⟩
      rw [countStates, if_neg (not_or.mpr ⟨hrow.name, hrow.path⟩), if_pos hrow.state, hn]
      rfl

/-- All rows count as active. -/
lemma countStates_active {rows : List Row} {n : ℕ × ℕ} (h : countStates rows = some n)
    (hlen : n.2 = rows.length) :
    ∀ row ∈ rows, row.state = "active".toList := by
  induction rows generalizing n with
  | nil => exact fun row hrow => absurd hrow List.not_mem_nil
  | cons row rows ih =>
    have hsum := countStates_le h
    rw [List.length_cons] at hlen hsum
    rw [countStates] at h
    split_ifs at h with hempty hidle hactive
    · obtain ⟨m, hm, rfl⟩ := Option.map_eq_some_iff.mp h
      dsimp only at hlen hsum
      have := countStates_le hm
      omega
    · obtain ⟨m, hm, rfl⟩ := Option.map_eq_some_iff.mp h
      dsimp only at hlen
      exact List.forall_mem_cons.mpr ⟨hactive, ih hm (by omega)⟩

/-- A row that shows a volume as active has its path. -/
lemma Lv.row_active {lv : Lv} {active : Bool} (h : (lv.row active).state = "active".toList) :
    (lv.row active).path = lv.path ∧ lv.path ≠ [] := by
  unfold Lv.row readRow at h ⊢
  have hname : decide (lv.name ≠ []) = true := decide_eq_true lv.named
  by_cases hpath : lv.path = []
  · by_cases hstate : lv.state active = []
    · simp [lv.named, hpath, hstate] at h
    · simp [lv.named, hpath, hstate] at h
  · exact ⟨by simp [lv.named, hpath], hpath⟩

/-- A row that counts as inactive: the volume has a path and is inactive, or it has none, and its
state is taken for one. -/
lemma Lv.row_idle {lv : Lv} {active : Bool} : (lv.row active).Idle ↔
    (lv.path ≠ [] ∧ lv.unknown = false ∧ active = false) ∨
    (lv.path = [] ∧ lv.state active ≠ []) := by
  by_cases hpath : lv.path = []
  · by_cases hstate : lv.state active = []
    · have hrow : lv.row active = ⟨lv.name, [], []⟩ := by
        simp [Lv.row, readRow, lv.named, hpath, hstate]
      rw [hrow]
      refine iff_of_false (fun h => h.path rfl) ?_
      rintro (⟨h, -⟩ | ⟨-, h⟩)
      · exact h hpath
      · exact h hstate
    · have hrow : lv.row active = ⟨lv.name, lv.state active, []⟩ := by
        simp [Lv.row, readRow, lv.named, hpath, hstate]
      rw [hrow]
      exact iff_of_true ⟨lv.named, hstate, .inl rfl⟩ (.inr ⟨hpath, hstate⟩)
  · have hrow : lv.row active = ⟨lv.name, lv.path, lv.state active⟩ := by
      by_cases hstate : lv.state active = []
      · simp [Lv.row, readRow, lv.named, hpath, hstate]
      · simp [Lv.row, readRow, lv.named, hpath, hstate]
    have hstate : (lv.state active = [] ∨ lv.state active = "inactive".toList) ↔
        lv.unknown = false ∧ active = false := by
      unfold Lv.state
      cases lv.unknown <;> cases active <;> cases lv.blank <;> decide
    rw [hrow]
    constructor
    · exact fun h => .inl ⟨hpath, hstate.mp h.state⟩
    · rintro (⟨-, h⟩ | ⟨h, -⟩)
      · exact ⟨lv.named, hpath, hstate.mpr h⟩
      · exact absurd h hpath

/-! ### What the activation does -/

/-- The report shows every volume of the group as inactive. -/
def ReadInactive (h : VolumeGroups) (vg : Vg) (active : Activity) : Prop :=
  validateVgTargetPvs h vg = true ∧ h.rowsFile vg = true ∧
    ∃ rows, lvsForVg h vg .before active = some rows ∧ ∀ row ∈ rows, row.Idle

/-- Every volume of a group with a valid name is shown as active. -/
structure Shown (h : VolumeGroups) (vg : Vg) (active : Activity) : Prop where
  name : validateVgName vg.name = true
  uuid : safeIdentifier vg.uuid = true
  volumes : h.logicalVolumes vg.uuid ≠ []
  states : ∀ lv ∈ h.logicalVolumes vg.uuid, (lv.row (active vg.uuid lv.name)).state =
    "active".toList

/-- The outcomes of the activation: nothing is changed, or the group read as inactive and is active
now, or it was activated and deactivated again. -/
inductive Activates (h : VolumeGroups) (vg : Vg) (g : Groups) : Activation → Groups → Prop
  | crossDisk (hv : validateVgTargetPvs h vg = false) : Activates h vg g .crossDisk g
  | refused (hv : validateVgTargetPvs h vg = true) (hr : ¬ ReadInactive h vg g.active) :
      Activates h vg g .failed g
  | active (hr : ¬ ReadInactive h vg g.active) (hs : Shown h vg g.active) : Activates h vg g .no g
  | undone (hr : ReadInactive h vg g.active) :
      Activates h vg g .failed (h.changeAn vg (h.changeAy vg g).2).2
  | done (hr : ReadInactive h vg g.active) (hs : Shown h vg (h.changeAy vg g).2.active) :
      Activates h vg g .yes (h.changeAy vg g).2

lemma lvsForVg_eq_some {h : VolumeGroups} {vg : Vg} {r : Report} {active : Activity}
    {rows : List Row} (hl : lvsForVg h vg r active = some rows) :
    validateVgName vg.name = true ∧ safeIdentifier vg.uuid = true ∧ h.logicalVolumes vg.uuid ≠ [] ∧
      rows = (h.logicalVolumes vg.uuid).map fun lv => lv.row (active vg.uuid lv.name) := by
  unfold lvsForVg at hl
  split_ifs at hl with hall
  rw [Bool.and_eq_true, Bool.and_eq_true, Bool.and_eq_true, decide_eq_true_iff] at hall
  exact ⟨hall.1.1.1, hall.1.1.2, hall.2, (Option.some.inj hl).symm⟩

lemma shown_of_rows {h : VolumeGroups} {vg : Vg} {r : Report} {active : Activity} {rows : List Row}
    (hl : lvsForVg h vg r active = some rows) (hrows : ∀ row ∈ rows, row.state = "active".toList) :
    Shown h vg active := by
  obtain ⟨hname, huuid, hne, rfl⟩ := lvsForVg_eq_some hl
  exact ⟨hname, huuid, hne, fun lv hlv => hrows _ (List.mem_map_of_mem hlv)⟩

/-- **The activation**, once for all. -/
theorem activates (h : VolumeGroups) (vg : Vg) (g : Groups) :
    Activates h vg g (activateVgIfNeeded h vg g).1 (activateVgIfNeeded h vg g).2 := by
  unfold activateVgIfNeeded
  by_cases hv : validateVgTargetPvs h vg = false
  · rw [if_pos hv]
    exact .crossDisk hv
  have hv' : validateVgTargetPvs h vg = true := by rwa [Bool.not_eq_false] at hv
  rw [if_neg hv]
  by_cases hf : h.rowsFile vg = false
  · rw [if_pos hf]
    refine .refused hv' fun hr => ?_
    rw [hr.2.1] at hf
    cases hf
  have hf' : h.rowsFile vg = true := by rwa [Bool.not_eq_false] at hf
  rw [if_neg hf]
  cases hl : lvsForVg h vg .before g.active with
  | none =>
    refine .refused hv' fun hr => ?_
    obtain ⟨-, -, rows, hrows, -⟩ := hr
    rw [hl] at hrows
    cases hrows
  | some rows =>
    have hread : ReadInactive h vg g.active ↔ ∃ n, countStates rows = some n ∧
        n.1 = rows.length := by
      rw [countStates_idle]
      constructor
      · rintro ⟨-, -, rows', hrows, hidle⟩
        obtain rfl := Option.some.inj (hl.symm.trans hrows)
        exact hidle
      · exact fun hidle => ⟨hv', hf', rows, hl, hidle⟩
    dsimp only
    cases hc : countStates rows with
    | none =>
      refine .refused hv' fun hr => ?_
      obtain ⟨n, hn, -⟩ := hread.mp hr
      rw [hc] at hn
      cases hn
    | some n =>
      have hne : rows.length ≠ 0 := by
        obtain ⟨-, -, hlvs, rfl⟩ := lvsForVg_eq_some hl
        rw [List.length_map]
        exact fun h0 => hlvs (List.length_eq_zero_iff.mp h0)
      dsimp only
      rw [if_neg hne]
      by_cases hi : n.1 = rows.length
      · have hr := hread.mpr ⟨n, hc, hi⟩
        rw [if_pos hi]
        by_cases ha : (h.changeAy vg g).1 = false
        · rw [if_pos ha]
          exact .undone hr
        rw [if_neg ha]
        cases hl' : lvsForVg h vg .after (h.changeAy vg g).2.active with
        | none => exact .undone hr
        | some rows' =>
          dsimp only
          split_ifs with hall
          · refine .done hr (shown_of_rows hl' fun row hrow => ?_)
            rw [Bool.and_eq_true, List.all_eq_true] at hall
            have := hall.1 row hrow
            rw [Bool.and_eq_true, decide_eq_true_iff] at this
            exact this.1
          · exact .undone hr
      · have hr : ¬ ReadInactive h vg g.active := fun hr => by
          obtain ⟨m, hm, hlen⟩ := hread.mp hr
          obtain rfl := Option.some.inj (hc.symm.trans hm)
          exact hi hlen
        rw [if_neg hi]
        by_cases ha : n.2 = rows.length
        · rw [if_pos ha]
          exact .active hr (shown_of_rows hl (countStates_active hc ha))
        · rw [if_neg ha]
          exact .refused hv' hr

/-! ### Other groups -/

lemma VolumeGroups.set_of_ne (h : VolumeGroups) (active : Activity) {uuid u : Str} (hne : u ≠ uuid)
    (new : Str → Bool) :
    h.set active uuid new u = active u := by
  funext n
  exact if_neg fun hu => hne hu.1

/-- The activation leaves the other groups as they are. -/
lemma Activates.frame {h : VolumeGroups} {vg : Vg} {g g' : Groups} {a : Activation}
    (ha : Activates h vg g a g') {u : Str} (hu : u ≠ vg.uuid) : g'.active u = g.active u := by
  cases ha with
  | crossDisk => rfl
  | refused => rfl
  | active => rfl
  | undone => exact (h.set_of_ne _ hu _).trans (h.set_of_ne _ hu _)
  | done => exact h.set_of_ne _ hu _

lemma lvsForVg_congr (h : VolumeGroups) (vg : Vg) (r : Report) {active active' : Activity}
    (heq : active vg.uuid = active' vg.uuid) :
    lvsForVg h vg r active = lvsForVg h vg r active' := by
  unfold lvsForVg
  rw [heq]

/-- It depends on the group alone. -/
lemma activation_congr (h : VolumeGroups) (vg : Vg) {g g' : Groups}
    (heq : g.active vg.uuid = g'.active vg.uuid) :
    (activateVgIfNeeded h vg g).1 = (activateVgIfNeeded h vg g').1 := by
  have hbefore := lvsForVg_congr h vg .before heq
  have hafter : lvsForVg h vg .after (h.changeAy vg g).2.active =
      lvsForVg h vg .after (h.changeAy vg g').2.active := by
    refine lvsForVg_congr h vg .after ?_
    unfold VolumeGroups.changeAy VolumeGroups.set
    dsimp only
    rw [heq]
  have hok : (h.changeAy vg g).1 = (h.changeAy vg g').1 := rfl
  unfold activateVgIfNeeded
  dsimp only
  rw [hbefore, hafter, hok]
  split
  · rfl
  split
  · rfl
  split
  · rfl
  split
  · rfl
  split
  · rfl
  split
  · split
    · rfl
    split
    · rfl
    split
    · rfl
    · rfl
  · split
    · rfl
    · rfl

end Pxeos.Linux
