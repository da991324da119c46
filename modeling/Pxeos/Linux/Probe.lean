import Mathlib.Data.List.Dedup
import Pxeos.Lib.Shell

/-!
# The probe of a filesystem

`rootpxe_linux_probe_root_candidate` and `rootpxe_linux_btrfs_subvolume_ids` of `funcs.sh`: a
filesystem is mounted, looked at, and unmounted again, and each of these steps can fail.  A mount
that fails counts as a filesystem without a root unless the filesystem is btrfs or the mount point
is private.
-/

namespace Pxeos.Linux

open Pxeos.Lib

/-! ### What is probed -/

/-- A volume group. -/
structure Vg where
  name : Str
  uuid : Str
  deriving DecidableEq, Repr

/-- `device|fstype|vg_name|vg_uuid|subvolid`. -/
structure Candidate where
  device : Str
  fstype : Str
  vg : Option Vg
  subvolid : Option ℕ
  deriving DecidableEq, Repr

/-- A filesystem to mount: a device, with a subvolume if one is asked for. -/
structure Source where
  device : Str
  subvolid : Option ℕ
  deriving DecidableEq, Repr

/-- How the commands around a mount end: `mkdir -p`, `mountpoint -q`, the `umount` of what is there,
`mount`, and the `umount` at the end. -/
structure Mounting where
  mkdir : Bool
  busy : Bool
  freed : Bool
  mounts : Bool
  umounts : Bool
  deriving DecidableEq, Repr

/-- The filesystems, and how each command on them ends. -/
structure Filesystems where
  /-- `rootpxe_linux_probe_mountpoint` is set. -/
  privateMount : Bool
  /-- `rootpxe_cloud_init_probe_disk` is set. -/
  cloudInit : Bool
  /-- `blkid -p -o value -s TYPE`. -/
  fsType : Str → Option Str
  mounting : Source → Mounting
  /-- `/etc` is a directory and no link. -/
  etc : Source → Bool
  /-- The status of the test for the structure of a root. -/
  marker : Source → ℕ
  /-- `btrfs subvolume get-default`. -/
  defaultSubvolid : Str → Option ℕ
  /-- The commands around the mount for `btrfs subvolume list`. -/
  listMounting : Str → Mounting
  /-- The numbers that it lists; none if it, or a temporary file, fails. -/
  subvolumes : Str → Option (List ℕ)

/-- `rootpxe_linux_root_fstype_supported`. -/
def supportedFstype (fs : Str) : Bool :=
  ["ext2", "ext3", "ext4", "xfs", "btrfs", "f2fs"].any (·.toList = fs)

def btrfs : Str := "btrfs".toList

/-! ### The probe -/

/-- What the test for a root says of a mounted filesystem. -/
inductive Marker where
  | root
  | noRoot
  | broken
  deriving DecidableEq, Repr

def Filesystems.test (h : Filesystems) (s : Source) : Marker :=
  if h.etc s = false then .noRoot
  else if h.privateMount && h.cloudInit then
    match h.marker s with
    | 0 => .root
    | 1 => .noRoot
    | _ => .broken
  else if h.marker s = 0 then .root
  else .noRoot

/-- The statuses 0, 1, 2 and 3 of the probe. -/
inductive Probe where
  | found (c : Candidate)
  | absent
  | busy
  | failed
  deriving DecidableEq, Repr

/-- `umount … || return 2`, and then the status. -/
def Mounting.leave (m : Mounting) (p : Probe) : Probe := if m.umounts then p else .busy

/-- `rootpxe_linux_probe_root_candidate`. -/
def probeRootCandidate (h : Filesystems) (device fs : Str) (vg : Option Vg) (subvolid : Option ℕ) :
    Probe :=
  let m := h.mounting ⟨device, subvolid⟩
  if supportedFstype fs = false then .absent
  else if m.mkdir = false then if h.privateMount then .failed else .absent
  else if m.busy && (h.privateMount || !m.freed) then .busy
  else if fs = btrfs ∧ subvolid = some 0 then .failed
  else if m.mounts = false then if fs = btrfs ∨ h.privateMount = true then .failed else .absent
  else
    match h.test ⟨device, subvolid⟩ with
    | .broken => m.leave .failed
    | .noRoot => m.leave .absent
    | .root =>
      if fs = btrfs ∧ subvolid = none then
        match h.defaultSubvolid device with
        | none => m.leave .failed
        | some id => m.leave (.found ⟨device, fs, vg, some id⟩)
      else m.leave (.found ⟨device, fs, vg, subvolid⟩)

/-- The statuses of the listing: with numbers, or 1, 2 and 3. -/
inductive Listing where
  | ids (ids : List ℕ)
  | empty
  | busy
  | failed
  deriving DecidableEq, Repr

/-- `sort -un`. -/
def sortUnique (ids : List ℕ) : List ℕ := (ids.mergeSort (· ≤ ·)).dedup

/-- `rootpxe_linux_btrfs_subvolume_ids`. -/
def btrfsSubvolumeIds (h : Filesystems) (device : Str) : Listing :=
  let m := h.listMounting device
  if m.mkdir = false then .failed
  else if m.busy && (h.privateMount || !m.freed) then .busy
  else if m.mounts = false then .failed
  else
    match h.subvolumes device with
    | none => if m.umounts then .failed else .busy
    | some rows =>
      if ¬ ∀ id ∈ rows, 0 < id then if m.umounts then .failed else .busy
      else if m.umounts = false then .busy
      else if rows = [] then .empty
      else .ids (sortUnique rows)

/-! ### A device -/

/-- What a probe adds to the candidates, and whether it sets `probe_failed`. -/
def Probe.result : Probe → List Candidate × Bool
  | .found c => ([c], false)
  | .absent => ([], false)
  | .busy => ([], true)
  | .failed => ([], true)

/-- What a loop adds to the candidates, and whether it sets `probe_failed`. -/
def gather (results : List (List Candidate × Bool)) : List Candidate × Bool :=
  (results.flatMap (·.1), results.any (·.2))

@[simp] lemma gather_nil : gather [] = ([], false) := rfl

@[simp] lemma gather_cons (r : List Candidate × Bool) (rs : List (List Candidate × Bool)) :
    gather (r :: rs) = (r.1 ++ (gather rs).1, r.2 || (gather rs).2) := rfl

/-- The probes of the subvolumes of a device. -/
def probeSubvolumes (h : Filesystems) (device fs : Str) (vg : Option Vg) (ids : List ℕ) :
    List Candidate × Bool :=
  gather ((ids.filter (0 < ·)).map fun id => (probeRootCandidate h device fs vg (some id)).result)

/-- The part of `rootpxe_find_linux_root_filesystem` for a device with a filesystem. -/
def examine (h : Filesystems) (device fs : Str) (vg : Option Vg) : List Candidate × Bool :=
  if fs = btrfs then
    match probeRootCandidate h device fs vg none with
    | .found c => ([c], false)
    | .absent =>
      match btrfsSubvolumeIds h device with
      | .ids ids => probeSubvolumes h device fs vg ids
      | .empty => ([], false)
      | .busy => ([], true)
      | .failed => ([], true)
    | .busy => ([], true)
    | .failed => ([], true)
  else (probeRootCandidate h device fs vg none).result

/-! ### What is there -/

/-- The mount point can be used, and the mount and the unmount succeed. -/
structure Mounting.Works (m : Mounting) (privateMount : Bool) : Prop where
  mkdir : m.mkdir = true
  busy : m.busy = true → privateMount = false ∧ m.freed = true
  mounts : m.mounts = true
  umounts : m.umounts = true

/-- The probe of a filesystem gets to its end. -/
structure Probed (h : Filesystems) (fs : Str) (s : Source) : Prop where
  mounting : (h.mounting s).Works h.privateMount
  subvolid : fs = btrfs → s.subvolid ≠ some 0
  test : h.test s ≠ .broken
  default : fs = btrfs → s.subvolid = none → h.test s = .root → h.defaultSubvolid s.device ≠ none

/-- A device is examined: it cannot hold a root, or all its filesystems are probed; the subvolumes
of btrfs are only looked at if the default one is no root. -/
def Examined (h : Filesystems) (device fs : Str) : Prop :=
  supportedFstype fs = true → Probed h fs ⟨device, none⟩ ∧
    (fs = btrfs → h.test ⟨device, none⟩ ≠ .root →
      (h.listMounting device).Works h.privateMount ∧
        ∃ ids, h.subvolumes device = some ids ∧ ∀ id ∈ ids, 0 < id ∧ Probed h fs ⟨device, some id⟩)

/-- The subvolume of a candidate: the default one of btrfs if none is asked for. -/
def Filesystems.given (h : Filesystems) (fs : Str) (s : Source) : Option ℕ :=
  if fs = btrfs ∧ s.subvolid = none then h.defaultSubvolid s.device else s.subvolid

/-- The roots that a device holds. -/
def rootsOf (h : Filesystems) (device fs : Str) (vg : Option Vg) : List Candidate :=
  if supportedFstype fs = false then []
  else if h.test ⟨device, none⟩ = .root then
    [⟨device, fs, vg, h.given fs ⟨device, none⟩⟩]
  else if fs = btrfs then
    ((sortUnique ((h.subvolumes device).getD [])).filter fun id => h.test ⟨device, some id⟩ =
      .root).map fun id =>
      ⟨device, fs, vg, some id⟩
  else []

lemma Mounting.Works.notBusy {m : Mounting} {p : Bool} (h : m.Works p) :
    (m.busy && (p || !m.freed)) = false := by
  cases hb : m.busy with
  | false => rfl
  | true =>
    obtain ⟨hp, hf⟩ := h.busy hb
    rw [hp, hf]
    rfl

/-- A probe that gets to its end finds the root exactly if there is one. -/
lemma probe_of_probed {h : Filesystems} {device fs : Str} {subvolid : Option ℕ} (vg : Option Vg)
    (hfs : supportedFstype fs = true) (hp : Probed h fs ⟨device, subvolid⟩) :
    probeRootCandidate h device fs vg subvolid =
      if h.test ⟨device, subvolid⟩ = .root then
        .found ⟨device, fs, vg, h.given fs ⟨device, subvolid⟩⟩
      else .absent := by
  have hm := hp.mounting
  have hnot : ¬ (fs = btrfs ∧ subvolid = some 0) := fun hbad => hp.subvolid hbad.1 hbad.2
  have hleave : ∀ p, (h.mounting ⟨device, subvolid⟩).leave p = p := fun p => by
    unfold Mounting.leave
    rw [hm.umounts, if_pos rfl]
  unfold probeRootCandidate
  dsimp only
  rw [if_neg (by rw [hfs]; decide), if_neg (by rw [hm.mkdir]; decide),
    if_neg (by rw [hm.notBusy]; exact Bool.false_ne_true), if_neg hnot,
    if_neg (by rw [hm.mounts]; decide)]
  cases ht : h.test ⟨device, subvolid⟩ with
  | broken => exact absurd ht hp.test
  | noRoot => exact hleave _
  | root =>
    unfold Filesystems.given
    dsimp only
    rw [if_pos rfl]
    by_cases hd : fs = btrfs ∧ subvolid = none
    · rw [if_pos hd, if_pos hd]
      cases hdef : h.defaultSubvolid device with
      | none => exact absurd hdef (hp.default hd.1 hd.2 ht)
      | some id => exact hleave _
    · rw [if_neg hd, if_neg hd]
      exact hleave _

lemma mem_sortUnique {ids : List ℕ} {id : ℕ} : id ∈ sortUnique ids ↔ id ∈ ids := by
  unfold sortUnique
  rw [List.mem_dedup, List.mem_mergeSort]

lemma sortUnique_nil : sortUnique [] = [] := by
  unfold sortUnique
  rw [List.mergeSort_nil, List.dedup_nil]

/-- The result of a probe that gets to its end. -/
lemma result_of_probed {h : Filesystems} {device fs : Str} {subvolid : Option ℕ} (vg : Option Vg)
    (hfs : supportedFstype fs = true) (hp : Probed h fs ⟨device, subvolid⟩) :
    (probeRootCandidate h device fs vg subvolid).result =
      (if h.test ⟨device, subvolid⟩ = .root then
        [⟨device, fs, vg, h.given fs ⟨device, subvolid⟩⟩] else [], false) := by
  rw [probe_of_probed vg hfs hp]
  split
  · rfl
  · rfl

lemma given_some (h : Filesystems) (device fs : Str) (id : ℕ) :
    h.given fs ⟨device, some id⟩ = some id :=
  if_neg fun hd => by cases hd.2

lemma probeSubvolumes_of_probed {h : Filesystems} {device fs : Str} (vg : Option Vg) {ids : List ℕ}
    (hfs : supportedFstype fs = true) (hp : ∀ id ∈ ids, 0 < id ∧ Probed h fs ⟨device, some id⟩) :
    probeSubvolumes h device fs vg ids =
      ((ids.filter fun id => h.test ⟨device, some id⟩ = .root).map fun id => ⟨device, fs, vg,
        some id⟩, false) := by
  have hpos : ids.filter (0 < ·) = ids := List.filter_eq_self.mpr fun id hid =>
    decide_eq_true (hp id hid).1
  unfold probeSubvolumes
  rw [hpos]
  induction ids with
  | nil => rfl
  | cons id ids ih =>
    obtain ⟨-, hprobed⟩ := hp id List.mem_cons_self
    have hp' := fun x hx => hp x (List.mem_cons_of_mem _ hx)
    have ih := ih hp' (List.filter_eq_self.mpr fun x hx => decide_eq_true (hp' x hx).1)
    rw [List.map_cons, gather_cons, ih, result_of_probed vg hfs hprobed]
    by_cases hroot : h.test ⟨device, some id⟩ = .root
    · rw [List.filter_cons_of_pos (by simpa using hroot), if_pos hroot, given_some]
      rfl
    · rw [List.filter_cons_of_neg (by simpa using hroot), if_neg hroot]
      rfl

/-- **A device that is examined** gives its roots, and no failure. -/
theorem examine_of_examined {h : Filesystems} {device fs : Str} (vg : Option Vg)
    (he : Examined h device fs) :
    examine h device fs vg = (rootsOf h device fs vg, false) := by
  unfold examine rootsOf
  by_cases hfs : supportedFstype fs = false
  · -- such a filesystem is no btrfs, and is not mounted
    have hbtrfs : fs ≠ btrfs := by
      rintro rfl
      exact absurd hfs (by decide)
    have habsent : probeRootCandidate h device fs vg none = .absent := by
      unfold probeRootCandidate
      rw [if_pos hfs]
    rw [if_neg hbtrfs, if_pos hfs, habsent]
    rfl
  · have hfs' : supportedFstype fs = true := by rwa [Bool.not_eq_false] at hfs
    obtain ⟨hdefault, hrest⟩ := he hfs'
    rw [if_neg hfs]
    by_cases hbtrfs : fs = btrfs
    · rw [if_pos hbtrfs, probe_of_probed vg hfs' hdefault]
      by_cases hroot : h.test ⟨device, none⟩ = .root
      · rw [if_pos hroot, if_pos hroot]
      · obtain ⟨hlist, ids, hids, hall⟩ := hrest hbtrfs hroot
        have hlisting : btrfsSubvolumeIds h device = if ids = [] then
          .empty else .ids (sortUnique ids) := by
          unfold btrfsSubvolumeIds
          dsimp only
          rw [if_neg (by rw [hlist.mkdir]; decide),
            if_neg (by rw [hlist.notBusy]; exact Bool.false_ne_true),
            if_neg (by rw [hlist.mounts]; decide), hids]
          dsimp only
          rw [if_neg (not_not.mpr fun id hid => (hall id hid).1),
            if_neg (by rw [hlist.umounts]; decide)]
        rw [if_neg hroot, if_neg hroot, if_pos hbtrfs, hids, hlisting, Option.getD_some]
        by_cases hempty : ids = []
        · rw [if_pos hempty, hempty, sortUnique_nil]
          rfl
        · rw [if_neg hempty]
          exact probeSubvolumes_of_probed vg hfs' fun id hid => hall id (mem_sortUnique.mp hid)
    · rw [if_neg hbtrfs, result_of_probed vg hfs' hdefault, if_neg hbtrfs]

end Pxeos.Linux
