import Pxeos.CloudInit.Mounts
import Pxeos.Linux.RootSearch

/-!
# The search for a root, call by call

`rootpxe_find_linux_root_filesystem` of `funcs.sh` and the probes that it makes, as a script.  Where
the function of `Pxeos.Linux.RootSearch` gives the result for the outcomes of the commands, the
script makes the calls themselves, those of the test for a root among them: this test mounts a
filesystem and activates groups on its own.
-/

namespace Pxeos.CloudInit

open Pxeos.Lib
open Pxeos.Linux (Vg Candidate Row Marker btrfs supportedFstype lvmMember sortUnique)

/-! ### The probe -/

/-- Where filesystems are probed: the mount point, whether the caller has given it, and the disks of
the task if the search is one for cloud-init. -/
structure Place where
  dir : Str
  isPrivate : Bool
  allowed : Option (List Str)

/-- The status of a mount that fails. -/
def Place.failure (p : Place) (fs : Str) : ℕ := if fs = btrfs ∨ p.isPrivate = true then 3 else 1

/-- `umount … || return 2`. -/
def umountProbe (p : Place) : Shell Unit := do
  let ok : Bool ← (Script.ask (Call.umount p.dir) : Shell (Answer _))
  if ok then pure () else Script.exit 2

/-- The mount point is made, and nothing is mounted there. -/
def freePlace (p : Place) (failure : ℕ) : Shell Unit := do
  if ← test (.mkdir p.dir) then pure () else Script.exit failure
  if ← test (.isMountpoint p.dir) then
    if p.isPrivate then Script.exit 2 else umountProbe p
  else pure ()

def mountProbe (p : Place) (device fs : Str) (subvolid : Option ℕ) (failure : ℕ) : Shell Unit :=
  match linuxMountOptions .ro fs subvolid with
  | none => Script.exit failure
  | some options => do
    let ok : Bool ← (Script.ask (Call.mount fs options device p.dir) : Shell (Answer _))
    if ok then pure () else Script.exit failure

/-- The test for a root; for cloud-init it may need a separate `/usr`. -/
def lookForRoot (p : Place) : Shell Marker :=
  match p.isPrivate, p.allowed with
  | true, some allowed => do
    match ← Script.status (probeRootMarker allowed p.dir) with
    | 0 => pure .root
    | 1 => pure .noRoot
    | _ => pure .broken
  | _, _ => do
    let found : ℕ ← (Script.ask (Call.rootStructure p.dir) : Shell (Answer _))
    pure (if found = 0 then .root else .noRoot)

/-- The subvolume of a root: the default one if none was asked for. -/
def rootSubvolid (p : Place) (fs : Str) (subvolid : Option ℕ) : Shell (Option ℕ) :=
  if fs = btrfs ∧ subvolid = none then do
    let default : Option ℕ ← (Script.ask (Call.defaultSubvolid p.dir) : Shell (Answer _))
    match default with
    | some id => pure (some id)
    | none => do
      umountProbe p
      Script.exit 3
  else pure subvolid

/-- What is done by the outcome of the test. -/
def endProbe (p : Place) (device fs : Str) (vg : Option Vg) (subvolid : Option ℕ) :
    Marker → Shell Candidate
  | .broken => do
    umountProbe p
    Script.exit 3
  | .noRoot => do
    umountProbe p
    Script.exit 1
  | .root => do
    let subvolid ← rootSubvolid p fs subvolid
    umountProbe p
    pure ⟨device, fs, vg, subvolid⟩

/-- `rootpxe_linux_probe_root_candidate`. -/
def linuxProbeRootCandidate (p : Place) (device fs : Str) (vg : Option Vg) (subvolid : Option ℕ) :
    Shell Candidate := do
  orReturn (supportedFstype fs)
  freePlace p (if p.isPrivate then 3 else 1)
  mountProbe p device fs subvolid (p.failure fs)
  let etc ← test (.isDirectory (p.dir ++ "/etc".toList))
  let marker ← if etc then lookForRoot p else pure .noRoot
  endProbe p device fs vg subvolid marker

/-- `rootpxe_linux_btrfs_subvolume_ids`. -/
def linuxBtrfsSubvolumeIds (p : Place) (device : Str) : Shell (List ℕ) := do
  freePlace p 3
  mountProbe p device btrfs none 3
  let rows : Option (List ℕ) ← (Script.ask (Call.subvolumes p.dir) : Shell (Answer _))
  umountProbe p
  match rows with
  | none => Script.exit 3
  | some ids =>
    if ids.all (0 < ·) then do
      orReturn (ids != [])
      pure (sortUnique ids)
    else Script.exit 3

/-! ### A device -/

/-- The variables of the search. -/
structure Hunt where
  lvmParts : List Str
  seen : List Str
  activated : List Vg
  candidates : List Candidate
  probeFailed : Bool
  crossDisk : Bool
  lvmFailed : Bool

def Hunt.start : Hunt := ⟨[], [], [], [], false, false, false⟩

def Hunt.add (s : Hunt) (c : Candidate) : Hunt := { s with candidates := s.candidates ++ [c] }

def Hunt.failProbe (s : Hunt) : Hunt := { s with probeFailed := true }

def Hunt.failLvm (s : Hunt) : Hunt := { s with lvmFailed := true }

/-- A probe gives a candidate, nothing, or a failure. -/
def probeTurn (p : Place) (device fs : Str) (vg : Option Vg) (subvolid : Option ℕ) (s : Hunt) :
    Shell Hunt := do
  match ← Script.subshell (linuxProbeRootCandidate p device fs vg subvolid) with
  | .ok c => pure (s.add c)
  | .error 1 => pure s
  | .error _ => pure s.failProbe

/-- The subvolumes of a btrfs filesystem whose default one is no root. -/
def probeSubvolumes (p : Place) (device : Str) (vg : Option Vg) (s : Hunt) : Shell Hunt := do
  match ← Script.subshell (linuxBtrfsSubvolumeIds p device) with
  | .ok ids =>
    Script.foldEach (fun id s => probeTurn p device btrfs vg (some id) s) (ids.filter (0 < ·)) s
  | .error 2 => pure s.failProbe
  | .error 3 => pure s.failProbe
  | .error _ => pure s

/-- The part of the search for a device with a filesystem. -/
def examineDevice (p : Place) (device fs : Str) (vg : Option Vg) (s : Hunt) : Shell Hunt :=
  if fs = btrfs then do
    match ← Script.subshell (linuxProbeRootCandidate p device fs vg none) with
    | .ok c => pure (s.add c)
    | .error 1 => probeSubvolumes p device vg s
    | .error _ => pure s.failProbe
  else probeTurn p device fs vg none s

/-! ### The disk -/

/-- The body of the loop over the partitions. -/
def partitionTurn (p : Place) (part : Str) (s : Hunt) : Shell Hunt := do
  match ← query (.probedType part) with
  | none => pure s
  | some fs =>
    if p.allowed.isSome && (fs = btrfs || fs = "f2fs".toList) then pure s.failProbe
    else if fs = lvmMember then pure { s with lvmParts := s.lvmParts ++ [part] }
    else examineDevice p part fs none s

/-- The body of the loop over the logical volumes of a group. -/
def volumeTurn (p : Place) (vg : Vg) (row : Row) (s : Hunt) : Shell Hunt :=
  if row.path = [] then pure s.failLvm
  else do
    match ← query (.probedType row.path) with
    | none => pure s
    | some fs => examineDevice p row.path fs (some vg) s

/-- The logical volumes of a group that is active. -/
def searchVolumes (p : Place) (vg : Vg) (s : Hunt) : Shell Hunt := do
  if ← test .rowsFile then
    match ← Script.attempt (linuxLvsForVgJson vg) with
    | .ok rows => Script.foldEach (volumeTurn p vg) rows s
    | .error _ => pure s.failLvm
  else pure s.failLvm

/-- A group, unless it has been seen. -/
def groupTurn (p : Place) (disk : Str) (vg : Vg) (s : Hunt) : Shell Hunt :=
  if vg.name = [] ∨ vg.uuid = [] ∨ vg.uuid ∈ s.seen then pure s
  else do
    let s := { s with seen := s.seen ++ [vg.uuid] }
    match ← Script.attempt (linuxActivateVgIfNeeded disk vg) with
    | .ok true => searchVolumes p vg { s with activated := s.activated ++ [vg] }
    | .ok false => searchVolumes p vg s
    | .error 2 => pure { s with crossDisk := true }
    | .error _ => pure s.failLvm

/-- The body of the loop over the physical volumes. -/
def pvTurn (p : Place) (disk part : Str) (s : Hunt) : Shell Hunt := do
  let vgs : Option (List Vg) ← (Script.ask (Call.pvs part) : Shell (Answer _))
  match vgs with
  | some vgs => Script.foldEach (groupTurn p disk) vgs s
  | none => pure s.failLvm

/-- The status by the flags and the number of candidates. -/
def Hunt.verdict (s : Hunt) : ℕ :=
  if s.probeFailed then 24
  else
    match s.candidates.length with
    | 1 => 0
    | 0 => if s.crossDisk then 22 else if s.lvmFailed then 23 else 20
    | _ => 21

/-- The last loop: the groups that the search has activated are deactivated. -/
def deactivateActivated (p : Place) : List Vg → ℕ → Shell ℕ
  | [], rc => pure rc
  | vg :: vgs, rc => do
    let ok : Bool ← (Script.ask (Call.deactivate vg) : Shell (Answer _))
    deactivateActivated p vgs (if !ok && p.isPrivate then 23 else rc)

/-- Both loops over the partitions. -/
def hunt (p : Place) (disk : Str) (parts : List Str) : Shell Hunt := do
  let s ← Script.foldEach (partitionTurn p) parts .start
  Script.foldEach (pvTurn p disk) s.lvmParts s

/-- The search of a disk with partitions. -/
def searchDisk (p : Place) (disk : Str) (parts : List Str) : Shell Candidate := do
  let s ← hunt p disk parts
  let rc ← deactivateActivated p s.activated s.verdict
  match rc, s.candidates.getLast? with
  | 0, some c => pure c
  | _, _ => Script.exit rc

/-- `rootpxe_find_linux_root_filesystem`. -/
def findLinuxRootFilesystem (p : Place) (disk : Str) : Shell Candidate :=
  if disk = [] then Script.exit 20
  else do
    let parts : List Str ← (Script.ask (Call.partitions disk) : Shell (Answer _))
    if parts = [] then Script.exit 20 else searchDisk p disk parts

end Pxeos.CloudInit
