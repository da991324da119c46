import Pxeos.Lib.Script
import Pxeos.Linux.VolumeGroup
import Pxeos.CloudInit.Resolve

/-!
# The mounts of an installation

`rootpxe_cloud_init_process_root` of `cloud-init.sh` and what it calls: the root of the target is
mounted, and `/usr` and `/var` if its `fstab` has them as filesystems of their own; the groups of
their volumes are activated when they have to be, and in the end all of this is taken back.
Whatever the functions ask or do is a call, and every call can fail.
-/

namespace Pxeos.CloudInit

open Pxeos.Lib
open Pxeos.Linux (Vg Candidate Row wordOf countStates validateVgName safeIdentifier btrfs)

/-! ### The calls -/

/-- `ro` or `rw`. -/
inductive Mode where
  | ro
  | rw
  deriving DecidableEq, Repr

def Mode.text : Mode → Str
  | .ro => "ro".toList
  | .rw => "rw".toList

/-- The directories that can have a filesystem of their own. -/
inductive Requested where
  | usr
  | var
  deriving DecidableEq, Repr

def Requested.path : Requested → Str
  | .usr => "/usr".toList
  | .var => "/var".toList

/-- A row of `lvs -o lv_path,lv_name,vg_name,vg_uuid`. -/
structure LvRow where
  path : Str
  name : Str
  vg : Vg
  deriving DecidableEq, Repr

/-- Commands and tests of which only the status is used. -/
inductive Test where
  /-- `rootpxe_verify_disk_permit_binding disk deploy_write`. -/
  | verifyPermit (disk : Str)
  /-- `rootpxe_linux_validate_vg_target_pvs`. -/
  | validatePvs (disk uuid : Str)
  /-- `rootpxe_ci_safe_write_directory`, which creates nothing. -/
  | directorySafe (root relative : Str)
  /-- `rootpxe_ci_metadata_safe`. -/
  | metadataSafe (path : Str) (kind : Kind)
  | isBlock (path : Str)
  | isMountpoint (path : Str)
  /-- `mktemp` for the rows of a report. -/
  | rowsFile
  /-- `[[ -b path && -r path ]]`. -/
  | isReadable (path : Str)
  /-- `[[ -e path || -L path ]]`. -/
  | isPresent (path : Str)
  /-- `[[ -d path && ! -L path ]]`. -/
  | isDirectory (path : Str)
  | mkdir (path : Str)
  | rmdir (path : Str)
  deriving DecidableEq, Repr

/-- Commands of which the output is used, if they succeed. -/
inductive Query where
  /-- `readlink -f`. -/
  | readlink (path : Str)
  /-- `blkid -U`. -/
  | deviceOfUuid (uuid : Str)
  /-- `blkid -t PARTUUID=… -o device`. -/
  | deviceOfPartuuid (uuid : Str)
  /-- `blkid -s TYPE -o value`. -/
  | fsType (device : Str)
  /-- `blkid -p -o value -s TYPE`. -/
  | probedType (device : Str)
  /-- `stat -c %d`. -/
  | device (path : Str)
  /-- `stat -c %r`. -/
  | rdev (device : Str)
  /-- `findmnt --mountpoint … -o OPTIONS`. -/
  | options (path : Str)
  /-- `findmnt -S … -o TARGET`. -/
  | targets (device : Str)
  /-- `mktemp -d /tmp/rootpxe-cloud-mount.XXXXXX`. -/
  | mktemp
  deriving DecidableEq, Repr

inductive Call where
  | test (t : Test)
  | query (q : Query)
  /-- `getPartitions`. -/
  | partitions (disk : Str)
  /-- `lvs`, of which the report has to have the expected form. -/
  | lvs
  /-- The text of `/etc/fstab`. -/
  | fstab (root : Str)
  | mount (fs options device path : Str)
  | umount (path : Str)
  /-- The groups of a physical volume, in a report of the expected form. -/
  | pvs (part : Str)
  /-- The rows of a group in a report of the expected form. -/
  | groupRows (vg : Vg)
  /-- `vgchange -ay`. -/
  | activate (vg : Vg)
  /-- `vgchange -an`. -/
  | deactivate (vg : Vg)
  /-- `rootpxe_linux_has_safe_root_structure`. -/
  | rootStructure (root : Str)
  /-- `rootpxe_ci_readonly_preflight`. -/
  | preflight (root : Str)
  /-- `rootpxe_cloud_init_install_at_root`. -/
  | install (root : Str)
  /-- `btrfs subvolume get-default`. -/
  | defaultSubvolid (path : Str)
  /-- The numbers that `btrfs subvolume list` gives, with the temporary files for them. -/
  | subvolumes (path : Str)
  deriving DecidableEq, Repr

/-- What is answered: a status, or what was printed; a preflight or an installation that fails
leaves its error. -/
def Answer : Call → Type
  | .test _ => Bool
  | .query _ => Option Str
  | .partitions _ => List Str
  | .lvs => Option (List LvRow)
  | .fstab _ => Str
  | .mount .. => Bool
  | .umount _ => Bool
  | .pvs _ => Option (List Vg)
  | .groupRows _ => Option (List Row)
  | .activate _ => Bool
  | .deactivate _ => Bool
  | .rootStructure _ => ℕ
  | .preflight _ => Option Str
  | .install _ => Option Str
  | .defaultSubvolid _ => Option ℕ
  | .subvolumes _ => Option (List ℕ)

/-- `ci_owned_mounts`, the groups of the three arrays `ci_vg_names`, `ci_vg_uuids` and
`ci_vg_owned`, `ci_mounted_root`, and `rootpxe_cloud_init_error`. -/
structure Vars where
  ownedMounts : List Str
  ownedGroups : List Vg
  mountedRoot : Str
  error : Str
  deriving DecidableEq, Repr

abbrev Shell (α : Type) : Type := Script Call Answer Vars α

def test (t : Test) : Shell Bool := Script.ask (Call.test t)

def query (q : Query) : Shell (Option Str) := Script.ask (Call.query q)

/-- `test || return 1`. -/
def require (t : Test) : Shell Unit := do
  if ← test t then pure () else Script.exit 1

/-- `text=$(query) || return 1`. -/
def demand (q : Query) : Shell Str := do
  match ← query q with
  | some text => pure text
  | none => Script.exit 1

/-- `[[ … ]] || return 1`. -/
def orReturn (ok : Bool) : Shell Unit := if ok then pure () else Script.exit 1

/-! ### The activation of a group -/

/-- `rootpxe_linux_lvs_for_vg_json`. -/
def linuxLvsForVgJson (vg : Vg) : Shell (List Row) := do
  orReturn (validateVgName vg.name && safeIdentifier vg.uuid)
  let report : Option (List Row) ← (Script.ask (Call.groupRows vg) : Shell (Answer _))
  match report with
  | some rows => do
    orReturn (rows != [])
    pure rows
  | none => Script.exit 1

/-- `vgchange -an … || true; return 1`. -/
def rollBack (vg : Vg) : Shell Bool := do
  let _ : Bool ← (Script.ask (Call.deactivate vg) : Shell (Answer _))
  Script.exit 1

/-- The loop over the rows behind an activation. -/
def allReadable : List Row → Shell Bool
  | [] => pure true
  | row :: rows =>
    if row.state = "active".toList then do
      if ← test (.isReadable row.path) then allReadable rows else pure false
    else pure false

/-- What follows `vgchange -ay`. -/
def confirmActivation (vg : Vg) (ok : Bool) : Shell Bool :=
  if ok then do
    match ← Script.attempt (linuxLvsForVgJson vg) with
    | .ok rows => if ← allReadable rows then pure true else rollBack vg
    | .error _ => rollBack vg
  else rollBack vg

/-- `rootpxe_linux_activate_vg_if_needed`, which prints whether it has activated the group. -/
def linuxActivateVgIfNeeded (disk : Str) (vg : Vg) : Shell Bool := do
  if ← test (.validatePvs disk vg.uuid) then pure () else Script.exit 2
  require .rowsFile
  let rows ← linuxLvsForVgJson vg
  match countStates rows with
  | none => Script.exit 1
  | some (inactive, active) =>
    if inactive = rows.length then do
      let ok : Bool ← (Script.ask (Call.activate vg) : Shell (Answer _))
      confirmActivation vg ok
    else if active = rows.length then pure false
    else Script.exit 1

/-! ### Devices -/

def isDevice (path : Str) : Bool := "/dev/".toList.isPrefixOf path

/-- `rootpxe_ci_device_is_block`. -/
def ciDeviceIsBlock (path : Str) : Shell Bool :=
  if isDevice path then test (.isBlock path) else pure false

/-- The identifier of a source, without quotes around it. -/
def identifierOf (source : Str) : Str :=
  let identifier := (source.dropWhile (· ≠ '=')).drop 1
  if 2 ≤ identifier.length ∧ identifier.head? = some '"' ∧ identifier.getLast? = some '"' then
    (identifier.drop 1).dropLast else identifier

def uuidKey : Str := "UUID=".toList
def partuuidKey : Str := "PARTUUID=".toList

/-- The device that a source names, before its links are followed. -/
def sourceDevice (source : Str) : Shell Str := do
  if uuidKey.isPrefixOf source || partuuidKey.isPrefixOf source then do
    orReturn (identifierOf source != [] && wordOf "._:-".toList (identifierOf source))
    let device ← query (if uuidKey.isPrefixOf source then .deviceOfUuid (identifierOf source)
      else .deviceOfPartuuid (identifierOf source))
    match device with
    | some device => pure device
    | none => Script.exit 2
  else do
    orReturn (isDevice source)
    pure source

/-- `rootpxe_ci_fstab_device`. -/
def ciFstabDevice (source : Str) : Shell Str := do
  let device ← sourceDevice source
  orReturn (isDevice device && !device.contains '\n' && !device.contains '\r')
  match ← query (.readlink device) with
  | some resolved => do
    if ← ciDeviceIsBlock resolved then pure resolved else Script.exit 2
  | none => Script.exit 2

/-- A group that this run has activated is remembered. -/
def keepGroup (vg : Vg) (owned : Bool) : Shell Unit :=
  if owned then Script.set fun v => { v with ownedGroups := v.ownedGroups ++ [vg] } else pure ()

/-- The loop over the rows of `lvs`: the group of the volumes that are the device, if it is only
one. -/
def matchingGroup (device : Str) : List LvRow → Option Vg → Shell (Option Vg)
  | [], selected => pure selected
  | row :: rows, selected => do
    orReturn (row.path != [] && row.vg.name != [] && row.vg.uuid != [])
    match ← query (.readlink row.path) with
    | none => matchingGroup device rows selected
    | some resolved =>
      if resolved ≠ device then matchingGroup device rows selected
      else do
        orReturn (selected.all (· == row.vg))
        matchingGroup device rows (some row.vg)

/-- The partitions of a disk are compared with the device; the function returns when one of them is
it. -/
def comparePartitions (device : Str) (parts : List Str) : Shell Unit :=
  Script.forEach parts fun part => do
    let resolved ← demand (.readlink part)
    if resolved = device then Script.exit 0 else pure ()

/-- The loop over the disks. -/
def searchPartitions (allowed : List Str) (device : Str) : Shell Unit :=
  Script.forEach allowed fun disk => do
    require (.verifyPermit disk)
    let parts : List Str ← (Script.ask (Call.partitions disk) : Shell (Answer _))
    comparePartitions device parts

/-- `rootpxe_ci_device_permitted`. -/
def ciDevicePermitted (allowed : List Str) (device : Str) : Shell Unit := do
  searchPartitions allowed device
  let report : Option (List LvRow) ← (Script.ask Call.lvs : Shell (Answer _))
  match report with
  | none => Script.exit 1
  | some rows => do
    let selected ← matchingGroup device rows none
    match selected, allowed with
    | some vg, disk :: _ => do
      require (.validatePvs disk vg.uuid)
      match ← Script.attempt (linuxActivateVgIfNeeded disk vg) with
      | .ok owned => keepGroup vg owned
      | .error _ => Script.exit 1
    | _, _ => Script.exit 1

/-- `rootpxe_ci_mount_matches`. -/
def ciMountMatches (path device : Str) (mode : Mode) : Shell Unit := do
  let device ← demand (.readlink device)
  orReturn (← ciDeviceIsBlock device)
  let actual ← demand (.device path)
  let expected ← demand (.rdev device)
  orReturn (actual == expected)
  let options ← demand (.options path)
  orReturn (afterFirst (',' :: mode.text ++ [',']) (',' :: options ++ [','])).isSome

/-- `rootpxe_linux_mount_options`. -/
def linuxMountOptions (mode : Mode) (fstype : Str) (subvolid : Option ℕ) : Option Str :=
  if fstype = "xfs".toList then
    match mode with
    | .ro => some "ro,nouuid,norecovery".toList
    | .rw => some (mode.text ++ ",nouuid".toList)
  else if fstype = "ext3".toList ∨ fstype = "ext4".toList then
    match mode with
    | .ro => some "ro,noload".toList
    | .rw => some mode.text
  else if fstype = btrfs then
    if subvolid = some 0 then none
    else
      let options := match mode with
        | .ro => "ro,nologreplay".toList
        | .rw => "rw".toList
      match subvolid with
      | none => some options
      | some id => some (options ++ ",subvolid=".toList ++ Nat.toDigits 10 id)
  else some mode.text

/-- `ext2|ext3|ext4|xfs`. -/
def supported (fs : Str) : Bool :=
  ["ext2".toList, "ext3".toList, "ext4".toList, "xfs".toList].contains fs

/-- A filesystem is mounted and remembered, and looked at. -/
def mountAt (fs device path : Str) (mode : Mode) : Shell Unit :=
  match linuxMountOptions mode fs none with
  | none => Script.exit 1
  | some options => do
    let ok : Bool ← (Script.ask (Call.mount fs options device path) : Shell (Answer _))
    orReturn ok
    Script.set fun v => { v with ownedMounts := v.ownedMounts ++ [path] }

/-! ### The filesystems of the target -/

/-- The body of the loop over `/etc/fstab`, with the source and the type of the line that was
selected. -/
def fstabStep (requested : Requested) (selected : Option (Str × Str)) (line : Str) :
    Option (Option (Str × Str)) :=
  let words := blankFields line
  let source := words.getD 0 []
  let target := words.getD 1 []
  let declared := words.getD 2 []
  let options := words.getD 3 []
  if source = [] ∨ source.head? = some '#' then some selected
  else if "/usr/".toList <+: target then none
  else if requested = .var ∧
    ("/var/".toList <+: target ∨ target = "/etc".toList ∨ target = "/etc/cloud".toList ∨
      "/etc/cloud/".toList <+: target) then none
  else if target ≠ requested.path then some selected
  else if selected.isSome ∨ declared = [] ∨ options = [] then none
  else some (some (source, declared))

/-- The line for a directory in `/etc/fstab`. -/
def fstabEntry (root : Str) (requested : Requested) : Shell (Option (Str × Str)) := do
  if ← test (.isPresent (root ++ "/etc/fstab".toList)) then do
    require (.directorySafe root "/etc".toList)
    require (.metadataSafe (root ++ "/etc/fstab".toList) .file)
    let text : Str ← (Script.ask (Call.fstab root) : Shell (Answer _))
    match (endedLines text).foldlM (fstabStep requested) none with
    | some selected => pure selected
    | none => Script.exit 1
  else pure none

/-- `/dev/mapper/…`. -/
def mapperPath (row : LvRow) : Str :=
  let escape (s : Str) : Str := s.flatMap fun c => if c = '-' then ['-', '-'] else [c]
  "/dev/mapper/".toList ++ escape row.vg.name ++ '-' :: escape row.name

/-- The rows whose volume could be the source. -/
def candidateRows (source : Str) (rows : List LvRow) : List LvRow :=
  rows.filter fun row => uuidKey.isPrefixOf source || row.path == source || mapperPath row == source

/-- The loop over the groups: they are activated one after another until the source is there. -/
def tryGroups (disk source : Str) : List LvRow → List Str → Shell (Option Str)
  | [], _ => pure none
  | row :: rows, attempted =>
    if row.vg.uuid ∈ attempted then tryGroups disk source rows attempted
    else do
      match ← Script.attempt (linuxActivateVgIfNeeded disk row.vg) with
      | .error 2 => tryGroups disk source rows (row.vg.uuid :: attempted)
      | .error _ => Script.exit 1
      | .ok owned => do
        keepGroup row.vg owned
        match ← Script.attempt (ciFstabDevice source) with
        | .ok device => pure (some device)
        | .error _ => tryGroups disk source rows (row.vg.uuid :: attempted)

/-- The device of a source; a group may have to be activated for it. -/
def deviceOf (allowed : List Str) (source : Str) : Shell Str := do
  match ← Script.attempt (ciFstabDevice source) with
  | .ok device => pure device
  | .error rc =>
    match allowed with
    | [] => Script.exit 1
    | disk :: _ => do
      orReturn (rc == 2 && !partuuidKey.isPrefixOf source)
      let report : Option (List LvRow) ← (Script.ask Call.lvs : Shell (Answer _))
      let rows := report.getD []
      orReturn (report.isSome && rows.all fun row => row.vg.name != [] && row.vg.uuid != [])
      match ← tryGroups disk source (candidateRows source rows) [] with
      | some device => pure device
      | none => Script.exit 1

/-- The directories below `/var` that must not be mounted. -/
def varPaths : List Str :=
  ["/var/lib".toList, "/var/lib/cloud".toList, "/var/lib/cloud/seed".toList,
    "/var/lib/cloud/seed/nocloud".toList]

/-- `! mountpoint -q path`, or else `return 1`. -/
def requireUnmounted (path : Str) : Shell Unit := do
  if ← test (.isMountpoint path) then Script.exit 1 else pure ()

/-- What is done for the line that was selected. -/
def mountEntry (allowed : List Str) (path : Str) (mode : Mode) : Option (Str × Str) → Shell Unit
  | none => requireUnmounted path
  | some (source, declared) => do
    let device ← deviceOf allowed source
    orReturn ((← Script.status (ciDevicePermitted allowed device)) == 0)
    let fs ← demand (.fsType device)
    orReturn (fs == declared && supported fs)
    if ← test (.isMountpoint path) then pure ()
    else mountAt fs device path mode
    ciMountMatches path device mode

/-- `rootpxe_ci_mount_fstab`. -/
def ciMountFstab (allowed : List Str) (root : Str) (requested : Requested) (mode : Mode) :
    Shell Unit := do
  require (.directorySafe root requested.path)
  if requested = .var then Script.forEach varPaths fun path => requireUnmounted (root ++ path)
  else pure ()
  let entry ← fstabEntry root requested
  mountEntry allowed (root ++ requested.path) mode entry

/-- `rootpxe_ci_mount_root`. -/
def ciMountRoot (device fs work : Str) (mode : Mode) : Shell Unit := do
  let borrowed := (← query (.targets device)).getD []
  if borrowed ≠ [] then do
    orReturn (!borrowed.contains '\n')
    require (.metadataSafe borrowed .directory)
    orReturn ((← Script.status (ciMountMatches borrowed device mode)) == 0)
    Script.set fun v => { v with mountedRoot := borrowed }
  else do
    let root := work ++ "/root".toList
    if ← test (.isPresent root) then Script.exit 1 else pure ()
    require (.mkdir root)
    mountAt fs device root mode
    Script.set fun v => { v with mountedRoot := root }
    ciMountMatches root device mode

/-! ### What is taken back -/

/-- The first loop of `rootpxe_ci_cleanup_mounts`, over the mounts from the last on: it stops at one
that cannot be undone. -/
def unmountAll : List Str → Shell Bool
  | [] => pure true
  | path :: paths => do
    let ok : Bool ← (Script.ask (Call.umount path) : Shell (Answer _))
    if ok then do
      Script.set fun v => { v with ownedMounts := v.ownedMounts.dropLast }
      unmountAll paths
    else pure false

/-- `rootpxe_linux_cleanup_selected_vg`, of a group that was activated. -/
def cleanupSelectedVg (vg : Vg) : Shell Bool :=
  if vg.name ≠ [] ∧ vg.uuid ≠ [] then (Script.ask (Call.deactivate vg) : Shell (Answer _))
  else pure true

/-- The second loop, over the first `n` groups from the last on. -/
def releaseGroups : ℕ → Shell Bool
  | 0 => pure true
  | n + 1 => do
    let v ← Script.vars
    let ok ← match v.ownedGroups[n]? with
      | some vg => cleanupSelectedVg vg
      | none => pure true
    if ok then Script.set fun v => { v with ownedGroups := v.ownedGroups.eraseIdx n } else pure ()
    let others ← releaseGroups n
    pure (ok && others)

/-- `rootpxe_ci_cleanup_mounts`. -/
def ciCleanupMounts : Shell Unit := do
  let v ← Script.vars
  orReturn (← unmountAll v.ownedMounts.reverse)
  orReturn (← releaseGroups v.ownedGroups.length)

/-- `rootpxe_ci_workspace_remove`. -/
def ciWorkspaceRemove (work : Str) : Shell Unit := do
  orReturn ("/tmp/rootpxe-cloud-mount.".toList.isPrefixOf work)
  require (.isDirectory work)
  Script.forEach [work ++ "/root".toList, work ++ "/probe".toList] fun directory => do
    if ← test (.isPresent directory) then do
      require (.isDirectory directory)
      requireUnmounted directory
      require (.rmdir directory)
    else pure ()
  require (.rmdir work)

/-! ### The processing of a root -/

/-- `local -a ci_owned_mounts=() …`. -/
def localArrays : Shell Unit :=
  Script.set fun v => { v with ownedMounts := [], ownedGroups := [], mountedRoot := [] }

/-- `if [[ $result -eq 0 ]]; then step || result=1; fi`. -/
def andThen (ok : Bool) (step : Shell Unit) : Shell Bool :=
  if ok then do pure ((← Script.status step) == 0) else pure false

/-- The group of the root is activated. -/
def openGroup (disk : Str) : Option Vg → Shell Bool
  | none => pure true
  | some vg => do
    match ← Script.attempt (linuxActivateVgIfNeeded disk vg) with
    | .ok owned => do
      keepGroup vg owned
      pure true
    | .error _ => pure false

/-- `rootpxe_cloud_init_error=…; return 1`. -/
def failWith {α : Type} (code : Str) : Shell α := do
  Script.set fun v => { v with error := code }
  Script.exit 1

/-- What is done with the mounted root. -/
def workOn (mode : Mode) : Shell Unit := do
  let v ← Script.vars
  let failure : Option Str ← match mode with
    | .ro => (Script.ask (Call.preflight v.mountedRoot) : Shell (Answer _))
    | .rw => do
      Script.set fun v => { v with error := [] }
      (Script.ask (Call.install v.mountedRoot) : Shell (Answer _))
  match failure with
  | none => pure ()
  | some code => failWith code

/-- The steps between the creation of the working directory and the cleaning. -/
def mountAndWork (allowed : List Str) (disk : Str) (c : Candidate) (mode : Mode) (work : Str) :
    Shell Bool := do
  let ok ← openGroup disk c.vg
  let ok ← andThen ok (ciMountRoot c.device c.fstype work mode)
  let v ← Script.vars
  let ok ← andThen ok (ciMountFstab allowed v.mountedRoot .usr .ro)
  let v ← Script.vars
  let ok ← andThen ok (ciMountFstab allowed v.mountedRoot .var mode)
  andThen ok (workOn mode)

/-- `rootpxe_cloud_init_error=…` when a step of the cleaning fails. -/
def cleaning (step : Shell Unit) (code : String) : Shell Bool := do
  if (← Script.status step) = 0 then pure true
  else do
    Script.set fun v => { v with error := code.toList }
    pure false

/-- The root is a device without subvolumes, with a filesystem that is supported. -/
def isSupportedRoot (c : Candidate) : Bool :=
  isDevice c.device && c.subvolid.isNone && supported c.fstype

/-- `rootpxe_cloud_init_process_root`. -/
def processRoot (allowed : List Str) (disk : Str) (c : Candidate) (mode : Mode) : Shell Unit := do
  localArrays
  orReturn (isSupportedRoot c)
  require (.verifyPermit disk)
  let work ← demand .mktemp
  let done ← mountAndWork allowed disk c mode work
  let cleaned ← cleaning ciCleanupMounts "cloud_init_mount_cleanup_failed"
  let removed ← cleaning (ciWorkspaceRemove work) "cloud_init_probe_cleanup_failed"
  orReturn (done && cleaned && removed)

/-- `rootpxe_cloud_init_probe_root_marker`. -/
def probeRootMarker (allowed : List Str) (root : Str) : Shell Unit := do
  localArrays
  let found : ℕ ← (Script.ask (Call.rootStructure root) : Shell (Answer _))
  if found = 0 then pure ()
  else do
    orReturn (found == 2)
    let mounted ← Script.status (ciMountFstab allowed root .usr .ro)
    let result ←
      if mounted = 0 then do
        let again : ℕ ← (Script.ask (Call.rootStructure root) : Shell (Answer _))
        pure (if again = 0 then 0 else 1)
      else pure 2
    if (← Script.status ciCleanupMounts) = 0 then
      if result = 0 then pure () else Script.exit result
    else Script.exit 2

end Pxeos.CloudInit
