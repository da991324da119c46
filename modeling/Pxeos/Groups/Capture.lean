import Pxeos.Groups.Schema

/-!
# The capture of the volume groups

`rootpxe_capture_lvm_volumes` of `funcs.sh` for the groups of a manifest, and the executor
`rootpxe_capture_lvm_volumes_single` as it is called for each of them.  The executor captures into a
directory of its own, moves the files on into one that all groups share, and leaves the schema of
the group beside the manifest.  The files go into the directory of the image when all groups are
captured and their schemas are merged; the schema of all groups goes last.
-/

namespace Pxeos.Groups

open Pxeos.Lib
open Pxeos.Lvm (lvmCaptureLvFactsPrepared)

/-! ### The commands -/

inductive Call where
  /-- `[[ -r … ]]`, of the manifest and of the two files of facts of a group. -/
  | manifestReadable
  | factsReadable (number : Str)
  /-- `rootpxe_lvm_prepare_capture_lv_facts_single`; what the file of the facts holds behind it. -/
  | prepare (lvFacts : Str)
  /-- `[[ -e "$image_path/…" ]]`. -/
  | imageHas (name : Str)
  /-- `mktemp -d "$image_path/.rootpxe-lvm-groups.XXXXXX"` and `chmod 700`. -/
  | makeStage
  | chmodStage
  /-- `[[ -r $fragment ]]`. -/
  | fragmentReadable (number : Str)
  /-- `jq -s 'reduce …' "${fragments[@]}" >"$combined"`. -/
  | merge (numbers : List Str)
  /-- The other commands of `jq` on the schema of all groups; whether they have worked. -/
  | checkCombined
  | listArtifacts
  /-- `[[ -r "$capture_stage/…" ]]`. -/
  | stageReadable (name : Str)
  /-- `mv "$capture_stage/…" "$image_path/…"`, and `mv "$combined" "$image_path/…"`. -/
  | publish (name : Str)
  | commit
  /-- `rootpxe_lvm_cleanup_capture_groups` and `rootpxe_lvm_cleanup_capture_stage`. -/
  | cleanupGroups
  | cleanupStage
  /-- `mktemp`, of the file of the status and of the directory of the executor. -/
  | makeStatusFile
  | makeInner
  /-- `vgchange -ay` with its status, and `vgchange -an`. -/
  | activateVg (uuid name : Str)
  | deactivateVg (uuid name : Str)
  /-- `rootpxe_display_metadata_collect_lvm`. -/
  | displayMetadata
  /-- `pvdisplay -m … >"$stage/…"` and `vgcfgbackup -f "$stage/…"`. -/
  | pvdisplay (path artifact : Str)
  | vgcfgbackup (name artifact : Str)
  /-- `: >"$stage/d1.lvm.capture.tsv"`, `printf … >>` and `rm -f`. -/
  | startRows
  | appendRow (row : Row)
  | removeRows
  /-- `blkid -s UUID` and `blkid -s TYPE`. -/
  | swapUuid (path : Str)
  | fsType (path : Str)
  /-- `rootpxe_xfs_capture_preflight`, with its error. -/
  | xfsPreflight (path : Str)
  /-- `rm -f "$fifo"`. -/
  | removeFifo
  /-- `rootpxe_partclone_progress_prepare`, `_abort` and `_wait`. -/
  | progressPrepare
  | progressAbort
  | progressWait
  /-- `uploadFormat "$fifo" "$stage/…"`: a writer is started. -/
  | uploadFormat (artifact : Str)
  /-- `partclone.xfs` or `partclone.extfs`, from the volume into the fifo. -/
  | partclone (fs path : Str)
  /-- `rootpxe_wait_for_writer`. -/
  | waitForWriter (artifact : Str)
  /-- `mv "$stage/….000" "$stage/…"`. -/
  | finishPayload (artifact : Str)
  /-- `jq -n … >"$stage/d1.lvm.schema.json"` with its status, and `jq -e` on it. -/
  | writeSchema (schema : Schema)
  | checkSchema
  /-- `[[ -e … ]]`, in the directory that the groups share. -/
  | stageHas (name : Str)
  /-- `mv "$stage/…" "$image_path/…"`, into that directory. -/
  | stagePayload (name : Str)
  /-- `[[ -e $fragment ]]`, and `mv "$stage/d1.lvm.schema.json" "$fragment"`. -/
  | fragmentHas (number : Str)
  | writeFragment (number : Str)
  /-- `rm -rf -- "$stage"` and `rm -f -- "$rootpxe_lvm_capture_status_file"`. -/
  | removeInner
  | removeStatusFile
  deriving DecidableEq, Repr

@[reducible] def Call.Value : Call → Type
  | .prepare _ => Option Str
  | .merge _ => Option Schema
  | .activateVg _ _ => ℕ
  | .displayMetadata => ℕ
  | .swapUuid _ => Str
  | .fsType _ => Str
  | .xfsPreflight _ => Option Str
  | .writeSchema _ => ℕ
  | _ => Bool

/-- The rows of the executor, its two flags, what its file of the status holds, and the variables
that outlive it. -/
structure Vars where
  rows : List Row
  vgActive : Bool
  cleanupAttempted : Bool
  note : Option (Str × Str)
  error : Str × Str
  captured : Bool
  deriving DecidableEq, Repr

abbrev Shell (α : Type) : Type := Script Call Call.Value Vars α

def ask (c : Call) : Shell c.Value := Script.ask c

/-- `… || return 1`. -/
def check (b : Bool) : Shell Unit := if b then pure () else Script.exit 1

/-- `printf '%s|%s\n' "$code" "$reason" >"$rootpxe_lvm_capture_status_file"; return 1`. -/
def fail {α : Type} (code reason : Str) : Shell α := do
  Script.set fun v => { v with note := some (code, reason) }
  Script.exit 1

/-- `rm -f "$fifo"` behind such a line. -/
def failCopy (code reason : Str) : Shell Unit := do
  Script.set fun v => { v with note := some (code, reason) }
  let _ ← ask .removeFifo
  Script.exit 1

/-! ### One group -/

/-- `rootpxe_capture_lvm_cleanup_vg`. -/
def cleanupVg (g : Group) : Shell Bool := do
  let v ← Script.vars
  if v.vgActive && !v.cleanupAttempted then do
    Script.set fun v => { v with cleanupAttempted := true }
    let off : Bool ← ask (.deactivateVg g.vgUuid g.vgName)
    if off then do
      Script.set fun v => { v with vgActive := false }
      pure true
    else pure false
  else pure true

def cleanupFailed : Str × Str :=
  ("LVM_CAPTURE_CLEANUP_FAILED".toList, "vg_deactivation_failed".toList)

/-- The subshell, with `rootpxe_capture_lvm_cleanup_exit` behind it. -/
def withCleanup (g : Group) (body : Shell Unit) : Shell Unit := do
  let status ← Script.status body
  let _ ← ask .removeFifo
  let cleaned ← cleanupVg g
  if cleaned then do
    let _ ← ask .removeInner
    if status = 0 then pure () else Script.exit status
  else if status = 0 then do
    Script.set fun v => { v with note := some cleanupFailed }
    let _ ← ask .removeInner
    Script.exit 1
  else do
    let _ ← ask .removeInner
    Script.exit status

/-- `lv_<name>_<what>`. -/
def volumeReason (v : Volume) (what : Str) : Str :=
  "lv_".toList ++ v.name ++ '_' :: what

/-- The test of an XFS volume. -/
def testXfs (v : Volume) : Shell Unit :=
  if v.fs = xfsWord then do
    match ← ask (.xfsPreflight v.path) with
    | none => pure ()
    | some reason => fail "XFS_CAPTURE_PREFLIGHT_FAILED".toList (volumeReason v reason)
  else pure ()

/-- `rm -f "$fifo"`, and the progress is prepared. -/
def prepareFifo : Shell Unit := do
  check (← ask .removeFifo)
  let ready : Bool ← ask .progressPrepare
  if ready then pure ()
  else do
    let _ ← ask .removeFifo
    Script.exit 1

/-- A writer is started. -/
def startWriter (artifact : Str) : Shell Unit := do
  let started : Bool ← ask (.uploadFormat artifact)
  if started then pure ()
  else do
    let _ ← ask .progressAbort
    let _ ← ask .removeFifo
    Script.exit 1

/-- `partclone` reads the volume; the three commands behind it are judged together. -/
def transfer (v : Volume) (artifact : Str) : Shell Unit := do
  let producer : Bool ← ask (.partclone v.fs v.path)
  let decoder : Bool ← ask .progressWait
  let writer : Bool ← ask (.waitForWriter artifact)
  if !producer then failCopy "LVM_LV_PARTCLONE_FAILED".toList (volumeReason v v.fs)
  else if !decoder then
    failCopy "LVM_LV_PARTCLONE_FAILED".toList (volumeReason v (v.fs ++ "_progress".toList))
  else if !writer then failCopy "LVM_LV_WRITER_FAILED".toList (volumeReason v v.fs)
  else pure ()

/-- The image of a volume, through the fifo to the writer. -/
def copyVolume (v : Volume) (artifact : Str) : Shell Unit := do
  testXfs v
  prepareFifo
  startWriter artifact
  transfer v artifact
  check (← ask (.finishPayload artifact))

/-- `printf … >>"$stage/d1.lvm.capture.tsv" || return 1`; the least size of a volume is its size. -/
def appendRow (v : Volume) (artifact swapUuid : Str) : Shell Unit := do
  let row : Row := ⟨v.name, v.uuid, v.size, v.size, v.fs, artifact, swapUuid⟩
  check (← ask (.appendRow row))
  Script.set fun vars => { vars with rows := vars.rows ++ [row] }

/-- The body of the first loop over the facts. -/
def captureVolume (g : Group) (line : Str) : Shell Unit :=
  match readVolume line with
  | none => Script.exit 1
  | some v =>
    if v.fs = swapWord then do
      let uuid : Str ← ask (.swapUuid v.path)
      check (uuid != [])
      appendRow v [] uuid
    else do
      let artifact := lvArtifact g.number v.name
      check (Capture.rootpxeSafeRelativePath artifact).isSome
      copyVolume v artifact
      appendRow v artifact []

/-- The body of the second loop, in which the filesystem is looked up again. -/
def stageVolume (g : Group) (line : Str) : Shell Unit := do
  let fields := line.splitOn '|'
  let fs : Str ← ask (.fsType (fields.getD 2 []))
  if fs = swapWord then pure ()
  else check (← ask (.stagePayload (lvArtifact g.number (fields.getD 0 []))))

/-- `rootpxe_activate_lvm_vg`. -/
def activateLvmVg (g : Group) : Shell Unit := do
  let status : ℕ ← ask (.activateVg g.vgUuid g.vgName)
  if status = 0 then pure ()
  else do
    let _ ← ask (.deactivateVg g.vgUuid g.vgName)
    Script.exit status

/-- The display metadata are left out when they cannot be had, but not when a probe remains. -/
def collectDisplayMetadata : Shell Unit := do
  let status : ℕ ← ask .displayMetadata
  if status = 2 then
    fail "DISPLAY_METADATA_CLEANUP_FAILED".toList "read_only_probe_cleanup_failed".toList
  else pure ()

/-- `jq -n … >"$stage/d1.lvm.schema.json"`, and its check. -/
def writeGroupSchema (schema : Schema) : Shell Unit := do
  let status : ℕ ← ask (.writeSchema schema)
  if status = 0 then do
    let checked : Bool ← ask .checkSchema
    check (checked && groupSchemaOk schema)
  else fail "LVM_SCHEMA_GENERATION_FAILED".toList ("jq_rc_".toList ++ Nat.toDigits 10 status)

/-- The first half of the subshell: what is captured goes into its directory. -/
def captureFiles (g : Group) : Shell Unit := do
  check ((Capture.rootpxeSafeRelativePath (pvArtifact g.number)).isSome &&
    (Capture.rootpxeSafeRelativePath (vgArtifact g.number)).isSome)
  activateLvmVg g
  Script.set fun v => { v with vgActive := true }
  collectDisplayMetadata
  check (← ask (.pvdisplay g.pvPath (pvArtifact g.number)))
  check (← ask (.vgcfgbackup g.vgName (vgArtifact g.number)))
  check (← ask .startRows)
  Script.forEach (endedLines g.lvFacts) (captureVolume g)
  let v ← Script.vars
  writeGroupSchema (groupSchema g v.rows)
  check (← ask .removeRows)

/-- `[[ ! -e … && ! -e … ]] || return 1`, in the directory that the groups share. -/
def stageLacks (name : Str) : Shell Unit := do
  let there : Bool ← ask (.stageHas name)
  check !there

/-- The group is inactive before its schema is left. -/
def deactivateOrFail (g : Group) : Shell Unit := do
  let cleaned ← cleanupVg g
  if cleaned then pure () else fail cleanupFailed.1 cleanupFailed.2

/-- The second half: the files are moved on, and last the schema of the group. -/
def stageFiles (g : Group) : Shell Unit := do
  Script.forEach
    [pvArtifact g.number, vgArtifact g.number, partImage g.number, partImageSlice g.number]
    stageLacks
  Script.forEach (endedLines g.lvFacts) (stageVolume g)
  check (← ask (.stagePayload (pvArtifact g.number)))
  check (← ask (.stagePayload (vgArtifact g.number)))
  deactivateOrFail g
  let there : Bool ← ask (.fragmentHas g.number)
  check !there
  check (← ask (.writeFragment g.number))

def captureFilesOf (g : Group) : Shell Unit := do
  captureFiles g
  stageFiles g

/-- `rootpxe_lvm_capture_lv_facts_prepared "$facts" || rootpxe_lvm_prepare_capture_lv_facts_single`,
`|| return 1`. -/
def prepareFacts (g : Group) : Shell Group :=
  if lvmCaptureLvFactsPrepared g.lvFacts then pure g
  else do
    match ← ask (.prepare g.lvFacts) with
    | none => Script.exit 1
    | some facts => pure { g with lvFacts := facts }

/-- `mktemp`, of the file of the status and of the directory. -/
def makeFiles : Shell Unit := do
  check (← ask .makeStatusFile)
  let made : Bool ← ask .makeInner
  if made then pure ()
  else do
    let _ ← ask .removeStatusFile
    Script.exit 1

/-- The executor behind its first test. -/
def captureSingle (sameText : Str → Str → Bool) (groups : List Group) (g : Group) :
    Shell Unit := do
  check (lvmIsPvPartition sameText groups g.pvPath)
  let g ← prepareFacts g
  check (lvmValidateCaptureArtifactNames g.lvFacts g.number)
  makeFiles
  Script.set fun v =>
    { v with rows := [], vgActive := false, cleanupAttempted := false, note := none }
  let status ← Script.status (withCleanup g (captureFilesOf g))
  Script.set fun v => if status = 0 then v else { v with error := v.note.getD v.error }
  let _ ← ask .removeStatusFile
  check (status == 0)
  Script.set fun v => { v with captured := true }

/-- `rootpxe_capture_lvm_volumes_single`, for a group that has been loaded. -/
def captureLvmVolumesSingle (sameText : Str → Str → Bool) (groups : List Group) (g : Group) :
    Shell Unit := do
  Script.set fun v => { v with error := ("LVM_CAPTURE_FAILED".toList, "unknown".toList) }
  let v ← Script.vars
  if v.captured then pure () else captureSingle sameText groups g

/-! ### All groups -/

/-- `rootpxe_lvm_capture_group_load`.  A group that is loaded has not been captured. -/
def lvmCaptureGroupLoad (g : Group) : Shell Bool :=
  if groupSound g then do
    let readable : Bool ← ask (.factsReadable g.number)
    if readable then do
      Script.set fun v => { v with captured := false }
      pure true
    else pure false
  else pure false

/-- `… || { rootpxe_lvm_cleanup_capture_groups; return 1; }`. -/
def orCleanup (b : Bool) : Shell Unit :=
  if b then pure ()
  else do
    let _ ← ask .cleanupGroups
    Script.set fun v => { v with captured := false }
    Script.exit 1

/-- `rootpxe_lvm_prepare_capture_lv_facts`: the groups, with what their files hold behind it. -/
def lvmPrepareCaptureLvFacts : List Group → Shell (List Group)
  | [] => pure []
  | g :: groups => do
    check (← lvmCaptureGroupLoad g)
    let g ← prepareFacts g
    let groups ← lvmPrepareCaptureLvFacts groups
    pure (g :: groups)

def validateNames (g : Group) : Shell Unit := do
  check (← lvmCaptureGroupLoad g)
  check (lvmValidateCaptureArtifactNames g.lvFacts g.number)

/-- The turn of the loop that captures. -/
def captureGroup (sameText : Str → Str → Bool) (groups : List Group) (g : Group) : Shell Unit := do
  orCleanup (← lvmCaptureGroupLoad g)
  let status ← Script.status (captureLvmVolumesSingle sameText groups g)
  orCleanup (status == 0)
  orCleanup (← ask (.fragmentReadable g.number))

/-- A file can be published: it is there, and nothing in the directory of the image has its name. -/
def checkArtifact (artifact : Str) : Shell Unit := do
  let artifact := lvmTrim artifact
  orCleanup (lvmStorageFilename artifact && (Capture.rootpxeSafeRelativePath artifact).isSome)
  orCleanup (← ask (.stageReadable artifact))
  let there : Bool ← ask (.imageHas artifact)
  orCleanup !there

def publishArtifact (artifact : Str) : Shell Unit := do
  orCleanup (← ask (.publish (lvmTrim artifact)))

/-- The part behind the groups: `count` is the number of lines of the manifest. -/
def publishGroups (count : ℕ) (groups : List Group) : Shell Unit := do
  match ← ask (.merge (groups.map Group.number)) with
  | none => orCleanup false
  | some schema => do
    let checked : Bool ← ask .checkCombined
    orCleanup (checked && schemaOk count schema)
    orCleanup (← ask .listArtifacts)
    Script.forEach schema.artifacts checkArtifact
    Script.forEach schema.artifacts publishArtifact
    orCleanup (← ask .commit)
    let _ ← ask .cleanupStage
    Script.set fun v => { v with captured := true }

/-- The part behind the first tests. -/
def captureGroups (sameText : Str → Str → Bool) (count : ℕ) (groups : List Group) : Shell Unit := do
  let groups ← lvmPrepareCaptureLvFacts groups
  Script.forEach groups validateNames
  orCleanup (← ask .makeStage)
  orCleanup (← ask .chmodStage)
  Script.forEach groups (captureGroup sameText groups)
  publishGroups count groups

/-- `[[ ${rootpxe_lvm_captured:-no} == yes && -e "$image_path/d1.lvm.schema.json" ]]`. -/
def alreadyCaptured : Shell Bool := do
  let v ← Script.vars
  if v.captured then ask (.imageHas schemaName) else pure false

/-- `rootpxe_capture_lvm_volumes`, of the groups of a manifest. -/
def captureLvmVolumes (sameText : Str → Str → Bool) (count : ℕ) (groups : List Group) :
    Shell Unit := do
  let done ← alreadyCaptured
  if done then pure ()
  else do
    check (← ask .manifestReadable)
    check (decide (0 < count))
    let there : Bool ← ask (.imageHas schemaName)
    check !there
    captureGroups sameText count groups

end Pxeos.Groups
