import Mathlib.Data.List.DropRight
import Pxeos.Capture.Publish
import Pxeos.Linux.VolumeGroup
import Pxeos.Lvm.Published
import Pxeos.Sfdisk.Table

/-!
# What a capture of volume groups records

The manifest of the groups, the facts of their volumes, the names of the files that hold them, and
the schema that `jq` makes of one group and of all of them.
-/

namespace Pxeos.Groups

open Pxeos.Lib
open Pxeos.Linux (wordOf safeIdentifier validateVgName)
open Pxeos.Lvm (Fact supported)

/-! ### The manifest -/

/-- A line of the manifest, with what its file of the logical volumes holds. -/
structure Group where
  number : Str
  pvPath : Str
  pvUuid : Str
  vgName : Str
  vgUuid : Str
  pvBytes : Str
  peStartBytes : Str
  vgExtentBytes : Str
  vgFreeBytes : Str
  lvFacts : Str
  deriving DecidableEq, Repr

/-- The tests of `rootpxe_lvm_capture_group_load`, but for `-r`. -/
def groupSound (g : Group) : Bool :=
  isPositive g.number && "/dev/".toList.isPrefixOf g.pvPath && isPositive g.pvBytes &&
    isNumber g.peStartBytes && isPositive g.vgExtentBytes && isNumber g.vgFreeBytes &&
    safeIdentifier g.pvUuid && safeIdentifier g.vgUuid && validateVgName g.vgName

/-- `getPartitionNumber`. -/
def getPartitionNumber (part : Str) : Str := part.rtakeWhile Char.isDigit

/-- `rootpxe_lvm_is_pv_partition`, of a manifest that can be read; `sameText` is the comparison of
two texts by `awk`. -/
def lvmIsPvPartition (sameText : Str → Str → Bool) (groups : List Group) (part : Str) : Bool :=
  (groups.filter fun g => sameText g.number (getPartitionNumber part)).length == 1

/-! ### The volumes -/

structure Volume extends Fact where
  fs : Str
  deriving DecidableEq, Repr

def swapWord : Str := "swap".toList
def xfsWord : Str := "xfs".toList

/-- What `IFS='|' read -r name uuid path size fs extra` and the tests make of a line. -/
def readVolume (line : Str) : Option Volume :=
  let fields := line.splitOn '|'
  let f : Fact := ⟨fields.getD 0 [], fields.getD 1 [], fields.getD 2 [], fields.getD 3 []⟩
  let fs := fields.getD 4 []
  if f.sound && List.intercalate ['|'] (fields.drop 5) == [] && supported fs then some ⟨f, fs⟩
  else none

/-! ### The names of the files -/

def pvArtifact (number : Str) : Str := "d1p".toList ++ number ++ ".lvm.pv.meta".toList

def vgArtifact (number : Str) : Str := "d1p".toList ++ number ++ ".lvm.vg.cfg".toList

def lvArtifact (number name : Str) : Str :=
  "d1p".toList ++ number ++ ".lvm.lv.".toList ++ name ++ ".img".toList

/-- The image of a partition without groups, and its first slice. -/
def partImage (number : Str) : Str := "d1p".toList ++ number ++ ".img".toList

def partImageSlice (number : Str) : Str := partImage number ++ ".000".toList

/-- The schema of all groups, which marks a complete image. -/
def schemaName : Str := "d1.lvm.schema.json".toList

/-- `rootpxe_lvm_storage_filename`. -/
def lvmStorageFilename (s : Str) : Bool :=
  s != [] && decide (s.length ≤ 255) && wordOf "._+-".toList s

/-- The name of a volume: `^[A-Za-z0-9+_.][A-Za-z0-9+_.-]{0,159}$`, other than `.` and `..`. -/
def volumeName (s : Str) : Bool :=
  s != [] && decide (s.length ≤ 160) && wordOf "+_.".toList (s.take 1) &&
    wordOf "+_.-".toList (s.drop 1) && s != ".".toList && s != "..".toList

/-- `rootpxe_lvm_trim`. -/
def lvmTrim (s : Str) : Str := (s.dropWhile isSpace).rdropWhile isSpace

/-- What `awk` makes of a record of the facts: no volume, or the name of its file without case
unless it is for swap. -/
def artifactKey (part record : Str) : Option (Option Str) :=
  match record.splitOn '|' with
  | name :: uuid :: path :: size :: rest =>
    if decide (rest.length ≤ 1) && volumeName name && uuid != [] &&
        "/dev/".toList.isPrefixOf path && isPositive size then
      if rest = [swapWord] then some none
      else if rest.all supported then some (some (Capture.lowered (lvArtifact part name)))
      else none
    else none
  | _ => none

/-- `rootpxe_lvm_validate_capture_artifact_names`, of facts that can be read. -/
def lvmValidateCaptureArtifactNames (facts part : Str) : Bool :=
  isPositive part && match (records facts).mapM (artifactKey part) with
    | some keys => keys != [] && decide keys.reduceOption.Nodup
    | none => false

/-! ### Schemas -/

structure SchemaPv where
  partitionNumber : ℕ
  uuid : Str
  vgUuid : Str
  originalBytes : ℕ
  minBytes : ℕ
  peStartBytes : ℕ
  artifact : Str
  vgConfigArtifact : Str
  deriving DecidableEq, Repr

structure SchemaLv where
  name : Str
  uuid : Str
  layout : Str
  originalBytes : ℕ
  minBytes : ℕ
  fs : Str
  role : Str
  resizable : Bool
  artifact : Str
  swapUuid : Str
  deriving DecidableEq, Repr

structure SchemaVg where
  name : Str
  uuid : Str
  extentBytes : ℕ
  pvPartitionNumbers : List ℕ
  originalFreeBytes : ℕ
  lvs : List SchemaLv
  deriving DecidableEq, Repr

structure Schema where
  version : ℕ
  captureMode : Str
  resizePolicy : Str
  pvs : List SchemaPv
  vgs : List SchemaVg
  deriving DecidableEq, Repr

/-- A row of `d1.lvm.capture.tsv`. -/
structure Row where
  name : Str
  uuid : Str
  size : Str
  minBytes : Str
  fs : Str
  artifact : Str
  swapUuid : Str
  deriving DecidableEq, Repr

def number (s : Str) : ℕ := Sfdisk.digitsValue s

/-- What `jq` makes of a row. -/
def Row.lv (row : Row) : SchemaLv where
  name := row.name
  uuid := row.uuid
  layout := "linear".toList
  originalBytes := number row.size
  minBytes := number row.minBytes
  fs := row.fs
  role := if row.fs = swapWord then swapWord else "data".toList
  resizable := supported row.fs && row.fs != swapWord
  artifact := row.artifact
  -- the rows are split at the bars again
  swapUuid := if row.fs = swapWord then (row.swapUuid.splitOn '|').headD [] else []

def emptySchema : Schema := ⟨1, "per_lv".toList, "grow_only".toList, [], []⟩

/-- The schema of one group. -/
def groupSchema (g : Group) (rows : List Row) : Schema :=
  { emptySchema with
    pvs := [⟨number g.number, g.pvUuid, g.vgUuid, number g.pvBytes, number g.pvBytes,
      number g.peStartBytes, pvArtifact g.number, vgArtifact g.number⟩]
    vgs := [⟨g.vgName, g.vgUuid, number g.vgExtentBytes, [number g.number],
      number g.vgFreeBytes, rows.map Row.lv⟩] }

def groupSchemaOk (s : Schema) : Bool :=
  s.version == 1 && s.captureMode == "per_lv".toList && s.resizePolicy == "grow_only".toList &&
    s.pvs.length == 1 && s.vgs.length == 1

/-- The schemas of the groups in one. -/
def mergeSchemas (schemas : List Schema) : Schema :=
  schemas.foldl (fun s g => { s with pvs := s.pvs ++ g.pvs, vgs := s.vgs ++ g.vgs }) emptySchema

/-- The files that a schema names. -/
def Schema.artifacts (s : Schema) : List Str :=
  (s.pvs.flatMap fun pv => [pv.artifact, pv.vgConfigArtifact]) ++
    ((s.vgs.flatMap SchemaVg.lvs).filter fun lv => lv.artifact != []).map SchemaLv.artifact

/-- `unique|length`. -/
def uniqueLength {α : Type} [DecidableEq α] (l : List α) : ℕ := l.dedup.length

/-- The check of the schema of all groups. -/
def schemaOk (count : ℕ) (s : Schema) : Bool :=
  s.version == 1 && s.captureMode == "per_lv".toList && s.resizePolicy == "grow_only".toList &&
    s.pvs.length == count && s.vgs.length == count &&
    uniqueLength (s.pvs.map SchemaPv.partitionNumber) == count &&
    uniqueLength (s.pvs.map SchemaPv.uuid) == count &&
    uniqueLength (s.vgs.map SchemaVg.uuid) == count &&
    uniqueLength (s.vgs.map SchemaVg.name) == count &&
    uniqueLength ((s.vgs.flatMap SchemaVg.lvs).map SchemaLv.uuid) ==
      (s.vgs.flatMap SchemaVg.lvs).length &&
    uniqueLength (s.artifacts.map Capture.lowered) == s.artifacts.length &&
    s.pvs.all fun pv => (s.vgs.filter fun vg =>
      vg.uuid == pv.vgUuid && vg.pvPartitionNumbers == [pv.partitionNumber]).length == 1

end Pxeos.Groups
