import Pxeos.Deploy.Lvm

/-!
# Before and after the permit

`rootpxe_validate_deployment_layout` as a whole, which runs before the disk-write permit, and the
checks that `rootpxe_apply_deployment_layout` makes of the plan and the template after it, up to the
rewrite of the template.
-/

namespace Pxeos.Deploy

open Pxeos.Lib

/-- The target disk: `blockdev --getsize64` and `blockdev --getss`.  A device size is a signed
64-bit offset. -/
structure Disk where
  bytes : ℕ
  sectorBytes : ℕ
  bytes_lt : bytes < 2 ^ 63
  deriving DecidableEq, Repr

/-! ### Several volume groups -/

/-- The characters `@tsv` escapes. -/
def tsvChar (c : Char) : List Char :=
  if c = '\t' then ['\\', 't'] else if c = '\n' then ['\\', 'n'] else if c = '\r' then ['\\', 'r']
  else if c = '\\' then ['\\', '\\'] else [c]

/-- `[[:space:]]`. -/
def isSpace (c : Char) : Bool := c ∈ [' ', '\t', '\n', '\x0b', '\x0c', '\r']

/-- `rootpxe_lvm_trim` of a field printed by `@tsv`. -/
def lvmTrim (field : String) : List Char :=
  (((field.toList.flatMap tsvChar).dropWhile isSpace).reverse.dropWhile isSpace).reverse

/-- The artifacts of the logical volumes; `ascii_downcase` stops at a missing one. -/
def lvArtifacts (ls : LvmSchema) : Option (List (List Char)) :=
  (((ls.vgs.flatMap (·.lvs)).map (·.artifact)).filter (· != some "")).mapM
    fun a => a.map fun text => text.toList.map Char.toLower

/-- The checks of all groups together. -/
def lvmGroupsOk (ls : LvmSchema) (l : Layout) : Bool :=
  ls.version == 1 && ls.captureMode == "per_lv" && ls.resizePolicy == "grow_only" &&
  decide (ls.vgs.length = ls.pvs.length) && decide (l.lvm.length = ls.pvs.length) &&
  decide ((ls.pvs.map (·.partitionNumber)).dedup.length = ls.pvs.length) &&
  decide ((ls.pvs.map (·.uuid)).dedup.length = ls.pvs.length) &&
  decide ((ls.vgs.map (·.uuid)).dedup.length = ls.pvs.length) &&
  decide ((ls.vgs.map (·.name)).dedup.length = ls.pvs.length) &&
  decide (((ls.vgs.flatMap (·.lvs)).map (·.uuid)).dedup.length = (ls.vgs.flatMap (·.lvs)).length) &&
  ((lvArtifacts ls).map fun names => decide (names.dedup.length = names.length)).getD false &&
  decide (((l.lvm.flatMap (·.volumes)).filter (·.modeIs .remaining)).length ≤ 1)

/-- What the loop over the physical volumes remembers: the uuids and numbers seen and the plans so
far. -/
structure GroupsState where
  seenPv : List (List Char)
  seenVg : List (List Char)
  seenPart : List ℕ
  plans : List LvmPlan

/-- One physical volume: its own schema and layout go through the single-group program. -/
def groupStep (s : Schema) (ls : LvmSchema) (l : Layout) (partitions : List ResolvedPart)
    (st : GroupsState) (pv : LvmPv) : Except String GroupsState := do
  let pvUuid := lvmTrim pv.uuid
  let vgUuid := lvmTrim pv.vgUuid
  errorIf (pvUuid.isEmpty || vgUuid.isEmpty || pv.partitionNumber == 0 ||
    decide ((ls.vgs.filter (·.uuid == pv.vgUuid)).length ≠ 1) ||
    pvUuid ∈ st.seenPv || vgUuid ∈ st.seenVg || pv.partitionNumber ∈ st.seenPart) "lvm group row"
  let mini : LvmSchema := { ls with
    pvs := ls.pvs.filter (·.uuid.toList == pvUuid), vgs := ls.vgs.filter (·.uuid.toList == vgUuid) }
  let plan ← validateLvmDeploymentLayoutSingle { s with lvm := some mini }
    { l with lvm := l.lvm.filter (·.pvPartitionNumber == pv.partitionNumber) } partitions
  pure ⟨pvUuid :: st.seenPv, vgUuid :: st.seenVg, pv.partitionNumber :: st.seenPart,
    st.plans ++ plan.toList⟩

/-- `rootpxe_validate_lvm_deployment_layout`: the plans of the volume groups. -/
def validateLvmDeploymentLayout (s : Schema) (l : Layout) (partitions : List ResolvedPart) :
    Except String (List LvmPlan) :=
  match s.lvm with
  | none => Option.toList <$> validateLvmDeploymentLayoutSingle s l partitions
  | some ls =>
    if ls.pvs.length ≤ 1 then Option.toList <$> validateLvmDeploymentLayoutSingle s l partitions
    else do
      errorIf (!lvmGroupsOk ls l) "lvm groups"
      GroupsState.plans <$> ls.pvs.foldlM (groupStep s ls l partitions) ⟨[], [], [], []⟩

/-! ### The validation -/

/-- What the task and its files say about the revision of the schema. -/
structure Revision where
  schemaHash : String
  schemaRevision : String
  /-- `rootpxe_canonical_json_hash` of the schema file. -/
  sourceHash : String
  /-- `.schemaHash` of the layout. -/
  layoutHash : Option String
  deriving DecidableEq, Repr

/-- `^[a-fA-F0-9]{64}$`. -/
def isSha256 (text : String) : Bool :=
  decide (text.toList.length = 64) &&
    text.toList.all fun c => c.isDigit || decide ('a' ≤ c ∧ c ≤ 'f') || decide ('A' ≤ c ∧ c ≤ 'F')

/-- `^[1-9][0-9]*$`. -/
def isPositiveText (text : String) : Bool :=
  text.toList.all Char.isDigit && text.toList.head?.any (· != '0')

/-- The schema is the one of the task, and the layout was made for it. -/
def Revision.ok (v : Revision) : Bool :=
  isSha256 v.schemaHash && v.schemaHash == v.sourceHash && isPositiveText v.schemaRevision &&
    v.layoutHash == some v.schemaHash

/-- **`rootpxe_validate_deployment_layout`**: the plan, when every check passes. -/
def validateDeploymentLayout (v : Revision) (disk : Disk) (s : Schema) (l : Layout) :
    Option (List ResolvedPart) := do
  guard v.ok
  guard (originalContract s)
  guard (s.partitions.all (·.role != .other))
  guard (decide (0 < s.logicalSectorBytes) && decide (0 < s.originalDiskBytes) &&
    decide (0 < disk.bytes))
  guard (s.originalDiskBytes ≤ disk.bytes)
  guard (disk.bytes % s.logicalSectorBytes = 0)
  let plan ← (resolveLayout s l (disk.bytes / s.logicalSectorBytes)).toOption
  let _ ← (validateLvmDeploymentLayout s l plan).toOption
  pure plan

/-! ### The writer's checks -/

/-- `d1.partitions` as the writer reads it: the label, the sector size, the usable range and the
partition numbers.  A `dos` dump has no `first-lba`; there the range begins behind the sector of the
table. -/
structure Template where
  label : Table
  sectorSize : ℕ
  firstLba : ℕ
  lastLba : ℕ
  numbers : List ℕ
  deriving DecidableEq, Repr

/-- `rootpxe_layout_apply_code` and `rootpxe_layout_apply_reason`. -/
structure ApplyFailure where
  code : String
  reason : String
  deriving DecidableEq, Repr

/-- The headers of the usable range, and `last_lba`. -/
def usableRange (t : Template) (total : ℕ) : Except ApplyFailure Unit :=
  match t.label with
  | .mbr => pure ()
  | .gpt => do
    errorIf (decide (t.firstLba = 0)) ⟨"LAYOUT_TEMPLATE_INVALID", "gpt_first_lba_invalid"⟩
    errorIf (!(decide (t.firstLba < total) && decide (t.firstLba ≤ total - t.firstLba)))
      ⟨"LAYOUT_TARGET_GEOMETRY_INVALID", "gpt_usable_lba_unavailable"⟩

/-- One line of the map of the plan. -/
def mapRow (t : Template) (total : ℕ) (r : ResolvedPart) : Except ApplyFailure Unit := do
  errorIf (r.number == 0 || r.resolvedSectors == 0) ⟨"LAYOUT_PLAN_INVALID",
    "invalid_partition_plan_entry"⟩
  errorIf (!(decide (r.number ≤ 2147483647) && decide (r.startSectors < total) &&
    decide (r.resolvedSectors ≤ total - r.startSectors))) ⟨"LAYOUT_PLAN_INVALID",
      "partition_plan_exceeds_target"⟩
  errorIf (t.label == .gpt && !decide (r.startSectors + r.resolvedSectors - 1 ≤ total - t.firstLba))
    ⟨"LAYOUT_PLAN_INVALID", "partition_plan_exceeds_gpt_usable_range"⟩

/-- **The checks of `rootpxe_apply_deployment_layout`** before the template is rewritten. -/
def applyPlanChecks (disk : Disk) (t : Template) (plan : List ResolvedPart) :
    Except ApplyFailure Unit := do
  errorIf (disk.sectorBytes == 0 || disk.bytes == 0) ⟨"LAYOUT_TARGET_GEOMETRY_INVALID",
    "invalid_target_geometry"⟩
  errorIf (disk.bytes % disk.sectorBytes != 0) ⟨"LAYOUT_TARGET_GEOMETRY_INVALID",
    "unaligned_target_geometry"⟩
  let total := disk.bytes / disk.sectorBytes
  errorIf (total == 0) ⟨"LAYOUT_TARGET_GEOMETRY_INVALID", "zero_target_sectors"⟩
  errorIf (!resolvedContract t.label plan) ⟨"LAYOUT_PLAN_INVALID", "mbr_or_gpt_partition_contract"⟩
  errorIf (t.sectorSize == 0 || t.sectorSize != disk.sectorBytes) ⟨"LAYOUT_TEMPLATE_INVALID",
    "sector_size_mismatch"⟩
  usableRange t total
  plan.forM (mapRow t total)
  errorIf (decide ((plan.map (·.number)).dedup.length ≠ plan.length) || plan.isEmpty)
    ⟨"LAYOUT_PLAN_INVALID", "partition_plan_numbers_invalid"⟩
  errorIf (decide ((plan.map (·.number)).insertionSort (· ≤ ·) ≠ t.numbers.insertionSort (· ≤ ·)))
    ⟨"LAYOUT_PLAN_INVALID", "partition_plan_numbers_mismatch"⟩

end Pxeos.Deploy
