import Pxeos.Deploy.Resolver

/-!
# The LVM resolver

The `jq` program of `rootpxe_validate_lvm_deployment_layout_single`: one physical volume, one volume
group, and a layout entry for each of its logical volumes, joined by uuid.  Bytes are rationals,
since the layout's numbers are.
-/

namespace Pxeos.Deploy

open Pxeos.Lib

/-- The resolved group: what the restore reads. -/
structure LvmPlan where
  pv : LvmPv
  vg : LvmVg
  pvBytes : ℕ
  freeSpacePolicy : FreeSpacePolicy
  volumes : List ResolvedLv
  deriving DecidableEq, Repr

/-- `safe_nonnegative`. -/
def safeNonnegative (q : ℚ) : Bool := q.den == 1 && decide (0 ≤ q) && decide (q ≤ safeMax)

/-! ### Capacity -/

/-- The free bytes the policy keeps. -/
def keptFreeBytes (vg : LvmVg) (policy : FreeSpacePolicy) : ℕ :=
  if policy = .preserveOriginal then vg.originalFreeBytes else 0

/-- `$capacity`: what the logical volumes can have, in whole extents. -/
def lvmCapacity (pvBytes : ℕ) (pv : LvmPv) (vg : LvmVg) (policy : FreeSpacePolicy) : ℤ :=
  ⌊(((pvBytes : ℤ) - pv.peStartBytes - keptFreeBytes vg policy : ℤ) : ℚ) / vg.extentBytes⌋
    * vg.extentBytes

/-! ### One volume -/

/-- A logical volume with its layout entry. -/
structure LvItem where
  lv : LvmLv
  v : LayoutVolume
  deriving DecidableEq, Repr

/-- `.mode`, read without a default. -/
def LayoutVolume.modeIs (v : LayoutVolume) (m : Mode) : Bool := v.mode == .value m

/-- A swap volume without payload that is recreated with its recorded UUID. -/
def recreatedSwap (lv : LvmLv) : Bool :=
  lv.role == .swap && !lv.resizable && lv.artifact.getD "" == "" &&
    decide (0 < (lv.swapUuid.getD "").length)

/-- The checks of `fixedBytes`; `%` truncates its operands. -/
def fixedBytesOk (lv : LvmLv) (v : LayoutVolume) (extent : ℕ) : Bool :=
  match v.fixedBytes with
  | .value b => !decide (b < lv.minBytes) && decide (⌊b⌋ % (extent : ℤ) = 0)
  | _ => false

/-- The checks of one logical volume against its layout entry. -/
def mkLvItem (vg : LvmVg) (plan : LayoutGroup) (lv : LvmLv) : Except String LvItem := do
  let v ← exactlyOne (plan.volumes.filter (·.uuid == lv.uuid)) "lvm volume identity"
  errorIf (!(v.modeIs .original || v.modeIs .fixed || v.modeIs .remaining)) "lvm volume identity"
  errorIf (lv.fs == "swap" && !recreatedSwap lv) "invalid recreated swap volume"
  errorIf ((!lv.resizable || lv.role == .swap) && !(lv.fs == "swap" && recreatedSwap lv) &&
    !v.modeIs .original)
    "protected lvm volume"
  errorIf (v.modeIs .fixed && !fixedBytesOk lv v vg.extentBytes) "invalid fixed lvm volume"
  errorIf ((v.modeIs .original || v.modeIs .remaining) && v.fixedBytes.has) "unexpected lvm fields"
  pure ⟨lv, v⟩

/-- `modebytes` of the merged record `.schema + .layout`: a key of the layout entry hides the
schema's. -/
def modebytes (it : LvItem) : Except String ℚ :=
  if it.v.modeIs .original then
    match it.v.originalBytes with
    | .absent => .ok it.lv.originalBytes
    | .value b => .ok b
    | .illTyped => .error "lvm minimum"
  else if it.v.modeIs .fixed then .ok (it.v.fixedBytes.get?.getD 0)
  else .ok 0

/-! ### A fixed physical volume -/

/-- The bytes of a volume in the derivation of a fixed physical volume. -/
def derivationBytes (it : LvItem) : ℚ :=
  if it.v.modeIs .fixed then it.v.fixedBytes.get?.getD 0 else it.lv.originalBytes

/-- `$pvAlignmentBytes`. -/
def pvAlignmentBytes (logical : ℕ) : ℕ := alignment logical * logical

/-- `$rawPVBytes`: what the captured volume and the logical volumes need. -/
def rawPvBytes (logical : ℕ) (source : SchemaPart) (pv : LvmPv) (required : ℚ) : ℚ :=
  max (max (source.originalSectors * logical) pv.originalBytes) (max pv.minBytes required)

/-- `$derivedPVBytes`: the size a fixed physical volume must have. -/
def derivedPvBytes (logical : ℕ) (raw : ℚ) : ℚ :=
  ⌈raw / pvAlignmentBytes logical⌉ * pvAlignmentBytes logical

/-- The checks of a physical volume in mode `fixed`. -/
def fixedPvChecks (s : Schema) (pv : LvmPv) (vg : LvmVg) (plan : LayoutGroup) (pvPlan : LayoutPart)
    (pvBytes : ℕ) (items : List LvItem) : Except String Unit := do
  let source ← exactlyOne (s.partitions.filter (·.number == pv.partitionNumber))
    "fixed pv is not derived from fixed lvs"
  errorIf (plan.freeSpacePolicy != .preserveOriginal || items.any (·.v.modeIs .remaining) ||
    !items.any (·.v.modeIs .fixed)) "fixed pv is not derived from fixed lvs"
  errorIf
    (!(([source.originalSectors, pv.originalBytes, pv.minBytes, pv.peStartBytes,
      vg.originalFreeBytes,
      vg.extentBytes].all fun n => safeNonnegative n) &&
    decide (source.originalSectors ≤ safeMax / s.logicalSectorBytes) &&
    (items.map derivationBytes).all safeNonnegative)) "unsafe fixed pv capacity"
  let lvBytes := (items.map derivationBytes).sum
  let metadata : ℚ := pv.peStartBytes + vg.originalFreeBytes
  let raw := rawPvBytes s.logicalSectorBytes source pv (metadata + lvBytes)
  let derived := derivedPvBytes s.logicalSectorBytes raw
  errorIf (decide (lvBytes > safeMax) || decide (metadata > safeMax) ||
    decide (metadata + lvBytes > safeMax) ||
    decide (raw > safeMax) || decide (derived > safeMax) || pvPlan.fixedBytes != .value derived ||
    decide ((pvBytes : ℚ) ≠ derived)) "fixed pv capacity mismatch"

/-! ### The program -/

/-- The size of a volume: the remaining one gets the free extents. -/
def volumeBytes (capacity : ℤ) (used : ℚ) (extent : ℕ) (it : LvItem) (bytes : ℚ) : ℚ :=
  if it.v.modeIs .remaining then ⌊((capacity : ℚ) - used) / extent⌋ * extent else bytes

/-- What the volumes are resolved against. -/
structure LvmInput where
  pv : LvmPv
  vg : LvmVg
  plan : LayoutGroup
  pvPlan : LayoutPart

/-- The checks before the volumes: topology, modes and identities. -/
def lvmTopology (ls : LvmSchema) (l : Layout) : Except String LvmInput := do
  errorIf (ls.version != 1 || ls.captureMode != "per_lv" || ls.resizePolicy != "grow_only")
    "invalid lvm topology"
  let pv ← exactlyOne ls.pvs "invalid lvm topology"
  let vg ← exactlyOne ls.vgs "invalid lvm topology"
  let plan ← exactlyOne l.lvm "invalid lvm topology"
  errorIf (decide ((plan.volumes.filter (·.modeIs .remaining)).length > 1))
    "multiple remaining lvm volumes"
  let pvPlan ← exactlyOne ((l.partitions.getD []).filter (·.number == pv.partitionNumber))
    "lvm pv layout missing"
  errorIf (!(pvPlan.modeOrOriginal ∈ [.original, .fixed, .remaining]) ||
    (pvPlan.modeOrOriginal == .original &&
      plan.volumes.any fun v => !(v.mode == .absent || v.modeIs .original)))
        "lvm pv and lv mode mismatch"
  errorIf (plan.volumes.any (·.percentage.has)) "percentage mode is retired"
  errorIf (pv.vgUuid != vg.uuid || vg.pvPartitionNumbers.head? != some pv.partitionNumber ||
    plan.pvPartitionNumber != pv.partitionNumber || plan.freeSpacePolicy == .unknown ||
    plan.volumes.length != vg.lvs.length) "lvm identity mismatch"
  pure ⟨pv, vg, plan, pvPlan⟩

/-- `$pvBytes` of the resolved physical volume. -/
def resolvedPvBytes (s : Schema) (pv : LvmPv) (partitions : List ResolvedPart) : Except String ℕ :=
  do
  let part ← exactlyOne (partitions.filter (·.number == pv.partitionNumber)) "resolved pv missing"
  errorIf
    (!(safeNonnegative s.logicalSectorBytes && s.logicalSectorBytes != 0 &&
      safeNonnegative part.resolvedSectors &&
    decide (part.resolvedSectors ≤ safeMax / s.logicalSectorBytes))) "unsafe pv capacity"
  let bytes := part.resolvedSectors * s.logicalSectorBytes
  errorIf (decide (bytes < pv.originalBytes) || decide (bytes < pv.minBytes) ||
    decide (pv.peStartBytes ≥ bytes))
    "invalid pv capacity"
  pure bytes

/-- The volumes of the plan. -/
def resolveVolumes (capacity : ℤ) (extent : ℕ) (items : List LvItem) :
    Except String (List ResolvedLv) := do
  let pre ← items.mapM fun it => do pure (it, ← modebytes it)
  let used := (pre.map (·.2)).sum
  errorIf (decide (used > (capacity : ℚ))) "lvm capacity exceeded"
  let volumes ← pre.mapM fun x => do
    let entry : ResolvedLv :=
      { x.1.lv with resolvedBytes := volumeBytes capacity used extent x.1 x.2 }
    errorIf (decide (entry.resolvedBytes < entry.minBytes)) "lvm minimum"
    pure entry
  errorIf (decide ((volumes.map (·.resolvedBytes)).sum > (capacity : ℚ))) "lvm resolved capacity"
  pure volumes

/-- The checks of the physical volume's mode. -/
def pvModeChecks (s : Schema) (i : LvmInput) (pvBytes : ℕ) (items : List LvItem) :
    Except String Unit :=
  if i.pvPlan.modeOrOriginal = .fixed then fixedPvChecks s i.pv i.vg i.plan i.pvPlan pvBytes items
  else pure ()

/-- The program on a schema with LVM data. -/
def resolveLvm (s : Schema) (ls : LvmSchema) (l : Layout) (partitions : List ResolvedPart) :
    Except String LvmPlan := do
  let i ← lvmTopology ls l
  let pvBytes ← resolvedPvBytes s i.pv partitions
  errorIf (i.vg.extentBytes == 0) "divisor is zero"
  let capacity := lvmCapacity pvBytes i.pv i.vg i.plan.freeSpacePolicy
  errorIf (decide (capacity < 0)) "pv capacity exhausted"
  let items ← i.vg.lvs.mapM (mkLvItem i.vg i.plan)
  errorIf (decide ((items.filter (·.v.modeIs .remaining)).length > 1))
    "multiple remaining lvm volumes"
  pvModeChecks s i pvBytes items
  let volumes ← resolveVolumes capacity i.vg.extentBytes items
  pure ⟨i.pv, i.vg, pvBytes, i.plan.freeSpacePolicy, volumes⟩

/-- The partition types of a physical volume. -/
def lvmPartitionType (typeGuid : String) : Bool :=
  typeGuid.toList.map Char.toLower ∈ ["8e".toList, "0x8e".toList,
    "e6d6d379-f507-44c2-a23c-238f2a3df928".toList]

/-- `rootpxe_validate_lvm_deployment_layout_single`: a schema without LVM data has no plan. -/
def validateLvmDeploymentLayoutSingle (s : Schema) (l : Layout) (partitions : List ResolvedPart) :
    Except String (Option LvmPlan) :=
  match s.lvm with
  | none => do
    errorIf (s.partitions.any fun p => p.fs == "LVM2_member" || p.role == .lvmPv ||
      lvmPartitionType p.typeGuid)
      "lvm partition without lvm data"
    errorIf (decide (0 < l.lvm.length)) "lvm layout without lvm data"
    pure none
  | some ls => do
    errorIf
      (!(s.version == 2 && ls.version == 1 && ls.captureMode == "per_lv" &&
        ls.resizePolicy == "grow_only"))
      "invalid lvm schema"
    let plan ← resolveLvm s ls l partitions
    pure (some plan)

end Pxeos.Deploy
