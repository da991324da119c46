import Pxeos.Lib.Checks
import Pxeos.Lib.Text
import Mathlib.Data.Rat.Floor

/-!
# The schema and the layout documents

The captured schema (`rootpxe_build_original_schema`) and the deployment layout of a task, as the
resolvers of `funcs.sh` read them.  Sector and byte counts of the schema are naturals and arithmetic
is exact; `jq` computes in doubles, which agree with it up to `2 ^ 53`.  The layout is written
outside the imaging system, so its numbers are rationals and its fields can be absent or of another
type.
-/

namespace Pxeos.Deploy

open Pxeos.Lib

/-- `partitionTable`. -/
inductive Table where
  | gpt
  | mbr
  deriving DecidableEq, Repr

/-- `kind` of a partition; version 1 schemas have no such field. -/
inductive Kind where
  | primary
  | extended
  | logical
  deriving DecidableEq, Repr

/-- `role` of a partition. -/
inductive Role where
  | swap
  | efi
  | msr
  | recovery
  | boot
  | lvmPv
  | data
  | extendedContainer
  | other
  deriving DecidableEq, Repr

/-- A partition of the schema. -/
structure SchemaPart where
  number : ℕ
  startSectors : ℕ
  originalSectors : ℕ
  minSectors : ℕ
  typeGuid : String
  role : Role
  resizable : Bool
  fs : String
  uuid : Option String
  artifact : Option String
  fsVariant : Option String
  kind : Option Kind
  parentNumber : Option ℕ
  ebrReservedSectors : Option ℕ
  deriving DecidableEq, Repr

/-- The end of a captured partition, the first sector after it. -/
def SchemaPart.originalEnd (p : SchemaPart) : ℕ := p.startSectors + p.originalSectors

/-- A physical volume of the captured LVM data. -/
structure LvmPv where
  partitionNumber : ℕ
  uuid : String
  vgUuid : String
  originalBytes : ℕ
  minBytes : ℕ
  peStartBytes : ℕ
  deriving DecidableEq, Repr

/-- A logical volume of the captured LVM data. -/
structure LvmLv where
  uuid : String
  name : String
  fs : String
  role : Role
  resizable : Bool
  artifact : Option String
  swapUuid : Option String
  originalBytes : ℕ
  minBytes : ℕ
  deriving DecidableEq, Repr

/-- A volume group of the captured LVM data. -/
structure LvmVg where
  uuid : String
  name : String
  pvPartitionNumbers : List ℕ
  extentBytes : ℕ
  originalFreeBytes : ℕ
  lvs : List LvmLv
  deriving DecidableEq, Repr

/-- `.lvm` of the schema. -/
structure LvmSchema where
  version : ℕ
  captureMode : String
  resizePolicy : String
  pvs : List LvmPv
  vgs : List LvmVg
  deriving DecidableEq, Repr

/-- The captured schema. -/
structure Schema where
  version : ℕ
  partitionTable : Table
  originalDiskBytes : ℕ
  logicalSectorBytes : ℕ
  partitions : List SchemaPart
  lvm : Option LvmSchema
  deriving DecidableEq, Repr

/-- A mode of a layout entry. -/
inductive Mode where
  | original
  | fixed
  | remaining
  | derived
  | unknown
  deriving DecidableEq, Repr

/-- A partition of the layout. -/
structure LayoutPart where
  number : ℕ
  mode : DocField Mode
  fixedBytes : DocField ℚ
  percentage : DocField Unit
  deriving DecidableEq, Repr

/-- `.mode // "original"`. -/
def LayoutPart.modeOrOriginal (o : LayoutPart) : Mode :=
  match o.mode with
  | .absent => .original
  | .value m => m
  | .illTyped => .unknown

/-- `.fixedBytes // 0`. -/
def LayoutPart.fixedBytesOrZero (o : LayoutPart) : ℚ := o.fixedBytes.get?.getD 0

/-- A volume of the layout's plan for a volume group. -/
structure LayoutVolume where
  uuid : String
  mode : DocField Mode
  fixedBytes : DocField ℚ
  /-- A key of the schema's record that the layout may carry as well. -/
  originalBytes : DocField ℚ
  percentage : DocField Unit
  deriving DecidableEq, Repr

/-- `freeSpacePolicy`. -/
inductive FreeSpacePolicy where
  | preserveOriginal
  | allocateToRemaining
  | unknown
  deriving DecidableEq, Repr

/-- The layout's plan for a volume group. -/
structure LayoutGroup where
  pvPartitionNumber : ℕ
  freeSpacePolicy : FreeSpacePolicy
  volumes : List LayoutVolume
  deriving DecidableEq, Repr

/-- The deployment layout: the partition array, if it has one, and the plans of `.lvm // []`. -/
structure Layout where
  partitions : Option (List LayoutPart)
  lvm : List LayoutGroup
  deriving DecidableEq, Repr

/-- A partition of the resolved plan: the schema's record with its new start and its size. -/
structure ResolvedPart extends SchemaPart where
  resolvedSectors : ℕ
  deriving DecidableEq, Repr

/-- A logical volume of the resolved plan. -/
structure ResolvedLv extends LvmLv where
  resolvedBytes : ℚ
  deriving DecidableEq, Repr

/-- `$p + {startSectors: start, resolvedSectors: size}`. -/
def SchemaPart.placed (p : SchemaPart) (start size : ℕ) : ResolvedPart :=
  { p with startSectors := start, resolvedSectors := size }

/-- The end of a resolved partition, the first sector after it. -/
def ResolvedPart.stop (r : ResolvedPart) : ℕ := r.startSectors + r.resolvedSectors

end Pxeos.Deploy
