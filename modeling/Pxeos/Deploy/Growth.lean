import Pxeos.Lib.Shell
import Pxeos.Deploy.Agree

/-!
# Growing the filesystems of a plan

A partition that gets larger needs a filesystem that can follow.  Three functions of `funcs.sh`
decide about it on their own: `rootpxe_validate_growth_capability` before the permit,
`rootpxe_expansion_active_partitions` before the restore, and `expandPartition` for every partition
that was restored.
-/

namespace Pxeos.Deploy

open Pxeos.Lib

/-! ### The gate -/

/-- `verifiedLvm` of a row. -/
def verifiedLvm (p : SchemaPart) (lvm : Option LvmSchema) : Bool :=
  match lvm with
  | none => false
  | some lvm =>
    p.role == .lvmPv && p.fs == "LVM2_member" && lvm.version == 1 && lvm.captureMode == "per_lv" &&
    lvm.resizePolicy == "grow_only" &&
    (match lvm.pvs.filter (·.partitionNumber == p.number) with
     | [pv] =>
       decide ((lvm.vgs.filter fun vg => vg.uuid == pv.vgUuid &&
         vg.pvPartitionNumbers == [p.number]).length = 1)
     | _ => false)

/-- `recreatedSwap` of a row: a swap without an image, which the restore makes again under its
UUID. -/
def SchemaPart.recreatedSwap (p : SchemaPart) : Bool :=
  p.kind != some .extended && p.fs == "swap" && p.role == .swap && p.artifact.getD "" == "" &&
    (p.uuid.map notBlank).getD false

/-- A row of the gate. -/
structure GrowthRow where
  number : ℕ
  fs : String
  role : Role
  uuid : Option String
  recreatedSwap : Bool
  resizable : Bool
  fsVariant : String
  verifiedLvm : Bool
  logicalSectorBytes : ℕ
  deriving DecidableEq, Repr

/-- The row of a partition. -/
def growthRow (s : Schema) (p : SchemaPart) : GrowthRow :=
  ⟨p.number, p.fs, p.role, p.uuid, p.recreatedSwap, p.resizable, p.fsVariant.getD "",
    verifiedLvm p s.lvm,
    s.logicalSectorBytes⟩

/-- The container, whose size is derived and which has no filesystem. -/
def derivedContainer (s : Schema) (p : SchemaPart) : Bool :=
  s.version == 2 && s.partitionTable == .mbr && p.kind == some .extended &&
    p.role == .extendedContainer && p.fs == "" &&
    p.artifact.getD "" == ""

/-- The rows: the partitions that are larger in the plan. -/
def growthRows (s : Schema) (plan : List ResolvedPart) : List GrowthRow :=
  s.partitions.flatMap fun p =>
    (plan.filter fun r => r.number == p.number && decide (p.originalSectors < r.resolvedSectors) &&
      !derivedContainer s p).map fun _ => growthRow s p

/-- What the gate finds on the machine and in the image. -/
structure Facilities where
  /-- `command -v`. -/
  command : String → Bool
  imagePath : String
  /-- `d1.original.swapuuids`, when it can be read. -/
  swapUuids : Option Str

/-- The value of digits. -/
def digitsValue (s : Str) : ℕ := s.foldl (fun n c => 10 * n + (c.toNat - '0'.toNat)) 0

/-- The sign of a number and what follows it. -/
def signed (s : Str) : Bool × Str :=
  match s with
  | '-' :: s => (true, s)
  | '+' :: s => (false, s)
  | s => (false, s)

/-- The exponent after the mantissa; an empty text is none. -/
def exponent (s : Str) : Option ℤ :=
  match s with
  | [] => some 0
  | c :: s =>
    let (negative, digits) := signed s
    if (c == 'e' || c == 'E') && isNumber digits then
      some (if negative then -(digitsValue digits : ℤ) else digitsValue digits)
    else none

/-- The value of a text that `awk` takes for a number. -/
def strnum (s : Str) : Option ℚ :=
  let (negative, body) := signed s
  let whole := body.takeWhile Char.isDigit
  let rest := body.dropWhile Char.isDigit
  let fraction := if rest.head? = some '.' then (rest.drop 1).takeWhile Char.isDigit else []
  let tail := if rest.head? = some '.' then (rest.drop 1).dropWhile Char.isDigit else rest
  if whole = [] ∧ fraction = [] then none
  else (exponent tail).map fun e =>
    let mantissa : ℚ := digitsValue whole + digitsValue fraction / 10 ^ fraction.length
    (if negative then -mantissa else mantissa) * (10 : ℚ) ^ e

/-- The records of a partition, `$1 == number || $1 == "a" number`: the first comparison is one of
numbers. -/
def swapRecords (number : ℕ) (text : Str) : List (List Str) :=
  ((records text).map blankFields).filter fun fields =>
    strnum (fields.headD []) == some (number : ℚ) ||
      fields.headD [] == 'a' :: Nat.toDigits 10 number

/-- `print $2` of the first one. -/
def recordedSwapUuid (number : ℕ) (text : Str) : Str :=
  captured (((swapRecords number text).headD []).getD 1 [])

/-- The case `name:*` of `"$fs:$role"`. -/
def fsCase (name : String) (fs : Str) : Bool := (name.toList ++ [':']).isPrefixOf (fs ++ [':'])

/-- The tools for a filesystem, `none` where it cannot grow. -/
def growTools (fs : Str) (row : GrowthRow) : Option (List String) :=
  if fsCase "ext2" fs || fsCase "ext3" fs || fsCase "ext4" fs then some ["resize2fs", "e2fsck"]
  else if fsCase "ntfs" fs then some ["ntfsresize"]
  else if fsCase "btrfs" fs then some ["btrfs"]
  else if fsCase "f2fs" fs then some ["resize.f2fs"]
  else if fsCase "vfat" fs || fsCase "fat" fs then
    if captured row.fsVariant.toList = "FAT32".toList ∧ row.logicalSectorBytes = 512 then
      some ["findmnt", "fsck.fat", "pxeosfatgrow"]
    else none
  else if fsCase "xfs" fs then some ["xfs_growfs"]
  else if fs = "LVM2_member".toList ∧ row.role = .lvmPv then
    (if row.verifiedLvm then some [] else none)
  else none

/-- The checks of a grown swap: its UUID is the one recorded in the image. -/
def checkSwap (env : Facilities) (row : GrowthRow) : Option Unit := do
  require row.recreatedSwap
  let uuid ← row.uuid
  require (env.command "mkswap")
  require (env.imagePath != "")
  let text ← env.swapUuids
  require (decide ((swapRecords row.number text).length = 1))
  require (recordedSwapUuid row.number text == captured uuid.toList)

/-- One turn of the loop over the rows. -/
def checkGrowth (env : Facilities) (row : GrowthRow) : Option Unit := do
  require (decide (1 ≤ row.number))
  let fs := captured row.fs.toList
  if fs = "swap".toList ∨ row.role = .swap then checkSwap env row
  else do
    require row.resizable
    let tools ← growTools fs row
    require (tools.all env.command)

/-- A path of the restore: not set, not readable, or with a document. -/
inductive Document (α : Type) where
  | unset
  | unreadable
  | readable (a : α)

/-- **`rootpxe_validate_growth_capability`**. -/
def validateGrowthCapability (env : Facilities) (schema : Document Schema)
    (resolved : Document (List ResolvedPart)) :
    Option Unit :=
  match schema, resolved with
  | .readable s, .readable plan => do
    require (env.command "jq")
    (growthRows s plan).forM (checkGrowth env)
  | _, _ => none

/-! ### The plan of the growth -/

/-- A partition without a filesystem that Windows or GRUB keeps to itself. -/
def reservedType (p : SchemaPart) : Bool :=
  p.fs == "" &&
    (p.typeGuid.toList.map Char.toLower == "e3c9e316-0b5c-4db8-817d-f92df00215ae".toList ||
    p.typeGuid.toList.map Char.toLower == "21686148-6449-6e6f-744e-656564454649".toList)

/-- What the plan makes of one resolved partition. -/
def activeNumber (s : Schema) (r : ResolvedPart) : Except String (Option ℕ) :=
  match s.partitions.find? (·.number == r.number) with
  | none => .error "resolved partition absent from schema"
  | some p =>
    if p.kind = some .extended then .ok none
    else if p.originalSectors ≤ 0 ∨ r.resolvedSectors ≤ 0 then
      .error "resolved leaf geometry invalid"
    else if r.resolvedSectors < p.originalSectors then .error "resolved leaf shrinks"
    else if p.role = .swap ∨ p.fs = "swap" ∨ p.role = .lvmPv ∨ p.fs = "LVM2_member" ∨
      reservedType p = true then .ok none
    else if r.resolvedSectors > p.originalSectors then .ok (some r.number)
    else .ok none

/-- The `jq` program. -/
def activeNumbers (s : Schema) (plan : List ResolvedPart) : Except String (List ℕ) := do
  errorIf (decide (s.partitions.length = 0)) "captured partitions missing"
  errorIf (!s.partitions.all fun p => decide (1 ≤ p.number)) "captured partition number invalid"
  errorIf (decide ((s.partitions.map (·.number)).dedup.length ≠ s.partitions.length))
    "captured partition number duplicate"
  errorIf (!plan.all fun r => decide (1 ≤ r.number)) "resolved partition number invalid"
  errorIf (decide ((plan.map (·.number)).dedup.length ≠ plan.length))
    "resolved partition number duplicate"
  errorIf
    (decide ((s.partitions.map (·.number)).insertionSort (· ≤ ·) ≠
      (plan.map (·.number)).insertionSort (· ≤ ·)))
    "resolved partition identity mismatch"
  let rows ← plan.mapM (activeNumber s)
  pure rows.reduceOption

/-- **`rootpxe_expansion_active_partitions`**: the text it prints, or its status. -/
def expansionActivePartitions (command : String → Bool) (schema : Document Schema)
    (resolved : Document (List ResolvedPart)) : Except ℕ Str :=
  match schema, resolved with
  | .unset, .unset => .error 2
  | .readable s, .readable plan =>
    if !command "jq" then .error 1
    else
      match activeNumbers s plan with
      | .ok numbers => .ok (List.intercalate [':'] (numbers.map (Nat.toDigits 10)))
      | .error _ => .error 5
  | _, _ => .error 1

/-- **`rootpxe_expansion_partition_is_listed`**. -/
def expansionPartitionIsListed (number list : Str) : Bool :=
  isPositive number && decide (':' :: number ++ [':'] <:+: ':' :: list ++ [':'])

/-! ### The executor -/

/-- `fstype`. -/
inductive FsType where
  | apfs
  | btrfs
  | extfs
  | f2fs
  | hfsp
  | lvm
  | ntfs
  | swap
  | fat
  | xfs
  | imager
  deriving DecidableEq, Repr

/-- `fsTypeSetting`, on what `blkid` says. -/
def fsTypeSetting (blkFs : String) : FsType :=
  if blkFs = "apfs" then .apfs
  else if blkFs = "btrfs" then .btrfs
  else if blkFs ∈ ["ext2", "ext3", "ext4"] then .extfs
  else if blkFs = "f2fs" then .f2fs
  else if blkFs = "hfsplus" then .hfsp
  else if blkFs = "LVM2_member" then .lvm
  else if blkFs = "ntfs" then .ntfs
  else if blkFs = "swap" then .swap
  else if blkFs = "vfat" then .fat
  else if blkFs = "xfs" then .xfs
  else .imager

/-- What `expandPartition` does with a partition. -/
inductive Expansion where
  /-- It is in the list of the fixed ones. -/
  | fixedSize
  /-- The tools of its filesystem are run. -/
  | grow (fstype : FsType)
  /-- A filesystem that is grown on a deployment only. -/
  | notDown
  /-- `handleError`: the growth was required. -/
  | unsupported
  /-- The partition is left as it is. -/
  | notExpanded
  deriving DecidableEq, Repr

/-- **`expandPartition`**: the branch for a partition of which `blkid` says `blkFs`. -/
def expandPartition (number fixed : Str) (required down : Bool) (blkFs : String) : Expansion :=
  if number ∈ fixed.splitOn ':' then .fixedSize
  else
    match fsTypeSetting blkFs with
    | .ntfs => .grow .ntfs
    | .extfs => .grow .extfs
    | .btrfs => .grow .btrfs
    | .f2fs => if down then .grow .f2fs else .notDown
    | .fat => if down then .grow .fat else .notDown
    | .xfs => if down then .grow .xfs else .notDown
    | _ => if required then .unsupported else .notExpanded

end Pxeos.Deploy
