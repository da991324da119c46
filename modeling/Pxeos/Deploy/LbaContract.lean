import Pxeos.Deploy.Schema
import Mathlib.Data.List.Sort

/-!
# The partition-number and address contract

`rootpxe_validate_partition_lba_contract`: what a partition table must satisfy for the DOS or GPT
writer, checked on the captured sizes before the permit and on the resolved sizes before the write.
-/

namespace Pxeos.Deploy

/-- The largest integer `jq` represents exactly. -/
def safeMax : ℕ := 9007199254740991

/-- The largest 32-bit sector address. -/
def lbaMax : ℕ := 4294967295

/-- `ascii_downcase | sub("^0x"; "") | sub("^0+"; "")`. -/
def normalizedType (typeGuid : String) : List Char :=
  let lower := typeGuid.toList.map Char.toLower
  let bare := if lower.take 2 = ['0', 'x'] then lower.drop 2 else lower
  bare.dropWhile (· == '0')

/-- `extended_type`. -/
def extendedType (typeGuid : String) : Bool :=
  normalizedType typeGuid ∈ [['5'], ['f'], ['8', '5']]

/-- `ends32`: start, length and last sector of a partition are 32-bit addresses. -/
def ends32 (start length : ℕ) : Bool :=
  decide (start ≤ lbaMax) && decide (1 ≤ length) && decide (length ≤ lbaMax) &&
    decide (start ≤ lbaMax - (length - 1))

/-- The geometry part of the contract for one partition and its size. -/
def geometryOk (table : Table) (p : SchemaPart) (size : ℕ) : Bool :=
  match table with
  | .mbr => ends32 p.startSectors size
  | .gpt => decide (1 ≤ p.startSectors) && decide (p.startSectors ≤ safeMax) && decide (1 ≤ size) &&
      decide (size ≤ safeMax)

/-- The `gpt` branch: numbers and types. -/
def gptContract (parts : List SchemaPart) : Bool :=
  decide (parts.length ≤ 128) && parts.all fun p =>
    decide (p.number ≤ 128) && !(p.kind == some .extended || p.kind == some .logical) &&
      !extendedType p.typeGuid

/-- Number, type and parent of a partition of an MBR table that has `kind` fields. -/
def kindOk (p : SchemaPart) : Bool :=
  match p.kind with
  | some .primary => decide (p.number ≤ 4) && !extendedType p.typeGuid
  | some .extended => decide (p.number ≤ 4) && extendedType p.typeGuid
  | some .logical => decide (5 ≤ p.number) && decide (p.number ≤ 60) && !extendedType p.typeGuid &&
      (match p.parentNumber with
       | some n => decide (1 ≤ n) && decide (n ≤ 4)
       | none => false)
  | none => false

/-- The `mbr` branch: numbers, types, and the EBR chain of the logical partitions. -/
def mbrContract (parts : List SchemaPart) : Bool :=
  parts.all (fun p => decide (p.number ≤ 60)) &&
  if (parts.filter (·.kind.isSome)).length = 0 then
    parts.all fun p => decide (p.number ≤ 4) && !extendedType p.typeGuid
  else
    let extended := parts.filter (·.kind == some .extended)
    let logical := parts.filter (·.kind == some .logical)
    parts.all kindOk && decide (extended.length ≤ 1) &&
    if logical.length = 0 then decide (extended.length = 0)
    else decide (extended.length = 1) &&
      logical.all (fun p => p.parentNumber == extended.head?.map (·.number)) &&
      -- the kernel numbers the EBR chain in sequence, so a sparse set would be renumbered
      decide ((logical.map (·.number)).insertionSort (· ≤ ·) =
        (List.range logical.length).map (5 + ·))

/-- `rootpxe_validate_partition_lba_contract`, on the partitions paired with the sizes of its
`size_field`. -/
def validatePartitionLbaContract (table : Table) (parts : List (SchemaPart × ℕ)) : Bool :=
  decide (0 < parts.length) &&
  parts.all (fun x => decide (1 ≤ x.1.number) && geometryOk table x.1 x.2) &&
  decide ((parts.map (·.1.number)).dedup.length = parts.length) &&
  match table with
  | .gpt => gptContract (parts.map (·.1))
  | .mbr => mbrContract (parts.map (·.1))

/-- The contract on the captured sizes. -/
def originalContract (s : Schema) : Bool :=
  validatePartitionLbaContract s.partitionTable (s.partitions.map fun p => (p, p.originalSectors))

/-- The contract on the sizes of a plan. -/
def resolvedContract (table : Table) (plan : List ResolvedPart) : Bool :=
  validatePartitionLbaContract table (plan.map fun r => (r.toSchemaPart, r.resolvedSectors))

end Pxeos.Deploy
