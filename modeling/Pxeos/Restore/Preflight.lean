import Pxeos.Lib.Checks
import Pxeos.Lib.Shell
import Mathlib.Data.Rat.Floor
import Mathlib.Data.List.Sort
import Mathlib.Data.Char
import Mathlib.Data.List.Lex

/-!
# The artifacts of a restore

`restore-preflight.sh` for the images of fixed layout, `mps` and `mpa`: what must be in the
directory of an image before its disks are written.  The facts about the disks are in an inventory,
or in one file of the size and one dump of the partition table for each disk.
-/

namespace Pxeos.Restore

open Pxeos.Lib

/-! ### The directory of an image -/

/-- An entry of a directory; `leads` is whether a symbolic link leads to something. -/
inductive Entry where
  | file (readable : Bool) (content : Str)
  | link (leads : Bool)
  | other
  deriving DecidableEq, Repr

/-- A partition of the inventory.  A number that is not whole is no number here. -/
structure InvPartition where
  number : DocField ℤ
  startSectors : DocField ℤ
  originalSectors : DocField ℤ
  typeGuid : DocField Str
  fs : DocField Str
  deriving DecidableEq, Repr

/-- A disk of the inventory; `partitions` is `none` if that is no array. -/
structure InvDisk where
  number : DocField ℤ
  partitionTable : DocField Str
  originalDiskBytes : DocField ℤ
  logicalSectorBytes : DocField ℤ
  physicalSectorBytes : DocField ℤ
  partitions : Option (List InvPartition)
  deriving DecidableEq, Repr

structure Inventory where
  version : DocField ℤ
  disks : Option (List InvDisk)
  deriving DecidableEq, Repr

/-- A directory, whether it is one and no link, its entries, and what `jq` reads in the inventory,
if `jq` is there and the file has such a document. -/
structure Image where
  isDir : Bool
  entries : List (Str × Entry)
  jq : Bool
  inventory : Option Inventory
  deriving DecidableEq, Repr

inductive ImageType where
  | mps
  | mpa
  deriving DecidableEq, Repr

def Image.entry (img : Image) (name : Str) : Option Entry :=
  (img.entries.find? fun e => e.1 == name).map Prod.snd

/-- `-e`. -/
def Image.present (img : Image) (name : Str) : Bool :=
  match img.entry name with
  | some (.link leads) => leads
  | some _ => true
  | none => false

/-- The content of a file that is regular, readable and not empty, and no link. -/
def Image.regular (img : Image) (name : Str) : Option Str :=
  match img.entry name with
  | some (.file true content) => if content = [] then none else some content
  | _ => none

/-- `rootpxe_preflight_regular_file`. -/
def rootpxePreflightRegularFile (img : Image) (name : Str) : Bool := (img.regular name).isSome

def decimal (n : ℕ) : Str := Nat.toDigits 10 n

def diskFile (number : Str) (suffix : String) : Str := 'd' :: (number ++ suffix.toList)

def inventoryName : Str := ".rootpxe-partition-inventory.json".toList

def payloadName (disk part : Str) : Str := 'd' :: (disk ++ 'p' :: (part ++ ".img".toList))

/-- `rootpxe_validate_artifact_fragments`. -/
def rootpxeValidateArtifactFragments (img : Image) (base : Str) : Bool :=
  rootpxePreflightRegularFile img base && !img.entries.any fun e => (base ++ ['.']).isPrefixOf e.1

/-! ### Dumps of a partition table -/

def lower (s : Str) : Str := s.map Char.toLower

/-- `rootpxe_preflight_table_type` of the text of a dump. -/
def tableType (text : Str) : Option Str :=
  match (records text).filter "label:".toList.isPrefixOf with
  | [line] =>
    let value := lower ((blankFields line).getD 1 [])
    if value = "dos".toList || value = "mbr".toList then some "mbr".toList
    else if value = "gpt".toList then some value
    else none
  | _ => none

/-- `rootpxe_preflight_table_type`. -/
def rootpxePreflightTableType (img : Image) (file : Str) : Option Str :=
  (img.regular file).bind tableType

/-- A row of a table: the texts of its fields. -/
structure Row where
  number : Str
  start : Str
  size : Str
  type : Str
  deriving DecidableEq, Repr

/-- `^/dev/[^[:space:]]+[[:space:]]*:`. -/
def isDeviceLine (line : Str) : Bool :=
  "/dev/".toList.isPrefixOf line &&
    let rest := line.drop 5
    let word := rest.takeWhile (! isSpace ·)
    word != [] &&
      ((word.drop 1).contains ':' ||
        ((rest.dropWhile (! isSpace ·)).dropWhile isSpace).head? == some ':')

/-- The first value of one of the keys: `key=[[:space:]]*` and the characters of a kind after
that. -/
def keyed (keys : List Str) (p : Char → Bool) : Str → Option Str
  | [] => none
  | c :: t =>
    let found := keys.filterMap fun key =>
      if key.isPrefixOf (c :: t) then
        let value := (((c :: t).drop key.length).dropWhile isSpace).takeWhile p
        if value = [] then none else some value
      else none
    match found with
    | value :: _ => some value
    | [] => keyed keys p t

/-- One line of a dump that is a row. -/
def tableRow (seen : List Row) (line : Str) : Option Row := do
  let number := (((blankFields line).getD 0 []).reverse.takeWhile Char.isDigit).reverse
  require (isPositive number && !seen.any (·.number == number))
  let start ← keyed ["start=".toList] Char.isDigit line
  let size ← keyed ["size=".toList] Char.isDigit line
  require (isPositive size)
  let type ← keyed ["type=".toList, "Id=".toList] (fun c => c != ',' && !isSpace c) line
  pure ⟨number, start, size, type⟩

/-- The rows of a dump. -/
def tableRows (text : Str) : Option (List Row) := do
  let rows ← ((records text).filter isDeviceLine).foldlM
    (fun rows line => (tableRow rows line).map (rows ++ [·])) []
  require (rows != [])
  pure rows

/-- `rootpxe_preflight_table_rows`. -/
def rootpxePreflightTableRows (img : Image) (file : Str) : Option (List Row) := do
  let _ ← rootpxePreflightTableType img file
  let text ← img.regular file
  tableRows text

/-- A row as it is read from its text with `IFS='|'`: a bar at the end of the type is not seen. -/
def Row.read (r : Row) : Row := { r with type := (readTwo '|' ('|' :: r.type)).2 }

/-! ### Types of partitions -/

/-- The leading zeros of a number but for the last digit. -/
def stripZeros : Str → Str
  | '0' :: c :: t => stripZeros (c :: t)
  | s => s

/-- `rootpxe_preflight_normalized_type`. -/
def rootpxePreflightNormalizedType (type : Str) : Str :=
  let value := lower type
  let value := if "0x".toList.isPrefixOf value then value.drop 2 else value
  match value with
  | ['0', c] => if c.isDigit || ('a' ≤ c && c ≤ 'f') then [c] else value
  | _ => if isNumber value then stripZeros value else value

/-- `rootpxe_preflight_extended_type`. -/
def rootpxePreflightExtendedType (type : Str) : Bool :=
  ["5".toList, "f".toList, "85".toList].contains (rootpxePreflightNormalizedType type)

/-- `rootpxe_preflight_swap_type`. -/
def rootpxePreflightSwapType (type : Str) : Bool :=
  ["82".toList, "8200".toList, "0657fd6d-a4ab-43c4-84e5-0933c84b4f4f".toList].contains
    (rootpxePreflightNormalizedType type)

/-! ### Boot artifacts -/

/-- `rootpxe_preflight_raw_boot_sector_count`. -/
def rootpxePreflightRawBootSectorCount (img : Image) (file : Str) : Option ℕ := do
  let content ← img.regular file
  let bytes := content.length
  require (isPositive (decimal bytes) && (decimal bytes).length ≤ 7)
  require (bytes ≤ 1048576 && bytes % 512 == 0)
  pure (bytes / 512)

/-- `rootpxe_preflight_fixed_boot_artifact`. -/
def rootpxePreflightFixedBootArtifact (img : Image) (disk : Str) : Bool :=
  match rootpxePreflightTableType img (diskFile disk ".partitions") with
  | none => false
  | some table =>
    rootpxePreflightRegularFile img (diskFile disk ".mbr") &&
      if table = "mbr".toList then
        (rootpxePreflightRawBootSectorCount img (diskFile disk ".mbr")).isSome
      else if (img.entry (diskFile disk ".grub.mbr")).isSome then
        (rootpxePreflightRawBootSectorCount img (diskFile disk ".grub.mbr")).isSome
      else true

/-! ### The inventory -/

def wholePositive : DocField ℤ → Bool
  | .value n => 0 < n
  | _ => false

def whole : DocField ℤ → Bool
  | .value n => 0 ≤ n
  | _ => false

/-- The value of a number that was checked, and of a text. -/
def natOf (f : DocField ℤ) : ℕ := (f.get?.getD 0).toNat

def textOf (f : DocField Str) : Str := f.get?.getD []

def InvDisk.parts (d : InvDisk) : List InvPartition := d.partitions.getD []

def Inventory.diskList (inv : Inventory) : List InvDisk := inv.disks.getD []

/-- `valid_partition`. -/
def InvPartition.valid (p : InvPartition) : Bool :=
  wholePositive p.number && whole p.startSectors && wholePositive p.originalSectors &&
    p.typeGuid.get?.isSome &&
    p.fs.get?.isSome

/-- `valid_disk`. -/
def InvDisk.valid (d : InvDisk) : Bool :=
  (d.partitionTable.get? == some "mbr".toList || d.partitionTable.get? == some "gpt".toList) &&
    wholePositive d.originalDiskBytes && wholePositive d.logicalSectorBytes &&
      whole d.physicalSectorBytes &&
    natOf d.logicalSectorBytes ≤ natOf d.physicalSectorBytes && d.partitions.isSome &&
      d.parts.all InvPartition.valid &&
    (d.parts.map fun p => natOf p.number).dedup.length == d.parts.length

def InvDisk.before (d e : InvDisk) : Bool := natOf d.number ≤ natOf e.number

/-- The check of the inventory in `rootpxe_preflight_inventory_rows`. -/
def Inventory.valid (inv : Inventory) : Bool :=
  inv.version.get? == some 1 && inv.disks.isSome && inv.diskList != [] &&
    inv.diskList.all (fun d => wholePositive d.number) &&
    (inv.diskList.map fun d => natOf d.number).dedup.length == inv.diskList.length &&
    (inv.diskList.map fun d => natOf d.number).mergeSort == List.range' 1 inv.diskList.length &&
    inv.diskList.all InvDisk.valid

/-- `rootpxe_preflight_inventory_rows`: the number and the bytes of every disk, by number. -/
def rootpxePreflightInventoryRows (img : Image) : Option (List (Str × Str)) := do
  require img.jq
  let inv ← img.inventory
  require inv.valid
  pure ((inv.diskList.mergeSort InvDisk.before).map fun d => (decimal (natOf d.number),
    decimal (natOf d.originalDiskBytes)))

/-- A text in `@tsv`. -/
def tsvField (s : Str) : Str :=
  s.flatMap fun c => if c = '\\' then ['\\', '\\'] else if c = '\t' then ['\\', 't'] else if c =
    '\n' then ['\\', 'n']
    else if c = '\r' then ['\\', 'r'] else [c]

/-- The row of a partition of the inventory. -/
def InvPartition.row (p : InvPartition) : Row :=
  ⟨decimal (natOf p.number), decimal (natOf p.startSectors), decimal (natOf p.originalSectors),
    tsvField (textOf p.typeGuid)⟩

def Row.normalized (r : Row) : Row := { r with type := rootpxePreflightNormalizedType r.type }

/-- The line of a row. -/
def Row.text (r : Row) : Str := r.number ++ '\t' :: (r.start ++ '\t' :: (r.size ++ '\t' :: r.type))

def digitsValue (s : Str) : ℕ := Nat.ofDigitChars 10 s 0

/-- The order of `sort -n`: by the number at the start of the line, then by the line. -/
def Row.before (r t : Row) : Bool :=
  digitsValue r.number < digitsValue t.number ||
    (digitsValue r.number == digitsValue t.number && r.text ≤ t.text)

/-- `sort -n`. -/
def sortRows (rows : List Row) : List Row := rows.mergeSort Row.before

/-- The disk with a number. -/
def Inventory.disk? (inv : Inventory) (disk : Str) : Option InvDisk :=
  inv.diskList.find? fun d => decimal (natOf d.number) == disk

/-- `rootpxe_preflight_validate_inventory_table`.  `jq -e` fails if it prints nothing. -/
def rootpxePreflightValidateInventoryTable (img : Image) (inv : Inventory) (disk : Str) : Bool :=
  match inv.disk? disk, rootpxePreflightTableType img (diskFile disk ".partitions") with
  | some d, some actualTable =>
    textOf d.partitionTable == actualTable && d.parts != [] &&
      match rootpxePreflightTableRows img (diskFile disk ".partitions") with
      | none => false
      | some rows =>
        let actual := sortRows (rows.map fun r => r.read.normalized)
        let expected := sortRows ((sortRows (d.parts.map InvPartition.row)).map Row.normalized)
        expected == actual
  | _, _ => false

/-! ### The facts about the disks -/

/-- What the arithmetic of the shell makes of a number. -/
def wrapped (n : ℕ) : ℤ := ((n : ℤ) + 2 ^ 63) % 2 ^ 64 - 2 ^ 63

/-- `^d([1-9][0-9]*)\.(size|partitions)$`. -/
def factNumber (name : Str) : Option Str :=
  match name with
  | 'd' :: rest =>
    let number := rest.takeWhile Char.isDigit
    let suffix := rest.dropWhile Char.isDigit
    if isPositive number && (suffix == ".size".toList || suffix == ".partitions".toList) then
      some number else none
  | _ => none

/-- `rootpxe_preflight_no_unlisted_disk_facts`. -/
def rootpxePreflightNoUnlistedDiskFacts (img : Image) (maximum : ℕ) : Bool :=
  img.entries.all fun e =>
    match factNumber e.1 with
    | some number => wrapped (digitsValue number) ≤ maximum
    | none => true

/-- The number that `awk` sees in a text, if it sees one. -/
def awkNumber (s : Str) : Option ℚ :=
  let s := ((s.dropWhile isSpace).reverse.dropWhile isSpace).reverse
  let (negative, s) := match s with
    | '-' :: t => (true, t)
    | '+' :: t => (false, t)
    | t => (false, t)
  let whole := s.takeWhile Char.isDigit
  let s := s.dropWhile Char.isDigit
  let (fraction, s) := match s with
    | '.' :: t => (t.takeWhile Char.isDigit, t.dropWhile Char.isDigit)
    | t => ([], t)
  let mantissa : ℚ := digitsValue (whole ++ fraction) / 10 ^ fraction.length
  let mantissa := if negative then -mantissa else mantissa
  if whole ++ fraction = [] then none
  else
    match s with
    | [] => some mantissa
    | e :: t =>
      if e ≠ 'e' ∧ e ≠ 'E' then none
      else
        match t with
        | '-' :: ds => if isNumber ds then some (mantissa / 10 ^ digitsValue ds) else none
        | '+' :: ds => if isNumber ds then some (mantissa * 10 ^ digitsValue ds) else none
        | ds => if isNumber ds then some (mantissa * 10 ^ digitsValue ds) else none

/-- The bytes in the file of the size of a disk. -/
def sizeFact (expected : ℕ) (text : Str) : Option Str := do
  let line ← (records text).head?
  let value := if line.getLast? = some '\r' then line.dropLast else line
  match value.splitOn ':' with
  | [number, bytes] =>
    if awkNumber number = some (expected : ℚ) && isPositive bytes then some bytes else none
  | _ => none

/-- There is a file of the size or a table of a disk. -/
def Image.hasDisk (img : Image) (n : ℕ) : Bool :=
  img.present (diskFile (decimal n) ".size") || img.present (diskFile (decimal n) ".partitions")

/-- The disks that the loops from one on visit: each of them has an entry of its own, so that the
last one is not above the number of the entries. -/
def Image.legacyDisks (img : Image) : List ℕ :=
  (List.range' 1 (img.entries.length + 1)).takeWhile img.hasDisk

/-- `rootpxe_fixed_restore_disk_facts`. -/
def rootpxeFixedRestoreDiskFacts (img : Image) : Option (List (Str × Str)) := do
  require img.isDir
  if img.present inventoryName then
    require (rootpxePreflightRegularFile img inventoryName)
    let rows ← rootpxePreflightInventoryRows img
    let inv ← img.inventory
    require (rows.all fun r => isPositive r.1 && isPositive r.2 &&
      rootpxePreflightValidateInventoryTable img inv r.1)
    require
      (rootpxePreflightNoUnlistedDiskFacts img
        ((rows.getLast?.map fun r => digitsValue r.1).getD 0))
    pure rows
  else
    let facts ← img.legacyDisks.mapM fun n => do
      let text ← img.regular (diskFile (decimal n) ".size")
      let bytes ← sizeFact n text
      let _ ← rootpxePreflightTableRows img (diskFile (decimal n) ".partitions")
      pure (decimal n, bytes)
    require (facts != [] && rootpxePreflightNoUnlistedDiskFacts img facts.length)
    pure facts

/-! ### Payloads -/

/-- A partition without a payload. -/
def skips (type fs : Str) : Bool :=
  fs == "swap".toList || rootpxePreflightExtendedType type || rootpxePreflightSwapType type

/-- `rootpxe_preflight_validate_fixed_selected_payload`. -/
def rootpxePreflightValidateFixedSelectedPayload (img : Image) (disk part type fs : Str) : Bool :=
  isPositive disk && isPositive part &&
    (skips type fs || rootpxeValidateArtifactFragments img (payloadName disk part))

/-- The type and the filesystem of a partition as they are read with `IFS=$'\t'`: an empty field is
not seen. -/
def InvPartition.read (p : InvPartition) : Str × Str :=
  let fields := [tsvField (textOf p.typeGuid), tsvField (textOf p.fs)].filter (· ≠ [])
  (fields.getD 0 [], fields.getD 1 [])

/-- The partitions of the inventory, with the number of the disk. -/
def Inventory.partitions (inv : Inventory) : List (Str × InvPartition) :=
  inv.diskList.flatMap fun d => d.parts.map fun p => (decimal (natOf d.number), p)

/-- One turn of the loops over the rows of the inventory. -/
def inventoryPayload (img : Image) (row : Str × InvPartition) : Bool :=
  rootpxePreflightValidateFixedSelectedPayload img row.1 (decimal (natOf row.2.number))
    row.2.read.1 row.2.read.2

/-- `rootpxe_preflight_validate_fixed_inventory_payloads`. -/
def rootpxePreflightValidateFixedInventoryPayloads (img : Image) (inv : Inventory) : Bool :=
  inv.partitions != [] && inv.partitions.all (inventoryPayload img)

/-- The loop over the rows of one table. -/
def tablePayloads (img : Image) (disk : Str) (rows : List Row) : Bool :=
  rows.all fun r => skips r.read.type [] || rootpxeValidateArtifactFragments img
    (payloadName disk r.number)

/-- The checks of one disk of an `mpa` image. -/
def legacyDisk (img : Image) (n : ℕ) : Bool :=
  rootpxePreflightRegularFile img (diskFile (decimal n) ".size") &&
    match rootpxePreflightTableRows img (diskFile (decimal n) ".partitions") with
    | none => false
    | some rows =>
      tablePayloads img (decimal n) rows && rootpxePreflightFixedBootArtifact img (decimal n)

/-- `rootpxe_preflight_validate_fixed_legacy_payloads`.  For `mps` the status of the boot artifact
is not used: the check of the disks comes after it. -/
def rootpxePreflightValidateFixedLegacyPayloads (img : Image) (type : ImageType) : Bool :=
  match type with
  | .mps =>
    match rootpxePreflightTableRows img (diskFile (decimal 1) ".partitions") with
    | none => false
    | some rows => tablePayloads img (decimal 1) rows && rootpxePreflightNoUnlistedDiskFacts img 1
  | .mpa => (rootpxeFixedRestoreDiskFacts img).isSome && img.legacyDisks.all (legacyDisk img) &&
      img.legacyDisks != []

/-! ### The check -/

/-- The boot artifacts of the disks of an inventory. -/
def bootArtifacts (img : Image) (facts : List (Str × Str)) : Bool :=
  facts.all fun f => rootpxePreflightFixedBootArtifact img f.1

/-- One disk of `rootpxe_preflight_validate_fixed_selected`: whether the partition was found, if all
is in order. -/
def selectedDisk (img : Image) (scope : Str) (n : ℕ) : Option Bool := do
  let rows ← rootpxePreflightTableRows img (diskFile (decimal n) ".partitions")
  let selected := rows.filter (·.number == scope)
  require (selected.all fun r => rootpxePreflightValidateFixedSelectedPayload img (decimal n)
    r.number r.read.type [])
  require (rootpxePreflightFixedBootArtifact img (decimal n))
  pure (!selected.isEmpty)

/-- `rootpxe_preflight_validate_fixed_selected`. -/
def rootpxePreflightValidateFixedSelected (img : Image) (type : ImageType) (scope : Str) : Bool :=
  isPositive scope &&
    if img.present inventoryName then
      match rootpxeFixedRestoreDiskFacts img, img.inventory with
      | some facts, some inv =>
        let selected := inv.partitions.filter fun row => decimal (natOf row.2.number) == scope
        bootArtifacts img facts && selected != [] && selected.all (inventoryPayload img)
      | _, _ => false
    else
      (type == .mps || (rootpxeFixedRestoreDiskFacts img).isSome) &&
        match (if type = .mps then img.legacyDisks.take 1 else img.legacyDisks).mapM
          (selectedDisk img scope) with
        | none => false
        | some found => found.any id

/-- `rootpxe_validate_restore_artifacts` for the images of fixed layout. -/
def rootpxeValidateRestoreArtifacts (img : Image) (type : ImageType) (scope : Str) : Bool :=
  img.isDir &&
    if scope = "all".toList then
      if img.present inventoryName then
        match rootpxeFixedRestoreDiskFacts img, img.inventory with
        | some facts, some inv =>
          rootpxePreflightValidateFixedInventoryPayloads img inv && bootArtifacts img facts
        | _, _ => false
      else rootpxePreflightValidateFixedLegacyPayloads img type
    else if scope = "mbr".toList then
      if img.present inventoryName then
        match rootpxeFixedRestoreDiskFacts img with
        | some facts => bootArtifacts img facts
        | none => false
      else
        match type with
        | .mps =>
          (rootpxePreflightTableRows img (diskFile (decimal 1) ".partitions")).isSome &&
            rootpxePreflightFixedBootArtifact img (decimal 1)
        | .mpa =>
          (rootpxeFixedRestoreDiskFacts img).isSome &&
            rootpxePreflightValidateFixedLegacyPayloads img type
    else
      match scope with
      | c :: _ => c != '0' && c.isDigit && rootpxePreflightValidateFixedSelected img type scope
      | [] => false

end Pxeos.Restore
