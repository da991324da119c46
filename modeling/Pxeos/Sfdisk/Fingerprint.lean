import Pxeos.Lib.Fields
import Pxeos.Lib.Shell
import Pxeos.Sfdisk.DumpRead
import Mathlib.Data.List.Sort

/-!
# The fingerprint of a layout

`rootpxe_sfdisk_layout_fingerprint` of `funcs.sh`: the headers and the partitions of an `sfdisk -d`
dump, printed in one form and sorted.  After a layout has been written, the fingerprint of what was
written is compared with the fingerprint of what is read back.
-/

namespace Pxeos.Sfdisk

open Pxeos.Lib

/-! ### Fields -/

def absent : Text := "<absent>".toList
def invalid : Text := "<invalid>".toList
def bootableKey : Text := "bootable".toList

/-- What `value_for` returns for what follows a key: a text in quotes, or a text up to the next
comma. -/
def fieldValue : Text → Text
  | '"' :: v => if '"' ∈ v then '"' :: (v.takeWhile (· != '"') ++ ['"']) else invalid
  | v => trim (v.takeWhile (· != ','))

/-- `value_for`. -/
def valueFor (text key : Text) : Text := ((behindField key text).map fieldValue).getD absent

/-- `flag_for`. -/
def flagFor (text key : Text) : Text := if flagField key text then "true".toList else absent

/-- `tolower`. -/
def tolower (t : Text) : Text := t.map Char.toLower

/-! ### Headers -/

/-- `/^key:[[:space:]]*/`: the values that are accepted, and what is printed of them. -/
structure HeaderRule where
  key : Text
  accepts : Text → Bool
  shown : Text → Text

/-- `[0-9A-Fa-f]`. -/
def isHex (c : Char) : Bool := c.isDigit || ('A' ≤ c && c ≤ 'F') || ('a' ≤ c && c ≤ 'f')

/-- `^[0-9A-Fa-f-]+$` or `^0x[0-9A-Fa-f]+$`. -/
def isLabelId (t : Text) : Bool :=
  (!t.isEmpty && t.all fun c => isHex c || c == '-') ||
    match t with
    | '0' :: 'x' :: h => !h.isEmpty && h.all isHex
    | _ => false

def labelRule : HeaderRule :=
  ⟨"label".toList, fun v => v == "gpt".toList || v == "dos".toList, tolower⟩
def labelIdRule : HeaderRule := ⟨"label-id".toList, isLabelId, tolower⟩
def deviceRule : HeaderRule := ⟨"device".toList, fun v => "/dev/".toList.isPrefixOf v, id⟩
def unitRule : HeaderRule := ⟨"unit".toList, fun v => v == "sectors".toList, id⟩
def firstLbaRule : HeaderRule := ⟨"first-lba".toList, isPositive, id⟩
def lastLbaRule : HeaderRule := ⟨"last-lba".toList, isPositive, id⟩
def sectorSizeRule : HeaderRule := ⟨"sector-size".toList, isPositive, id⟩

/-- The rules of the headers. -/
def fingerprintRules : List HeaderRule :=
  [labelRule, labelIdRule, deviceRule, unitRule, firstLbaRule, lastLbaRule, sectorSizeRule]

/-- The line that is printed for a header. -/
def headerLine (key value : Text) : Text := "header\t".toList ++ key ++ '\t' :: value

/-- The variables of the program: the headers and the numbers that have been seen, and what has been
printed. -/
structure Reading where
  headers : List Text
  table : Text
  seen : List Text
  parts : ℕ
  bad : Bool
  out : List Text
  deriving DecidableEq, Repr

/-- A header: it must be the only one of its kind. -/
def readHeader (s : Reading) (rule : HeaderRule) (line : Text) : Reading :=
  let value := trim (((words line)[1]?).getD [])
  { s with
    headers := rule.key :: s.headers
    bad := s.bad || s.headers.contains rule.key || !rule.accepts value
    table := if rule.key = "label".toList then tolower value else s.table
    out := s.out ++ [headerLine rule.key (rule.shown value)] }

/-! ### Partitions -/

/-- `^(0|[1-9][0-9]*)$`. -/
def isNatural (t : Text) : Bool := t == ['0'] || isPositive t

/-- `%010d`, of the digits of a number. -/
def tenDigits (number : Text) : Text := number.leftpad 10 '0'

/-- The line that is printed for a partition. -/
def partitionLine (number start size type uuid name attrs bootable : Text) : Text :=
  "partition\t".toList ++ tenDigits number ++ "\tstart=".toList ++ start ++ "\tsize=".toList ++
    size ++ "\ttype=".toList ++
    tolower type ++ "\tuuid=".toList ++ tolower uuid ++ "\tname=".toList ++ name ++
      "\tattrs=".toList ++ attrs ++
    "\tbootable=".toList ++ tolower bootable

/-- `sub(/^[^:]*:[[:space:]]*/, "", text)`. -/
def afterColon (line : Text) : Text :=
  match line.dropWhile (· != ':') with
  | [] => line
  | _ :: t => t.dropWhile isSpace

/-- What is printed for a partition, when its fields are accepted. -/
def readRecord (number line : Text) : Option Text :=
  let text := afterColon line
  let start := valueFor text startKey
  let size := valueFor text sizeKey
  let type := valueFor text typeKey
  let uuid := valueFor text uuidKey
  let name := valueFor text nameKey
  let attrs := valueFor text attrsKey
  let bootable := flagFor text bootableKey
  if !isNatural start || !isPositive size || type == invalid || uuid == invalid ||
    name == invalid || attrs == invalid ||
      bootable == invalid then none
  else some (partitionLine number start size type uuid name attrs bootable)

/-- The first word of a line. -/
def pathOf (line : Text) : Text := ((words line)[0]?).getD []

/-- `sub(/^.*[^0-9]/, "", number)`: the digits at the end of a path. -/
def trailingNumber (path : Text) : Text := path.rtakeWhile Char.isDigit

/-- `/start=/`.  A path of nothing but digits is not changed by `sub`, which then fails. -/
def readPartition (s : Reading) (line : Text) : Reading :=
  let number := trailingNumber (pathOf line)
  if (pathOf line).all Char.isDigit || !isPositive number then { s with bad := true }
  else if s.seen.contains number then { s with bad := true }
  else
    match readRecord number line with
    | none => { s with seen := number :: s.seen, bad := true }
    | some text => { s with seen := number :: s.seen, parts := s.parts + 1, out := s.out ++ [text] }

/-! ### The program -/

/-- The rules, on one line. -/
def readLine (s : Reading) (line : Text) : Reading :=
  match fingerprintRules.find? fun rule => (rule.key ++ [':']).isPrefixOf line with
  | some rule => readHeader s rule line
  | none => if startKey <:+: line then readPartition s line else s

/-- What the rules make of the dump. -/
def readLines (lines : List Text) : Reading := lines.foldl readLine ⟨[], [], [], 0, false, []⟩

/-- `END`: the dump is refused. -/
def Reading.refused (s : Reading) : Bool :=
  s.bad || ["label", "device", "unit", "sector-size"].any
    (fun key => s.headers.count key.toList != 1) || s.parts == 0 ||
    (s.table == "gpt".toList && ["label-id", "first-lba", "last-lba"].any
      fun key => s.headers.count key.toList != 1)

/-- The order of `LC_ALL=C sort`. -/
def sortsBefore : Text → Text → Bool
  | [], _ => true
  | _ :: _, [] => false
  | a :: s, b :: t => a.toNat < b.toNat || (a == b && sortsBefore s t)

/-- What the program prints, and whether it succeeds. -/
structure Fingerprint where
  lines : List Text
  succeeds : Bool
  deriving DecidableEq, Repr

/-- **`rootpxe_sfdisk_layout_fingerprint`**. -/
def sfdiskLayoutFingerprint (lines : List Text) : Fingerprint :=
  let s := readLines lines
  ⟨s.out.insertionSort (sortsBefore · ·), !s.refused⟩

/-! ### The dumps -/

/-- A partition as it stands in a dump: its number and its size are positive. -/
def Entry.Proper (label : Label) (e : Entry) : Prop := e.Valid label ∧ 0 < e.number ∧ 0 < e.size

/-- A dump with its partition lines in any order, whose headers are those the program asks for. -/
structure LayoutDump where
  label : Label
  labelId : Text
  device : Text
  /-- `0` stands for a header that is not there. -/
  firstLba : ℕ
  lastLba : ℕ
  sectorSize : ℕ
  /-- Further headers, such as `grain` and `table-length`. -/
  other : List Text
  stem : Text
  entries : List Entry
  labelId_ok : isLabelId labelId = true
  device_ok : HeaderWord device ∧ "/dev/".toList <+: device
  lba_ok : label = .gpt → 0 < firstLba ∧ 0 < lastLba
  sector_ok : 0 < sectorSize
  other_ok : ∀ line ∈ other, Ignored line
  stem_ok : Stem stem
  nonempty : entries ≠ []
  nodup : (entries.map (·.number)).Nodup
  valid : ∀ e ∈ entries, e.Proper label

lemma isLabelId_sample : isLabelId "6F1A3B5C-01".toList = true := by decide

lemma device_sda : HeaderWord "/dev/sda".toList ∧ "/dev/".toList <+: "/dev/sda".toList :=
  ⟨headerWord_sda, by decide⟩

lemma lba_sample : 0 < 2048 ∧ 0 < 99966 := ⟨by decide, by decide⟩

lemma sector_sample : 0 < 512 := by decide

/-- The lines of a dump. -/
def LayoutDump.lines (d : LayoutDump) : List Text :=
  headerLines d.label.text d.labelId d.device "sectors".toList d.firstLba d.lastLba
    d.sectorSize d.other ++
    d.entries.map (sfdiskLine d.label d.stem)

/-- The record of a partition, in one letter case. -/
structure LayoutRecord where
  number : ℕ
  start : ℤ
  size : ℤ
  type : Text
  uuid : Option Text
  name : Option Text
  attrs : Option Text
  bootable : Bool
  deriving DecidableEq, Repr

/-- The fields a partition has in a dump with a label. -/
def Entry.record (label : Label) (e : Entry) : LayoutRecord :=
  match label with
  | .gpt =>
    ⟨e.number, e.start, e.size, tolower e.type, some (tolower e.uuid), e.name, e.attrs, false⟩
  | .dos => ⟨e.number, e.start, e.size, tolower e.type, none, none, none, e.bootable⟩

/-- The records of a dump. -/
def LayoutDump.records (d : LayoutDump) : List LayoutRecord := d.entries.map (Entry.record d.label)

/-- **Dumps of one layout**: the same headers and the same set of records, up to the letter case of
types and identifiers. The unit of a dump is always `sectors`. -/
structure LayoutDump.Same (d d' : LayoutDump) : Prop where
  label : d.label = d'.label
  labelId : tolower d.labelId = tolower d'.labelId
  device : d.device = d'.device
  firstLba : d.firstLba = d'.firstLba
  lastLba : d.lastLba = d'.lastLba
  sectorSize : d.sectorSize = d'.sectorSize
  records : ∀ r, r ∈ d.records ↔ r ∈ d'.records

/-- A name in which `attrs=` stands behind a comma and blanks. -/
def Entry.Shadowed (e : Entry) : Prop :=
  ∃ a b c, e.name = some (a ++ ',' :: (b ++ (attrsKey ++ c))) ∧ ∀ x ∈ b, isSpace x = true

end Pxeos.Sfdisk
