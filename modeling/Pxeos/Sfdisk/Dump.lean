import Pxeos.Lib.Text
import Pxeos.Sfdisk.FillDisk

/-!
# Reading a dump, changing it and printing it

The pattern rules of `procsfdisk.awk`, which read an `sfdisk -d` dump line by line, its
`display_output`, and the actions between them.  A partition line is cut at its commas before its
fields are recognised, wherever the commas stand.
-/

namespace Pxeos.Sfdisk

open Pxeos.Lib

/-! ### Lines -/

/-- `$1`, `$2` and so on. -/
def words (line : Text) : List Text :=
  (line.splitOnP fun c => c == ' ' || c == '\t').filter (· ≠ [])

/-- `gsub(/.*key */, "", t)` when it matches. -/
def gsubKey (key t : Text) : Option Text := (afterLast key t).map fun r => r.dropWhile (· == ' ')

/-- `t` after `gsub(/.*key */, "", t)`. -/
def stripKey (key t : Text) : Text := (gsubKey key t).getD t

def startKey : Text := "start=".toList
def sizeKey : Text := "size=".toList
def typeKey : Text := "type=".toList
def idKey : Text := "Id=".toList
def uuidKey : Text := "uuid=".toList
def nameKey : Text := "name=".toList
def attrsKey : Text := "attrs=".toList

/-- `gsub(/.*(type|Id)= */, "", t)`. -/
def stripType (t : Text) : Text :=
  match gsubKey typeKey t, gsubKey idKey t with
  | some a, some b => if a.length ≤ b.length then a else b
  | some a, none => a
  | none, some b => b
  | none, none => t

/-- `gensub(/^.*[^0-9]([0-9]+)/, "\\1", 1, name)`: the last run of digits and what follows it. -/
def partNumber (name : Text) : Text :=
  let after := name.reverse.takeWhile fun c => !c.isDigit
  let digits := (name.reverse.drop after.length).takeWhile Char.isDigit
  let before := (name.reverse.drop after.length).dropWhile Char.isDigit
  if digits = [] ∨ before = [] then name else digits.reverse ++ after.reverse

/-- A text that is not empty and does not read as the number `0`. -/
def truthy (t : Text) : Bool :=
  let s := t.filter (· != ' ')
  !(t.isEmpty || (s.any (· == '0') && s.all fun c => c == '0' || c == '.' || c == '-' || c == '+'))

/-! ### Partition lines -/

/-- The boot flag: what stands behind the type, from the first comma on. -/
def flagsOf (key line : Text) : Text :=
  (beforeFirst key ((afterFirst key line).getD [])).dropWhile fun c => c != ',' && c != '$'

/-- `gsub(/.*\\x22 */, "\"", t)`. -/
def unescapeQuote (t : Text) : Text :=
  match gsubKey "\\x22".toList t with
  | some r => '"' :: r
  | none => t

/-- `name` and `attrs` from the fifth and the sixth field.  A name with `attrs=` in it is taken for
a corrupted one: it is dropped, and its attributes are kept. -/
def nameAttrs (old : Text × Text) (field5 field6 : Text) : Text × Text :=
  let (name, attrs) :=
    match gsubKey nameKey field5, gsubKey attrsKey field5 with
    | some _, some attrs => (old.1, unescapeQuote attrs)
    | some name, none => (name, old.2)
    | none, some attrs => (old.1, attrs)
    | none, none => old
  if truthy field6 then (name, stripKey attrsKey field6) else (name, attrs)

/-- The record of a partition line; what the line does not set stays as it was. -/
def readPart (label : Text) (old : Part) (line : Text) : Part :=
  let device := ((words line)[0]?).getD []
  let field (i : ℕ) : Text := ((line.splitOn ',')[i - 1]?).getD []
  let size := int (stripKey sizeKey (field 2))
  let record : Part := { old with
    device := device
    number := (int (partNumber device)).toNat
    start := int (stripKey startKey (field 1))
    size := size
    minsize := if old.minsize = 0 then size else old.minsize
    type := stripType (field 3) }
  if label = "dos".toList then { record with flags := flagsOf typeKey line }
  else if label = "gpt".toList then
    let (name, attrs) := nameAttrs (old.name, old.attrs) (field 5) (field 6)
    { record with uuid := stripKey uuidKey (field 4), name := name, attrs := attrs }
  else { record with flags := flagsOf idKey line }

/-- A record with nothing set. -/
def blankPart : Part := ⟨[], 0, 0, 0, 0, [], [], [], [], []⟩

/-! ### The dump -/

/-- The variables of the script after the dump has been read. -/
structure Scan where
  label : Text
  labelid : Text
  device : Text
  unit : Text
  firstlba : ℤ
  lastlba : ℤ
  sectorsize : ℤ
  parts : List Part
  deriving DecidableEq, Repr

/-- `/start=/`. -/
def scanPart (s : Scan) (line : Text) : Scan :=
  let device := ((words line)[0]?).getD []
  if s.parts.any (·.device == device) then
    { s with parts := s.parts.map fun p => if p.device = device then
      readPart s.label p line else p }
  else { s with parts := s.parts ++ [readPart s.label blankPart line] }

/-- The rules of the headers, `/^key/{variable = $2}`. -/
def headerRules : List (Text × (Scan → Text → Scan)) :=
  [("label:".toList, fun s v => { s with label := v }),
   ("label-id:".toList, fun s v => { s with labelid := v }),
   ("device:".toList, fun s v => { s with device := v }),
   ("unit:".toList, fun s v => { s with unit := v }),
   ("first-lba:".toList, fun s v => { s with firstlba := int v }),
   ("last-lba:".toList, fun s v => { s with lastlba := int v }),
   ("sector-size:".toList, fun s v => { s with sectorsize := int v })]

/-- The pattern rules, on one line. -/
def scanLine (s : Scan) (line : Text) : Scan :=
  let value := ((words line)[1]?).getD []
  let s := headerRules.foldl (fun s rule => if rule.1 <+: line then rule.2 s value else s) s
  if startKey <:+: line then scanPart s line else s

/-- The script reads its input. -/
def scan (lines : List Text) : Scan := lines.foldl scanLine ⟨[], [], [], [], 0, 0, 0, []⟩

/-- The table the actions work on: the records by number. -/
def Scan.table? (s : Scan) : Option Table :=
  let parts := s.parts.insertionSort fun p q => p.number ≤ q.number
  let build (label : Label) : Option Table :=
    if h : (parts.map (·.number)).Pairwise (· < ·) ∧ ∀ p ∈ parts, 0 ≤ p.start ∧ 0 ≤ p.size ∧
      0 ≤ p.minsize then
      some ⟨label, s.firstlba.toNat, s.lastlba.toNat, parts, h.1, h.2⟩
    else none
  if s.label = "dos".toList then build .dos else if s.label = "gpt".toList then build .gpt else none

/-! ### `display_output` -/

/-- `%12d`. -/
def padded (n : ℤ) : Text := (decimal n).leftpad 12 ' '

/-- A field that is printed when it is set. -/
def optionalField (key value : Text) : Text :=
  if value = [] then [] else ", ".toList ++ key ++ value

/-- The line of a partition. -/
def displayLine (label : Text) (p : Part) : Text :=
  p.device ++ " : start=".toList ++ padded p.start ++ ", size=".toList ++
    padded p.size ++ ", ".toList ++
    (if label = [] then idKey else typeKey) ++ p.type ++
    if label = "gpt".toList then
      optionalField uuidKey p.uuid ++ optionalField nameKey p.name ++ optionalField attrsKey p.attrs
    else p.flags

/-- A header with a number, printed when it is set. -/
def numberHeader (key : String) (n : ℤ) : List Text :=
  if n = 0 then [] else [key.toList ++ decimal n]

/-- The headers. -/
def displayHeader (s : Scan) : List Text :=
  (if s.label ≠ [] ∧ s.labelid ≠ [] ∧ s.device ≠ [] then
    ["label: ".toList ++ s.label, "label-id: ".toList ++ s.labelid, "device: ".toList ++ s.device]
      else []) ++
  ["unit: ".toList ++ if s.unit = [] then "sectors".toList else s.unit] ++
  numberHeader "first-lba: " s.firstlba ++ numberHeader "last-lba: " s.lastlba ++
  numberHeader "sector-size: " s.sectorsize ++ [[]]

/-- `display_output`. -/
def displayOutput (s : Scan) : List Text := displayHeader s ++ s.parts.map (displayLine s.label)

/-! ### The actions -/

/-- `action`, with the variables only some actions read. -/
inductive Action where
  | resize (target : Text) (sizePos : ℤ) (logicalSectorSize : ℕ)
  | move (target : Text) (sizePos : ℤ)
  | filldisk
  deriving DecidableEq, Repr

/-- The target at a new place, when `check_overlap` allows it. -/
def retarget (c : Settings) (t : Table) (tr : Traversal t.numbers) (target : Text)
    (place : Part → ℤ × ℤ) : List Part :=
  t.parts.map fun p =>
    if p.device = target then
      let (start, size) := place p
      if checkOverlap tr false (.overlap p.number) c.diskSize t.parts p start size then
        { p with start := start, size := size }
      else p
    else p

/-- `resize_partition`: bytes to sectors, rounded up. -/
def resizePartition (c : Settings) (t : Table) (tr : Traversal t.numbers) (target : Text)
    (sizePos : ℤ) (logicalSectorSize : ℕ) : List Part :=
  retarget c t tr target fun p =>
    (p.start, (sizePos + logicalSectorSize - 1).tdiv logicalSectorSize)

/-- `move_partition`. -/
def movePartition (c : Settings) (t : Table) (tr : Traversal t.numbers) (target : Text)
    (sizePos : ℤ) : List Part :=
  retarget c t tr target fun p =>
    let start := sizePos + c.sectorSize
    let start := start - start.tmod c.sectorSize
    (if start < c.minStart then (c.minStart : ℤ) else start, p.size)

/-- An action on the table.  The target of `resize` and `move` is left alone unless the unit is
`sectors`, and a division by zero ends the script. -/
def perform (c : Settings) (a : Action) (unit : Text) (t : Table) (tr : Traversal t.numbers) :
    Except FillError Filled :=
  let targeted (target : Text) : Bool :=
    unit == "sectors".toList && t.parts.any (·.device == target)
  match a with
  | .resize target sizePos logicalSectorSize =>
    if targeted target then
      if logicalSectorSize = 0 then .error .fatal
      else .ok ⟨resizePartition c t tr target sizePos logicalSectorSize, t.lastlba⟩
    else .ok ⟨t.parts, t.lastlba⟩
  | .move target sizePos =>
    if targeted target then
      if c.sectorSize = 0 then .error .fatal
      else .ok ⟨movePartition c t tr target sizePos, t.lastlba⟩
    else .ok ⟨t.parts, t.lastlba⟩
  | .filldisk => fillDisk c t tr

/-- **The script**: the variables with which `display_output` is called, when the action
succeeds. -/
def runScript (c : Settings) (a : Action) (tr : (t : Table) → Traversal t.numbers)
    (lines : List Text) : Option Scan :=
  let s := scan lines
  match s.table? with
  | none => none
  | some t =>
    match perform c a s.unit t (tr t) with
    | .error _ => none
    | .ok out => some { s with parts := out.parts, lastlba := out.lastlba }

end Pxeos.Sfdisk
