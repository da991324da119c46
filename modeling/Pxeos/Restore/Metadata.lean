import Mathlib.Data.List.DropRight
import Pxeos.Lib.AwkNumber

/-!
# The metadata of a volume group

The text for `awk` of `rootpxe_lvm_restore_metadata_binds_group`, which goes through a backup of
`vgcfgbackup` line by line.
-/

namespace Pxeos.Restore

open Pxeos.Lib

/-! ### The plan -/

/-- The letters of names of volumes. -/
def isNameChar (c : Char) : Bool := c.isAlphanum || c == '_' || c == '.' || c == '+' || c == '-'

/-- The letters of identifiers. -/
def isIdentChar (c : Char) : Bool :=
  c.isAlphanum || c == '.' || c == '_' || c == ':' || c == '+' || c == '-'

/-- What the plan says of a group: at least one logical volume, with names and uuids that differ. -/
structure GroupPlan where
  vgName : Str
  vgUuid : Str
  pvUuid : Str
  volumes : List (Str × Str)
  vgName_chars : vgName.all isNameChar = true
  vgUuid_ne : vgUuid ≠ []
  vgUuid_chars : vgUuid.all isIdentChar = true
  pvUuid_ne : pvUuid ≠ []
  pvUuid_chars : pvUuid.all isIdentChar = true
  volumes_ne : volumes ≠ []
  volume_chars : ∀ v ∈ volumes, (v.1 ≠ [] ∧ v.1.all isNameChar = true) ∧ v.2 ≠ [] ∧
    v.2.all isIdentChar = true
  names_nodup : (volumes.map (·.1)).Nodup
  uuids_nodup : (volumes.map (·.2)).Nodup

/-- `.volumes[] | [.name,.uuid] | @tsv`. -/
def volumeRows (plan : GroupPlan) : Str := unlines (plan.volumes.map fun v => v.1 ++ '\t' :: v.2)

/-! ### The patterns -/

/-- `/^[[:space:]]*#/`. -/
def isComment (line : Str) : Bool := (line.dropWhile isSpace).head? == some '#'

/-- `/^[[:space:]]*[A-Za-z0-9_.+-]+[[:space:]]*\{/`. -/
def opensBlock (line : Str) : Bool :=
  let s := line.dropWhile isSpace
  s.takeWhile isNameChar != [] && ((s.dropWhile isNameChar).dropWhile isSpace).head? == some '{'

/-- `/^[[:space:]]*name[[:space:]]*\{/`. -/
def opensNamed (name line : Str) : Bool :=
  let s := line.dropWhile isSpace
  name.isPrefixOf s && ((s.drop name.length).dropWhile isSpace).head? == some '{'

/-- `sub(/^[[:space:]]*/, ""); sub(/[[:space:]]*\{.*/, "")`. -/
def blockName (line : Str) : Str :=
  ((line.dropWhile isSpace).takeWhile (· ≠ '{')).rdropWhile isSpace

/-- The value of a line `/^[[:space:]]*id[[:space:]]*=[[:space:]]*"[^"]+"/`. -/
def idValue (line : Str) : Option Str :=
  let s := line.dropWhile isSpace
  if "id".toList.isPrefixOf s then
    match (s.drop 2).dropWhile isSpace with
    | '=' :: s =>
      match s.dropWhile isSpace with
      | '"' :: s =>
        if s.takeWhile (· ≠ '"') ≠ [] ∧ '"' ∈ s then some (s.takeWhile (· ≠ '"')) else none
      | _ => none
    | _ => none
  else none

/-- `entry == "pv0" || entry ~ /^pv[0-9]+$/`. -/
def isPvName (entry : Str) : Bool :=
  match entry with
  | 'p' :: 'v' :: n => isNumber n
  | _ => false

/-! ### The variables -/

/-- The marker of a section. -/
inductive Section where
  | pv
  | lv
  deriving DecidableEq

/-- `want_uuid`, `want_count` and `bad` of the first file. -/
structure Wanted where
  uuids : List (Str × Str) := []
  bad : Bool := false

def Wanted.seenName (w : Wanted) (name : Str) : Bool := w.uuids.any (·.1 == name)
def Wanted.seenUuid (w : Wanted) (uuid : Str) : Bool := w.uuids.any (·.2 == uuid)

/-- `want_uuid[name]`. -/
def Wanted.uuid (w : Wanted) (name : Str) : Str := ((w.uuids.find? (·.1 == name)).map (·.2)).getD []

/-- The rule `NR == FNR`.  After the first bad row nothing depends on the rest. -/
def Wanted.row (w : Wanted) (line : Str) : Wanted :=
  match blankFields (stripCr line) with
  | [name, uuid] =>
    if w.seenName name || w.seenUuid uuid then { w with bad := true }
    else { w with uuids := w.uuids ++ [(name, uuid)] }
  | _ => { w with bad := true }

/-- The variables that say where the rules for the second file are. -/
structure Place where
  depth : ℤ := 0
  marker : Option Section := none
  sectionDepth : ℤ := 0
  entry : Str := []
  entryDepth : ℤ := 0
  currentLv : Str := []

/-- The variables that say what they have found; `none` is a variable that has not been set. -/
structure Tally where
  bad : Bool := false
  topCount : ℕ := 0
  topName : Option Str := none
  pvCount : ℕ := 0
  lvCount : ℕ := 0
  seenRootId : Bool := false
  rootId : Option Str := none
  seenPvId : Bool := false
  pvId : Option Str := none
  seenLv : List Str := []
  seenLvId : List Str := []
  foundLv : ℕ := 0

structure Parser extends Place, Tally

namespace Parser

variable (want : Wanted)

/-- The block of depth 0. -/
def top (p : Parser) (line : Str) : Parser :=
  if p.depth = 0 ∧ opensBlock line = true then
    { p with topCount := p.topCount + 1, topName := some (blockName line) } else p

/-- The sections and their entries. -/
def openSection (p : Parser) (line : Str) : Parser :=
  if p.depth = 1 ∧ opensNamed "physical_volumes".toList line = true then
    { p with marker := some .pv, sectionDepth := p.depth + 1 }
  else if p.depth = 1 ∧ opensNamed "logical_volumes".toList line = true then
    { p with marker := some .lv, sectionDepth := p.depth + 1 }
  else
    match p.marker with
    | none => p
    | some kind =>
      if p.depth = p.sectionDepth ∧ opensBlock line = true then
        let p := { p with entry := blockName line, entryDepth := p.depth + 1 }
        match kind with
        | .pv => { p with pvCount := p.pvCount + 1 }
        | .lv => { p with
            lvCount := p.lvCount + 1, bad := p.bad || !want.seenName p.entry, currentLv := p.entry }
      else p

/-- A quoted `id`. -/
def readId (p : Parser) (value : Str) : Parser :=
  if p.depth = 1 then { p with
      bad := p.bad || p.seenRootId, seenRootId := true, rootId := some value }
  else if p.marker = some .pv ∧ p.depth = p.entryDepth then
    { p with bad := p.bad || p.seenPvId || !isPvName p.entry, seenPvId := true, pvId := some value }
  else if p.marker = some .lv ∧ p.depth = p.entryDepth then
    if p.currentLv = [] ∨ value ≠ want.uuid p.currentLv then { p with bad := true }
    else if p.currentLv ∈ p.seenLv then { p with bad := true }
    else if value ∈ p.seenLvId then { p with bad := true, seenLv := p.currentLv :: p.seenLv }
    else { p with
        seenLv := p.currentLv :: p.seenLv, seenLvId := value :: p.seenLvId,
        foundLv := p.foundLv + 1 }
  else { p with bad := true }

/-- Entries and sections that end. -/
def leave (p : Parser) (opens closes : ℕ) : Parser :=
  let p := { p with depth := p.depth + (opens - closes) }
  let p := { p with bad := p.bad || decide (p.depth < 0) }
  let p := if p.entry ≠ [] ∧ p.depth < p.entryDepth then
    { p with entry := [], entryDepth := 0, currentLv := [] } else p
  if p.marker ≠ none ∧ p.depth < p.sectionDepth then { p with
      marker := none, entry := [], entryDepth := 0, currentLv := [] } else p

/-- The rules for a record of the second file. -/
def line (p : Parser) (record : Str) : Parser :=
  let line := stripCr record
  if isComment line then p
  else
    let p := (p.top line).openSection want line
    let p := match idValue line with
      | some value => p.readId want value
      | none => p
    p.leave (line.count '{') (line.count '}')

end Parser

/-- A variable that has not been set is the empty text and the number zero. -/
def awkUnsetEqual (b : Str) : Bool :=
  match strnum b with
  | some x => decide (x = .finite 0)
  | none => b == []

/-- The comparison of a variable with a text from outside. -/
def awkIs (a : Option Str) (b : Str) : Bool :=
  match a with
  | some a => a == b
  | none => awkUnsetEqual b

/-- `awk … "$lvs_file" "$image_path/$cfg"`. -/
def bindsGroup (wantedVg wantedVgUuid wantedPv lvsFile cfg : Str) : Bool :=
  let wantedVg := unescape wantedVg
  let wantedVgUuid := unescape wantedVgUuid
  let wantedPv := unescape wantedPv
  -- without a record in the first file, the second one is the first one with a record
  let first := if records lvsFile = [] then records cfg else records lvsFile
  let second := if records lvsFile = [] then [] else records cfg
  let want := first.foldl Wanted.row {}
  let p := second.foldl (Parser.line want) {}
  !(want.bad || p.bad) && p.depth == 0 && p.topCount == 1 && awkIs p.topName wantedVg &&
    awkIs p.rootId wantedVgUuid &&
    p.pvCount == 1 && awkIs p.pvId wantedPv && p.lvCount == want.uuids.length &&
      p.foundLv == want.uuids.length

/-- The check of the backup of a group against its plan. -/
def accepts (plan : GroupPlan) (cfg : Str) : Bool :=
  bindsGroup plan.vgName plan.vgUuid plan.pvUuid (volumeRows plan) cfg

end Pxeos.Restore
