import Pxeos.Lib.Script
import Pxeos.Lib.Shell

/-!
# The facts of the logical volumes

`rootpxe_lvm_prepare_capture_lv_facts_single` of `funcs.sh`: each volume of a group is activated if
it is not active, its filesystem is looked up, and it is deactivated again; the facts get one more
field each.  This is done in a subshell with a handler for signals, which can arrive behind every
command, also while the handler runs.
-/

namespace Pxeos.Lvm

open Pxeos.Lib

/-! ### Facts -/

/-- `name|uuid|path|size`. -/
structure Fact where
  name : Str
  uuid : Str
  path : Str
  size : Str
  deriving DecidableEq, Repr

def Fact.line (f : Fact) : Str := List.intercalate ['|'] [f.name, f.uuid, f.path, f.size]

/-- The conditions on the fields of a line, which are the same in `awk` and in the loop. -/
def Fact.sound (f : Fact) : Bool :=
  f.name != [] && f.uuid != [] && "/dev/".toList.isPrefixOf f.path && isPositive f.size

/-- A record that `awk` accepts has four fields. -/
def awkFact (record : Str) : Option Fact :=
  match record.splitOn '|' with
  | [name, uuid, path, size] =>
    if Fact.sound ⟨name, uuid, path, size⟩ then some ⟨name, uuid, path, size⟩ else none
  | _ => none

/-- What `IFS='|' read -r name uuid path size extra` and the first test make of a line. -/
def readFact (line : Str) : Option Fact :=
  let fields := line.splitOn '|'
  let f : Fact := ⟨fields.getD 0 [], fields.getD 1 [], fields.getD 2 [], fields.getD 3 []⟩
  if f.sound && List.intercalate ['|'] (fields.drop 4) == [] then some f else none

/-- The check of the facts: the volumes differ in their identifiers and in their paths. -/
def acceptFacts (facts : Str) : Bool :=
  match (records facts).mapM awkFact with
  | some fs => fs != [] && decide (fs.map Fact.uuid).Nodup && decide (fs.map Fact.path).Nodup
  | none => false

/-! ### The calls -/

inductive Signal where
  | hup
  | int
  | term
  deriving DecidableEq, Repr

/-- The status of a shell that a signal has ended. -/
def Signal.status : Signal → ℕ
  | .hup => 129
  | .int => 130
  | .term => 143

/-- A row of `lvs -o lv_uuid,lv_path,lv_active` as `@tsv` prints it. -/
structure StateRow where
  uuid : Str
  path : Str
  active : Str
  deriving DecidableEq, Repr

inductive Call where
  /-- `lvs`, of which the report has to have the expected form. -/
  | lvs
  /-- `printf … >"$lvs_json"` and `jq -r … >"$states"`. -/
  | saveReport
  | saveStates
  /-- `printf '%s\n' "$path" >>"$activated"`. -/
  | intend (path : Str)
  /-- `lvchange -ay` and `lvchange -an`. -/
  | activate (path : Str)
  | deactivate (path : Str)
  /-- `blkid -s TYPE -o value "$path" | tr -d '\r\n'`. -/
  | fsType (path : Str)
  /-- `printf … >>"$stage"`. -/
  | stageRecord (record : Str)
  /-- `mv "$stage" "$facts"`. -/
  | publish (facts : List Str)
  /-- `rm -f`, of the temporary files that are left; whether they are gone. -/
  | remove
  /-- `trap - HUP INT TERM`. -/
  | untrap
  deriving DecidableEq, Repr

/-- The end of `lvchange`, and whether the volume is active behind it. -/
structure Change where
  ok : Bool
  active : Bool
  deriving DecidableEq, Repr

@[reducible] def Call.Value : Call → Type
  | .lvs => Option (List StateRow)
  | .activate _ => Change
  | .deactivate _ => Change
  | .fsType _ => Str
  | .untrap => Unit
  | _ => Bool

/-- What a command answers, and the signal that arrives before the next one. -/
structure Reply (β : Type) where
  value : β
  signal : Option Signal

abbrev Answer (c : Call) : Type := Reply c.Value

/-- The lines of the files `activated` and `stage`, and `source_count`. -/
structure Vars where
  activated : List Str
  stage : List Str
  sourceCount : ℕ
  deriving DecidableEq, Repr

def Vars.intend (path : Str) (ok : Bool) (v : Vars) : Vars :=
  if ok then { v with activated := v.activated ++ [path] } else v

def Vars.record (record : Str) (ok : Bool) (v : Vars) : Vars :=
  if ok then { v with stage := v.stage ++ [record] } else v

def Vars.remove (gone : Bool) (v : Vars) : Vars :=
  if gone then { v with activated := [], stage := [] } else v

/-- `mktemp`, and `source_count=0`. -/
def Vars.fresh : Vars := ⟨[], [], 0⟩

abbrev Shell (α : Type) : Type := Script Call Answer Vars α

/-- A command, with what it does to the files when it answers; a signal is handled behind it. -/
def command (handler : Shell Empty) (c : Call) (f : c.Value → Vars → Vars) : Shell c.Value := do
  let r : Reply c.Value ← (Script.ask c : Shell (Answer c))
  Script.set (f r.value)
  match r.signal with
  | some _ => do
    let never ← handler
    never.elim
  | none => pure r.value

/-- A command that writes no file of the script. -/
def run (handler : Shell Empty) (c : Call) : Shell c.Value := command handler c fun _ v => v

/-- Without the handler, a signal ends the shell. -/
def untrap : Shell Unit := do
  let r : Reply Unit ← (Script.ask Call.untrap : Shell (Answer _))
  match r.signal with
  | some s => Script.exit s.status
  | none => pure ()

/-! ### The cleanup -/

/-- The loop over `activated`. -/
def deactivateAll (handler : Shell Empty) : List Str → Shell Bool
  | [] => pure true
  | path :: paths =>
    if path = [] then deactivateAll handler paths
    else do
      let change : Change ← run handler (.deactivate path)
      let others ← deactivateAll handler paths
      pure (change.ok && others)

/-- `rootpxe_lvm_prepare_cleanup`. -/
def prepareCleanup (handler : Shell Empty) : Shell Bool := do
  let v ← Script.vars
  deactivateAll handler v.activated

/-- `rm -f …; trap - HUP INT TERM; exit 1`. -/
def giveUp {α : Type} (handler : Shell Empty) : Shell α := do
  let _ ← command handler .remove Vars.remove
  untrap
  Script.exit 1

/-- `rootpxe_lvm_prepare_signal`, in which no more than `n` signals arrive. -/
def prepareSignal : ℕ → Shell Empty
  | 0 => fun _ => .stop
  | n + 1 => do
    let _ ← prepareCleanup (prepareSignal n)
    giveUp (prepareSignal n)

/-! ### The preparation -/

def activeWord : Str := "active".toList
def inactiveWord : Str := "inactive".toList

/-- The check of the report by `jq`. -/
def reportOk (rows : List StateRow) : Bool :=
  rows.all (fun row => row.uuid != [] && "/dev/".toList.isPrefixOf row.path &&
    [activeWord, inactiveWord, []].contains row.active) &&
    decide (rows.map StateRow.uuid).Nodup && decide (rows.map StateRow.path).Nodup

/-- The report of the states, if there are some. -/
def readStates (handler : Shell Empty) : Shell (Option (List StateRow)) := do
  let report : Option (List StateRow) ← run handler .lvs
  match report with
  | none => do
    -- `elif`: the states are looked for also when there is no report
    let _ ← run handler .saveStates
    pure none
  | some rows => do
    let saved : Bool ← run handler .saveReport
    if saved && !reportOk rows then pure none
    else do
      let stated : Bool ← run handler .saveStates
      pure (if saved && stated && rows != [] then some rows else none)

/-- `ext2|ext3|ext4|xfs|swap`. -/
def supported (fs : Str) : Bool :=
  ["ext2".toList, "ext3".toList, "ext4".toList, "xfs".toList, "swap".toList].contains fs

/-- The row of a volume: the only one with its identifier. -/
def stateOf (sameText : Str → Str → Bool) (rows : List StateRow) (f : Fact) : Option StateRow :=
  match rows.filter fun row => sameText row.uuid (unescape f.uuid) with
  | [row] => if row.uuid = f.uuid ∧ row.path = f.path then some row else none
  | _ => none

/-- A volume that is not active is activated, behind the record that it has to be deactivated. -/
def openVolume (handler : Shell Empty) (row : StateRow) (path : Str) : Shell Bool :=
  if row.active = activeWord then pure true
  else if row.active = inactiveWord ∨ row.active = [] then do
    let intended : Bool ← command handler (.intend path) (Vars.intend path)
    if intended then do
      let change : Change ← run handler (.activate path)
      pure change.ok
    else pure false
  else pure false

/-- The body of the loop over the facts; the answer is whether it goes on. -/
def prepareLine (sameText : Str → Str → Bool) (handler : Shell Empty) (rows : List StateRow)
    (line : Str) : Shell Bool :=
  match readFact line with
  | none => pure false
  | some f => do
    Script.set fun v => { v with sourceCount := v.sourceCount + 1 }
    match stateOf sameText rows f with
    | none => pure false
    | some row => do
      if ← openVolume handler row f.path then do
        let fs : Str ← run handler (.fsType f.path)
        if supported fs then do
          let record := List.intercalate ['|'] [f.name, f.uuid, f.path, f.size, fs]
          let staged : Bool ← command handler (.stageRecord record) (Vars.record record)
          pure staged
        else pure false
      else pure false

def prepareLines (sameText : Str → Str → Bool) (handler : Shell Empty) (rows : List StateRow) :
    List Str → Shell Bool
  | [] => pure true
  | line :: lines => do
    if ← prepareLine sameText handler rows line then prepareLines sameText handler rows lines
    else pure false

/-- The part before the cleanup. -/
def prepareAll (sameText : Str → Str → Bool) (handler : Shell Empty) (facts : Str) : Shell Bool :=
  do
  match ← readStates handler with
  | none => pure false
  | some rows => do
    let prepared ← prepareLines sameText handler rows (endedLines facts)
    let v ← Script.vars
    pure (prepared && v.sourceCount == rows.length && decide (0 < v.sourceCount))

/-- The subshell. -/
def prepareSubshell (sameText : Str → Str → Bool) (n : ℕ) (facts : Str) : Shell Unit := do
  let handler := prepareSignal n
  let prepared ← prepareAll sameText handler facts
  let cleaned ← prepareCleanup handler
  if prepared && cleaned then do
    let v ← Script.vars
    let published : Bool ← run handler (.publish v.stage)
    if published then do
      let _ ← command handler .remove Vars.remove
      untrap
    else giveUp handler
  else giveUp handler

/-- `rootpxe_lvm_prepare_capture_lv_facts_single`: `active` is whether there are volume groups to
capture, `ready` whether the facts can be read and the temporary files can be made; `sameText` is
the comparison of two texts by `awk`. -/
def lvmPrepareCaptureLvFactsSingle (sameText : Str → Str → Bool) (n : ℕ) (active ready : Bool)
    (facts : Str) : Shell Unit :=
  if active = false then pure ()
  else if ready && acceptFacts facts then do
    Script.set fun _ => Vars.fresh
    if (← Script.status (prepareSubshell sameText n facts)) = 0 then pure () else Script.exit 1
  else Script.exit 1

end Pxeos.Lvm
