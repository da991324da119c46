import Pxeos.Report.Events

/-!
# The reporter and the flush

`pxeos.statusreporter` from its loop on, and `rootpxe_partition_progress_flush` of `funcs.sh`, which
does the reporter's fold again when the reporter has ended.
-/

namespace Pxeos.Report

open Pxeos.Lib

/-- A script of one of the two processes, with its variables. -/
abbrev Shell (V α : Type) : Type := Script Call Answer V α

variable {V : Type}

/-- The value of a call. -/
def value (c : Call) : Shell V c.Value := do
  let r ← (Script.ask c : Shell V (Answer c))
  pure r.result

/-- A command as a condition. -/
def test (c : Command) : Shell V Bool := value (.run c)

/-- A command whose status is ignored. -/
def run (c : Command) : Shell V Unit := do
  let _ ← test c
  pure ()

/-- `jq -c … "$snapshot_file" >"$tmp" && mv "$tmp" "$snapshot_file"`. -/
def rewrite (f : Filter) : Shell V Bool := do
  if ← test (.jq f) then test .moveTmp else pure false

def listEvents : Shell V (List Str) := value .glob

def readEvent (name : Str) : Shell V (Option Event) := value (.readEvent name)

def catSnapshot : Shell V (Option Snapshot) := value .cat

def date : Shell V (Option ℕ) := value .date

def digest : Shell V Str := value .digest

def statusRecord : Shell V (Option Str) := value .statusRecord

def nextPct (last : Str) : Shell V (Option Str) := value (.nextPct last)

/-! ### The reporter -/

/-- The variables of the reporter. -/
structure Vars where
  activeKey : Str
  activeGeneration : Str
  lastPct : Str
  lastSnapshotHash : Str
  lastSnapshotSent : ℕ
  lastHeartbeatSent : ℕ

def initialVars : Vars := ⟨[], [], "0".toList, [], 0, 0⟩

/-- `rootpxe_progress_send_snapshot`. -/
def sendSnapshot : Shell Vars Unit := do
  if ← test .snapshotReadable then
    match ← catSnapshot with
    | some s => run (.postSnapshot s 8)
    | none => pure ()

-- The `progress_run_id` and the `progress_attempt` of the reporter.
variable (runId : Str) (attempt : ℕ)

/-- The body of the loop of `rootpxe_progress_apply_events`. -/
def applyEvent (event : Str) : Shell Vars Unit := do
  if ← test (.isFile event) then
    match ← readEvent event with
    | none => pure ()
    | some e =>
      if readText e.event = "current".toList then
        if readText e.key ≠ [] ∧ readText e.run = runId ∧
          isNumber (readText e.generation) = true then
          Script.set fun v => { v with activeKey := readText e.key, activeGeneration := readText e.generation, lastPct := "0".toList }
        run (.removeEvent event)
      else if readText e.event = "clear".toList then
        Script.set fun v =>
          { v with activeKey := [], activeGeneration := [], lastPct := "0".toList }
        run (.removeEvent event)
      else if readText e.event = "item".toList then
        if e.change.key ≠ [] ∧ e.change.status ∈ progressStatuses then
          if ← rewrite (.item e.change) then sendSnapshot else run .removeTmp
          run (.removeEvent event)
        else
          run (.removeEvent event)
      else
        run (.removeEvent event)

/-- `rootpxe_progress_apply_events`. -/
def applyEvents : Shell Vars Unit := do
  if ← test .snapshotReadable then
    if ← test .eventsDir then
      if ← test .commandJq then
        Script.forEach (← listEvents) (applyEvent runId)

/-- The percentage of a record of the decoder, if it is one for the active item and greater than the
last one. -/
def sampledPercent (v : Vars) (record : Str) : Option Str :=
  let fields := record.splitOn '|'
  let pct := fields.getD 3 []
  if fields.getD 0 [] = "PXEOS_PROGRESS_V1".toList ∧ fields.getD 1 [] = runId ∧
    fields.getD 2 [] = v.activeGeneration ∧
      isPercent pct = true ∧ shellLe pct "100".toList = true ∧ shellLe v.lastPct pct = true ∧
        pct ≠ v.lastPct then
    some pct
  else none

/-- `rootpxe_progress_sample_current`. -/
def sampleCurrent : Shell Vars Unit := do
  let v ← Script.vars
  if v.activeKey ≠ [] ∧ isNumber v.activeGeneration = true then
    if ← test .snapshotReadable then
      match ← statusRecord with
      | none => pure ()
      | some record =>
        match sampledPercent runId v record with
        | none => pure ()
        | some pct =>
          if ← rewrite (.sample v.activeKey (Nat.ofDigitChars 10 pct 0)) then
            Script.set fun v => { v with lastPct := pct }
          else
            run .removeTmp

/-- `rootpxe_progress_heartbeat_active_item`. -/
def heartbeatActiveItem : Shell Vars Bool := do
  let v ← Script.vars
  if v.activeKey ≠ [] then
    if ← test .snapshotReadable then
      if ← rewrite (.heartbeat v.activeKey) then
        pure true
      else
        run .removeTmp
        pure false
    else pure false
  else pure false

/-- `rootpxe_progress_send_heartbeat`. -/
def sendHeartbeat (now : ℕ) : Shell Vars Unit := do
  let v ← Script.vars
  if 15 ≤ now - v.lastHeartbeatSent then
    run .postHeartbeat
    Script.set fun v => { v with lastHeartbeatSent := now }

/-- The branch of `rootpxe_progress_report_once` with a snapshot of this attempt. -/
def reportSnapshot (now : ℕ) : Shell Vars Unit := do
  let _ ← catSnapshot
  let hash ← digest
  let v ← Script.vars
  if hash ≠ [] ∧ hash ≠ v.lastSnapshotHash then
    sendSnapshot
    Script.set fun v => { v with lastSnapshotHash := hash, lastSnapshotSent := now }
  else if hash ≠ [] ∧ 15 ≤ now - v.lastSnapshotSent then
    if ← heartbeatActiveItem then
      sendSnapshot
      let hash ← digest
      Script.set fun v => { v with lastSnapshotHash := hash, lastSnapshotSent := now }
    else
      Script.set fun v => { v with lastSnapshotSent := now }

/-- The branch of `rootpxe_progress_report_once` without a snapshot. -/
def reportPercent : Shell Vars Unit := do
  let v ← Script.vars
  let pct ← nextPct v.lastPct
  Script.set fun v => { v with lastPct := pct.getD v.lastPct }
  run (.postPercent (pct.getD v.lastPct))

/-- `rootpxe_progress_report_once`. -/
def reportOnce : Shell Vars Unit := do
  if ← test .pollCancel then Script.exit 0
  let now := (← date).getD 0
  if ← test .dataPhaseActive then
    applyEvents runId
    sampleCurrent runId
    if ← test .snapshotReadable then
      if ← test (.attemptIs attempt) then
        reportSnapshot now
        sendHeartbeat now
      else
        sendHeartbeat now
    else
      reportPercent
      sendHeartbeat now
  else
    sendHeartbeat now

/-- The first turns of the loop of the reporter. -/
def reportTurns : ℕ → Shell Vars Unit
  | 0 => fun _ => .stop
  | n + 1 => do
    reportOnce runId attempt
    run .sleep
    reportTurns n

/-- The reporter, from the wait before its loop on. -/
def statusReporter (turns : ℕ) : Shell Vars Unit := do
  run .sleep
  Script.set fun _ => initialVars
  reportTurns runId attempt turns

/-! ### The flush -/

/-- The variables of the flush that the turns of its loop change. -/
structure FlushVars where
  postMilestones : Bool
  milestoneTimeout : Option ℕ
  deriving DecidableEq, Repr

/-- `rootpxe_partition_progress_send_snapshot`. -/
def partitionProgressSendSnapshot (maxTime : ℕ) : Shell FlushVars Unit := do
  let maxTime := if maxTime = 0 then 8 else min maxTime 8
  if ← test .snapshotReadable then
    if ← test .taskContext then
      match ← catSnapshot with
      | some s => run (.postSnapshot s maxTime)
      | none => pure ()

/-- The time that is left for the request of a milestone. -/
def milestoneBudget (deadline : Option ℕ) : Shell FlushVars Unit := do
  let v ← Script.vars
  match deadline with
  | none => pure ()
  | some deadline =>
    if v.postMilestones then
      match ← date with
      | none => Script.set fun v => { v with postMilestones := false }
      | some now =>
        if deadline ≤ now ∨ deadline - now ≤ 8 then
          Script.set fun v => { v with postMilestones := false }
        else
          Script.set fun v => { v with milestoneTimeout := some (min (deadline - now - 8) 8) }

/-- The body of the loop of `rootpxe_partition_progress_flush`. -/
def flushEvent (deadline : Option ℕ) (event : Str) : Shell FlushVars Unit := do
  if ← test (.isFile event) then
    match ← readEvent event with
    | none => run (.removeEvent event)
    | some e =>
      if readText e.event = "item".toList then
        milestoneBudget deadline
        if ← rewrite (.item e.change) then
          let v ← Script.vars
          if v.postMilestones then partitionProgressSendSnapshot (v.milestoneTimeout.getD 8)
        else
          run .removeTmp
        run (.removeEvent event)
      else
        run (.removeEvent event)

/-- `rootpxe_partition_progress_flush`. -/
def partitionProgressFlush : Shell FlushVars Unit := do
  if ← test .snapshotReadable then
    if ← test .commandJq then
      let deadline := (← date).map (· + 15)
      if ← test .eventsDir then
        Script.forEach (← listEvents) (flushEvent deadline)
      match deadline with
      | none => partitionProgressSendSnapshot 8
      | some deadline =>
        match ← date with
        | some now =>
          if now < deadline then partitionProgressSendSnapshot (min (deadline - now) 8)
          else partitionProgressSendSnapshot 1
        | none => partitionProgressSendSnapshot 1

def initialFlushVars : FlushVars := ⟨true, none⟩

end Pxeos.Report
