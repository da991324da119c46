import Mathlib.Data.Char
import Mathlib.Data.List.Lex
import Pxeos.Lib.Queue
import Pxeos.Lib.Script

/-!
# The events of the partition progress

The imaging process says how far a partition is by events, each a file with a number in a directory,
and `pxeos.statusreporter` folds them into the snapshot that it sends; after the reporter has ended,
the imaging process folds what is left itself.  Here are the snapshot and its filters, the events,
and what each command of the two processes does to the files.
-/

namespace Pxeos.Report

open Pxeos.Lib

/-! ### Texts -/

/-- `$(jq -r …)` of a text. -/
def readText (s : Str) : Str := captured (s ++ ['\n'])

/-- `^[0-9]{1,3}$`. -/
def isPercent (s : Str) : Bool := isNumber s && decide (s.length ≤ 3)

/-- The value of a text of digits in `[[ a -le b ]]`: octal behind a leading zero, and none if a
digit is not. -/
def shellNumber (s : Str) : Option ℕ :=
  match s with
  | '0' :: ds => ds.foldlM (fun n c => (octalDigit c).map fun d => 8 * n + d) 0
  | ds => some (Nat.ofDigitChars 10 ds 0)

/-- `[[ a -le b ]]`. -/
def shellLe (a b : Str) : Bool :=
  match shellNumber a, shellNumber b with
  | some m, some n => decide (m ≤ n)
  | _, _ => false

/-! ### Snapshots -/

/-- An item of the snapshot: the fields that the filters read and write. -/
structure Item where
  key : Str
  status : Str
  message : Option Str
  progress : Option ℕ
  sequence : ℕ
  deriving DecidableEq, Repr

structure Snapshot where
  version : ℕ
  attempt : ℕ
  items : List Item
  deriving DecidableEq, Repr

/-- `.sequence+1`: `jq` counts in doubles, and stays at `2 ^ 53`. -/
def nextSequence (n : ℕ) : ℕ := if n < 2 ^ 53 then n + 1 else n

/-- What an item event says about an item. -/
structure Change where
  key : Str
  status : Str
  message : Str
  percent : Option ℕ
  deriving DecidableEq, Repr

/-- The filters for `jq` that make a new snapshot. -/
inductive Filter where
  /-- The filter of `rootpxe_progress_apply_events` and `rootpxe_partition_progress_flush`. -/
  | item (c : Change)
  /-- The filter of `rootpxe_progress_sample_current`. -/
  | sample (key : Str) (percent : ℕ)
  /-- The filter of `rootpxe_progress_heartbeat_active_item`. -/
  | heartbeat (key : Str)
  deriving DecidableEq, Repr

/-- The key of `select(.key==$key)`. -/
def Filter.key : Filter → Str
  | .item c => c.key
  | .sample key _ => key
  | .heartbeat key => key

def Filter.onItem : Filter → Item → Item
  | .item c, i => { i with
      status := c.status, message := some c.message, progress := c.percent,
      sequence := nextSequence i.sequence }
  | .sample _ percent, i =>
    if i.status = "running".toList then
      { i with progress := some percent, message := some "数据复制中".toList, sequence := nextSequence i.sequence }
    else i
  | .heartbeat _, i => { i with sequence := nextSequence i.sequence }

/-- `(.items[] | select(.key==$key)) |= …`. -/
def Filter.apply (f : Filter) (s : Snapshot) : Snapshot :=
  { s with items := s.items.map fun i => if i.key = f.key then f.onItem i else i }

/-! ### Events -/

/-- The object that `rootpxe_partition_progress_queue_event` writes. -/
structure Event where
  event : Str
  key : Str
  status : Str
  percent : Option ℕ
  message : Str
  run : Str
  generation : Str
  deriving DecidableEq, Repr

/-- `rootpxe_partition_progress_queue_event`, the object. -/
def queueEvent (event key status percent message run generation : Str) : Event where
  event := event
  key := key
  status := status
  percent := if isPercent percent then some (Nat.ofDigitChars 10 percent 0) else none
  message := message.map fun c => if c = '\n' then ' ' else c
  run := run
  generation := generation

/-- `^(pending|preparing|running|finalizing|completed|skipped|failed|cancelled)$`. -/
def progressStatuses : List Str :=
  ["pending".toList, "preparing".toList, "running".toList, "finalizing".toList, "completed".toList,
    "skipped".toList,
    "failed".toList, "cancelled".toList]

/-- `${percent:--}`. -/
def orDash (percent : Str) : Str := if percent = [] then "-".toList else percent

/-- `rootpxe_partition_progress_item`. -/
def partitionProgressItem (key status percent message : Str) : Option Event :=
  if key ≠ [] ∧ status ∈ progressStatuses then
    if orDash percent = "-".toList ∨
      (isPercent (orDash percent) = true ∧ shellLe (orDash percent) "100".toList = true) then
      some (queueEvent "item".toList key status (orDash percent) message [] [])
    else none
  else none

/-- `rootpxe_partition_progress_current_item`. -/
def partitionProgressCurrentItem (key run generation : Str) : Option Event :=
  if key ≠ [] then some (queueEvent "current".toList key [] [] [] run generation) else none

/-- `rootpxe_partition_progress_clear_current_item`. -/
def partitionProgressClearCurrentItem : Event := queueEvent "clear".toList [] [] "-".toList [] [] []

/-- The text of a shell variable that was read from one line. -/
def OneLine (s : Str) : Prop := '\x00' ∉ s ∧ '\n' ∉ s

/-- An event that the imaging process queues.  It makes the keys from numbers and the UUID of a
logical volume. -/
inductive Queued : Event → Prop
  | item {key status percent message : Str} {e : Event} (hkey : OneLine key)
      (hmessage : '\x00' ∉ message)
      (h : partitionProgressItem key status percent message = some e) : Queued e
  | current {key run generation : Str} {e : Event}
      (h : partitionProgressCurrentItem key run generation = some e) : Queued e
  | clear : Queued partitionProgressClearCurrentItem

/-- What the readers of an item event take from it. -/
def Event.change (e : Event) : Change :=
  ⟨readText e.key, readText e.status, readText e.message, e.percent⟩

/-- `event-$sequence.json`. -/
def eventName (n : ℕ) : Str := "event-".toList ++ padded 10 n ++ ".json".toList

/-! ### The files -/

/-- The files of the two processes, and what has happened to them. -/
structure State where
  snapshot : Snapshot
  /-- The temporary file, if it is complete, and the filter that made it. -/
  tmp : Option (Filter × Snapshot)
  /-- The files of the events. -/
  queue : List (Str × Event)
  /-- The number in `.sequence`. -/
  counter : ℕ
  /-- The imaging process has taken a number for an event that is not there yet. -/
  numbered : Bool
  /-- The events that have been queued, with their numbers. -/
  queued : List (ℕ × Event)
  /-- The item events that have been moved into the snapshot. -/
  applied : List Change
  /-- The snapshots that have been sent. -/
  sent : List Snapshot

/-- The commands of `rootpxe_partition_progress_queue_event` that the reporter can see: a new
number, and the `mv` that makes the file of the event.  A number whose event fails is passed
over. -/
inductive Move where
  | number
  | publish (e : Event)

def Move.Legal (s : State) : Move → Prop
  | .number => True
  | .publish e => s.numbered = true ∧ Queued e

def Move.next (s : State) : Move → State
  | .number => { s with counter := s.counter + 1, numbered := true }
  | .publish e =>
    { s with
      queue := s.queue ++ [(eventName s.counter, e)], numbered := false, queued :=
        s.queued ++ [(s.counter, e)] }

def Legal (s : State) : List Move → Prop
  | [] => True
  | m :: ms => m.Legal s ∧ Legal (m.next s) ms

def moves (s : State) (ms : List Move) : State := ms.foldl Move.next s

/-- The commands of the reporter and of the flush that only succeed or fail. -/
inductive Command where
  | sleep
  /-- `rootpxe_capture_poll_cancel`: the task has been cancelled. -/
  | pollCancel
  /-- `rootpxe_progress_data_phase_active`. -/
  | dataPhaseActive
  /-- `command -v jq`. -/
  | commandJq
  /-- `[[ -r $snapshot_file ]]`. -/
  | snapshotReadable
  /-- `[[ -d $events_dir ]]`. -/
  | eventsDir
  /-- `[[ -f $event ]]`. -/
  | isFile (name : Str)
  /-- `jq -c … "$snapshot_file" >"$tmp"`. -/
  | jq (f : Filter)
  /-- `mv "$tmp" "$snapshot_file"`. -/
  | moveTmp
  | removeTmp
  /-- `rm -f -- "$event"`. -/
  | removeEvent (name : Str)
  /-- `jq -e '.version == 2 and .attempt == $attempt'`. -/
  | attemptIs (attempt : ℕ)
  /-- The identity of the task and the address of the server are there. -/
  | taskContext
  /-- The requests: with a snapshot and a time limit, with a heartbeat, and with a percentage. -/
  | postSnapshot (s : Snapshot) (maxTime : ℕ)
  | postHeartbeat
  | postPercent (percent : Str)

/-- What the two processes ask for. -/
inductive Call where
  | run (c : Command)
  /-- `date +%s`. -/
  | date
  /-- `"$events_dir"/event-*.json`. -/
  | glob
  /-- The calls of `jq` that read an event. -/
  | readEvent (name : Str)
  /-- `cat "$snapshot_file"`. -/
  | cat
  /-- The digest of the snapshot. -/
  | digest
  /-- The first line of `/tmp/status.pxeos`. -/
  | statusRecord
  /-- `rootpxe_partclone_progress_next_pct`. -/
  | nextPct (last : Str)

/-- What a call answers; `none` if it fails. -/
def Call.Value : Call → Type
  | .run _ => Bool
  | .date => Option ℕ
  | .glob => List Str
  | .readEvent _ => Option Event
  | .cat => Option Snapshot
  | .digest => Str
  | .statusRecord => Option Str
  | .nextPct _ => Option Str

/-- The answer to a call, with what the imaging process did before it. -/
structure Reply (β : Type) where
  moves : List Move
  result : β

abbrev Answer (c : Call) : Type := Reply c.Value

/-- What a command does to the files. -/
def Command.effect (s : State) : Command → Bool → State
  | .jq f, true => { s with tmp := some (f, f.apply s.snapshot) }
  | .jq _, false => { s with tmp := none }
  | .moveTmp, true =>
    match s.tmp with
    | some (.item c, new) => { s with snapshot := new, tmp := none, applied := s.applied ++ [c] }
    | some (_, new) => { s with snapshot := new, tmp := none }
    | none => s
  | .removeTmp, true => { s with tmp := none }
  | .removeEvent name, true => { s with queue := s.queue.filter fun f => f.1 ≠ name }
  | .postSnapshot x _, _ => { s with sent := s.sent ++ [x] }
  | _, _ => s

def Call.effect (s : State) : (c : Call) → c.Value → State
  | .run c, ok => c.effect s ok
  | _, _ => s

/-- The names that the shell makes of the pattern. -/
def globbed (s : State) : List Str :=
  if s.queue = [] then ["event-*.json".toList] else (s.queue.map Prod.fst).insertionSort (· ≤ ·)

/-- The status of a command fits the files. -/
def Command.Fits (s : State) : Command → Bool → Prop
  | .snapshotReadable, ok => ok = true
  | .eventsDir, ok => s.queue ≠ [] → ok = true
  | .isFile name, ok => ok = decide (name ∈ s.queue.map Prod.fst)
  | .attemptIs attempt, ok => ok = true → s.snapshot.version = 2 ∧ s.snapshot.attempt = attempt
  | _, _ => True

/-- The answer fits the files. -/
def Call.Fits (s : State) : (c : Call) → c.Value → Prop
  | .run c, ok => c.Fits s ok
  | .glob, names => names = globbed s
  | .readEvent name, r => ∀ e, r = some e → (name, e) ∈ s.queue
  | .cat, r => ∀ x, r = some x → x = s.snapshot
  | _, _ => True

/-- `jq`, `mv` and `rm` succeed on what the events need. -/
def Call.Succeeds : (c : Call) → c.Value → Prop
  | .run .commandJq, ok => ok = true
  | .run (.jq (.item _)), ok => ok = true
  | .run .moveTmp, ok => ok = true
  | .run (.removeEvent _), ok => ok = true
  | .readEvent _, r => r.isSome = true
  | _, _ => True

end Pxeos.Report
