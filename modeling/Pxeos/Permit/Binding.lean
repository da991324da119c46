import Pxeos.Lib.Shell
import Mathlib.Data.Char
import Mathlib.Data.List.Lex

/-!
# Disk permits

The permits of `funcs.sh`: a request for one disk leaves its answer in three variables, a request
for several disks in a file, and the disks themselves are in a map, with a row of disk, stable
identity and operation for each of them.  What the system and the server answer is given with every
call.
-/

namespace Pxeos.Permit

open Pxeos.Lib

def text (s : String) : Str := s.toList

/-! ### State -/

/-- What is shown about a denial. -/
structure Reason where
  httpStatus : Str
  code : Str
  consoleReason : Str
  reportMessage : Str
  deriving DecidableEq, Repr

/-- The variables and files.  A variable that is not set is empty; `bindings` and `map` are the
files, if their variables are set. -/
structure State where
  granted : Bool
  targetId : Str
  operation : Str
  bindings : Option (List (Str × Str))
  map : Option Str
  reason : Reason
  deriving DecidableEq, Repr

def State.empty : State := ⟨false, [], [], none, none, ⟨[], [], [], []⟩⟩

/-- `rootpxe_clear_disk_permit`. -/
def rootpxeClearDiskPermit (s : State) : State :=
  { s with
    granted := false, targetId := [], operation := [], bindings := none,
    reason := ⟨[], [], [], []⟩ }

/-- `rootpxe_reset_disk_permit_retry_state`.  `owned` is whether the map is a file of this user at
its place, `removed` whether it could be removed. -/
def rootpxeResetDiskPermitRetryState (s : State) (owned removed : Bool) : State × Bool :=
  match s.map with
  | some _ => if owned && removed then (rootpxeClearDiskPermit { s with map := none }, true)
    else (s, false)
  | none => (rootpxeClearDiskPermit s, true)

/-! ### Texts -/

/-- The codes that are shown, with what is said on the console and in the report. -/
def permitReason (code : Str) : Option (Str × Str) :=
  if code = text "DISK_PERMIT_INVALID_REQUEST" then
    some (text "Disk permit request is invalid.",
      text "Disk permit request is invalid. Check the task context and operation.")
  else if code = text "DISK_PERMIT_UNSUPPORTED_OPERATION" then
    some (text "Disk operation is not supported.",
      text "Disk operation is not supported. Check the task type.")
  else if code = text "DISK_PERMIT_INVALID_TARGET" then
    some (text "Disk target identifier is invalid.",
      text "Disk target identifier is invalid. Check the stable disk identifier.")
  else if code = text "DISK_PERMIT_TASK_TYPE_MISMATCH" then
    some (text "Task type does not allow this disk operation.",
      text "Task type does not allow this disk operation. Check the task configuration.")
  else if code = text "DISK_PERMIT_BINDING_CONFLICT" then
    some (text "Disk permit binding does not match the task.",
      text "Disk permit binding does not match the task. Confirm the target disk and operation.")
  else if code = text "DISK_PERMIT_TASK_NOT_FOUND" then
    some (text "Task is not available for disk permission.",
      text "Task is unavailable for disk permission. Confirm the task status.")
  else if code = text "DISK_PERMIT_TASK_REJECTED" then
    some (text "Task or disk binding was rejected.",
      text "Task or disk binding was rejected. Confirm the task status.")
  else if code = text "DISK_PERMIT_TASK_NOT_RUNNING" then
    some (text "Task is not running for disk permission.",
      text "Task is not running for disk permission. Confirm the task status.")
  else none

/-- `rootpxe_set_disk_permit_reason`; `code` is the code of the answer, if `jq` finds one.  An
unknown code leaves the one that was there. -/
def rootpxeSetDiskPermitReason (s : State) (code : Option Str) (httpCode : Str) : State :=
  let code := captured (code.getD [])
  match permitReason code with
  | some (console, report) => { s with reason := ⟨httpCode, code, console, report⟩ }
  | none =>
    { s with reason := ⟨httpCode, s.reason.code, text "Disk permission was denied.",
        text "Disk permission was denied. Confirm the task, target disk, and operation binding."⟩ }

/-- `rootpxe_set_disk_permit_protocol_error`. -/
def rootpxeSetDiskPermitProtocolError (s : State) (httpCode : Str) : State :=
  { s with reason := ⟨httpCode, [], text "Disk permit response is invalid.",
      text "Disk permit response is invalid. Check the server protocol and task binding."⟩ }

/-! ### Requests -/

/-- An answer about one disk, as `jq` reads it: a field is absent if it has not the type that is
asked for.  `cancelled` is what the status of the task confirms afterwards. -/
structure Reply where
  httpCode : Str
  granted : Option Bool
  targetId : Option Str
  operation : Option Str
  code : Option Str
  cancelled : Bool
  deriving DecidableEq, Repr

/-- A request: what it needs before it is sent, and the answer. -/
structure Request where
  context : Bool
  api : Bool
  capabilities : Bool
  jq : Bool
  reply : Option Reply
  deriving DecidableEq, Repr

def isHttpCode (code : Str) : Bool := code.length == 3 && code.all Char.isDigit

/-- The denial of a request: the reason is kept, and the status of the task is asked for. -/
def denied (s : State) (code : Option Str) (httpCode : Str) (cancelled : Bool) : State × ℕ :=
  (rootpxeSetDiskPermitReason s code httpCode, if cancelled then 10 else 12)

def protocolError (s : State) (httpCode : Str) : State × ℕ :=
  (rootpxeSetDiskPermitProtocolError s httpCode, 12)

/-- An answer with a code `2xx`. -/
def answered (s : State) (target op : Str) (jq : Bool) (r : Reply) : State × ℕ :=
  if !jq then protocolError s r.httpCode
  else
    match r.granted with
    | none => protocolError s r.httpCode
    | some false => denied s r.code r.httpCode r.cancelled
    | some true =>
      match r.targetId, r.operation with
      | some echoedTarget, some echoedOperation =>
        if captured echoedTarget = target ∧ captured echoedOperation = op then
          ({ s with
              granted := true, targetId := captured echoedTarget,
              operation := captured echoedOperation }, 0)
        else protocolError s r.httpCode
      | _, _ => protocolError s r.httpCode

/-- An answer with any code. -/
def received (s : State) (target op : Str) (jq : Bool) (r : Reply) : State × ℕ :=
  if !isHttpCode r.httpCode then protocolError s (text "unknown")
  else if r.httpCode.head? = some '5' then (s, 11)
  else if r.httpCode.head? = some '2' then answered s target op jq r
  else if r.httpCode.head? = some '4' then denied s r.code r.httpCode r.cancelled
  else protocolError s r.httpCode

/-- `rootpxe_request_disk_permit_for_target`. -/
def rootpxeRequestDiskPermitForTarget (s : State) (target op : Str) (q : Request) : State × ℕ :=
  let s := rootpxeClearDiskPermit s
  if !q.context then (s, 11)
  else if !q.api then (s, 11)
  else if !q.capabilities then (s, 12)
  else
    match q.reply with
    | none => (s, 11)
    | some r => received s target op q.jq r

/-! ### Requests for several disks -/

/-- An answer about several disks: the fields of each of the targets that are strings, if there are
targets. -/
structure BatchReply where
  httpCode : Str
  granted : Option Bool
  targets : Option (List (Option Str × Option Str))
  code : Option Str
  cancelled : Bool
  deriving DecidableEq, Repr

/-- A request for several disks; `stored` is whether the file for the answer can be made. -/
structure BatchRequest where
  context : Bool
  jq : Bool
  api : Bool
  capabilities : Bool
  reply : Option BatchReply
  stored : Bool
  deriving DecidableEq, Repr

def isAlphanumeric (c : Char) : Bool :=
  ('A' ≤ c && c ≤ 'Z') || ('a' ≤ c && c ≤ 'z') || ('0' ≤ c && c ≤ '9')

/-- `[A-Za-z0-9._:-]`. -/
def isTargetChar (c : Char) : Bool :=
  isAlphanumeric c || c == '.' || c == '_' || c == ':' || c == '-'

/-- `^[A-Za-z0-9][A-Za-z0-9._:-]*$`. -/
def isTargetId (s : Str) : Bool :=
  match s with
  | [] => false
  | c :: rest => isAlphanumeric c && rest.all isTargetChar

/-- `^[A-Za-z0-9][A-Za-z0-9._:-]{0,127}$`. -/
def isShortTargetId (s : Str) : Bool := isTargetId s && decide (s.length ≤ 128)

def captureReadWrite : Str := text "capture_read_write"
def deployWrite : Str := text "deploy_write"
def nvmeFormatDeployWrite : Str := text "nvme_format+deploy_write"

/-- `^(capture_read_write|deploy_write|nvme_format\+deploy_write)$`. -/
def isOperation (s : Str) : Bool :=
  s == captureReadWrite || s == deployWrite || s == nvmeFormatDeployWrite

/-- The arguments two by two. -/
def pairUp : List Str → Option (List (Str × Str))
  | [] => some []
  | [_] => none
  | a :: b :: rest => (pairUp rest).map ((a, b) :: ·)

/-- The order of `sort_by(.targetId, .operation)`. -/
def pairLe (a b : Str × Str) : Bool := if a.1 = b.1 then decide (a.2 ≤ b.2) else decide (a.1 ≤ b.1)

/-- The targets of an answer, if each of them has two strings. -/
def targetPairs (targets : List (Option Str × Option Str)) : Option (List (Str × Str)) :=
  targets.mapM fun t => do
    let id ← t.1
    let op ← t.2
    some (id, op)

/-- The answer for a list of targets is kept if it is about the same ones. -/
def kept (s : State) (expected : List (Str × Str)) (r : BatchReply) (stored : Bool) : State × ℕ :=
  match r.targets.bind targetPairs with
  | none => protocolError s r.httpCode
  | some actual =>
    if actual.mergeSort pairLe = expected.mergeSort pairLe then
      if stored then ({ s with bindings := some (actual.mergeSort pairLe) }, 0) else (s, 12)
    else protocolError s r.httpCode

/-- An answer about several disks, with any code. -/
def batchReceived (s : State) (items : List (Str × Str)) (r : BatchReply) (stored : Bool) :
    State × ℕ :=
  if !isHttpCode r.httpCode then protocolError s (text "unknown")
  else if r.httpCode.head? = some '5' then (s, 11)
  else if r.httpCode.head? = some '2' then
    -- `jq -e` fails on `false` too
    if r.granted = some true then kept s items r stored else protocolError s r.httpCode
  else if r.httpCode.head? = some '4' then denied s r.code r.httpCode r.cancelled
  else protocolError s r.httpCode

/-- The items of a request that may be sent. -/
def validItems (items : List (Str × Str)) : Bool :=
  (items.all fun i => isShortTargetId i.1 && isOperation i.2) && decide (items.map Prod.fst).Nodup

/-- `rootpxe_request_disk_permit_batch`. -/
def rootpxeRequestDiskPermitBatch (s : State) (args : List Str) (q : BatchRequest) : State × ℕ :=
  match if 2 ≤ args.length ∧ args.length ≤ 128 then pairUp args else none with
  | none => (s, 12)
  | some items =>
    if !q.context then (s, 11)
    else if !q.jq then (s, 12)
    else if !q.api then (s, 11)
    else if !q.capabilities then (s, 12)
    else if !validItems items then (s, 12)
    else
      match q.reply with
      | none => (s, 11)
      | some r => batchReceived s items r q.stored

/-! ### The map -/

/-- `awk` compares two texts as numbers if both look like numbers; `sameNumber` says that they do
and have one value. -/
def awkEqual (sameNumber : Str → Str → Bool) (a b : Str) : Bool := a == b || sameNumber a b

/-- The rows of the map, by their fields. -/
def mapRows (map : Str) : List (List Str) := (records map).map tabFields

/-- `$n`. -/
def field (row : List Str) (n : ℕ) : Str := row.getD (n - 1) []

def row (disk target op : Str) : Str := disk ++ '\t' :: (target ++ '\t' :: op)

/-- `rootpxe_record_disk_permit_binding`.  `made` is whether a map could be made, `readable` whether
it can be read, and `appended` whether the row could be written. -/
def rootpxeRecordDiskPermitBinding (sameNumber : Str → Str → Bool) (s : State)
    (disk target op : Str) (made readable appended : Bool) : State × Bool :=
  if !(decide (text "/dev/" <+: disk) && isShortTargetId target && isOperation op) then (s, false)
  else
    match if made then some (s.map.getD []) else s.map with
    | none => (s, false)
    | some map =>
      let s := { s with map := some map }
      if !readable then (s, false)
      else if (mapRows map).any fun r => awkEqual sameNumber (field r 1) (unescape disk) ||
          awkEqual sameNumber (field r 2) (unescape target) then (s, false)
      else if !appended then (s, false)
      else ({ s with map := some (map ++ (row disk target op ++ ['\n'])) }, true)

/-- A row that `rootpxe_verify_disk_permit_binding` refuses. -/
def badRow (r : List Str) : Bool :=
  !(r.length == 3 && decide (text "/dev/" <+: field r 1) && isTargetId (field r 2) &&
    isOperation (field r 3))

/-- The row of a disk, if the map is well formed and has one row for it. -/
def verifiedRow (sameNumber : Str → Str → Bool) (rows : List (List Str)) (disk : Str) :
    Option (List Str) :=
  if rows.any badRow ∨ ¬ (rows.map (field · 1)).Nodup ∨ ¬ (rows.map (field · 2)).Nodup then none
  else
    match rows.filter fun r => awkEqual sameNumber (field r 1) (unescape disk) with
    | [r] => some r
    | _ => none

/-- What the system says when a binding is verified: the stable identity of the disk, and whether
the files can be read. -/
structure Look where
  identity : Option Str
  mapReadable : Bool
  bindingsReadable : Bool
  deriving DecidableEq, Repr

/-- The operation of a row allows an operation. -/
def allows (mapped op : Str) : Bool :=
  mapped == op || (mapped == nvmeFormatDeployWrite && op == deployWrite)

/-- The server has granted a target and an operation: in the file, or in the variables if there is
no file. -/
def isGranted (s : State) (look : Look) (target op : Str) : Bool :=
  match if look.bindingsReadable then s.bindings else none with
  | some bindings => decide ((target, op) ∈ bindings)
  | none => s.granted && s.targetId == target && s.operation == op

/-- `rootpxe_verify_disk_permit_binding`. -/
def rootpxeVerifyDiskPermitBinding (sameNumber : Str → Str → Bool) (s : State) (disk op : Str)
    (look : Look) : Bool :=
  match if look.mapReadable then s.map else none with
  | none => false
  | some map =>
    match verifiedRow sameNumber (mapRows map) disk with
    | some [mapDisk, mappedId, mappedOperation] =>
      decide (mapDisk = disk) && isShortTargetId mappedId &&
        decide (look.identity = some mappedId) &&
        allows mappedOperation op && isGranted s look mappedId mappedOperation
    | _ => false

/-- `rootpxe_activate_disk_permit_binding`. -/
def rootpxeActivateDiskPermitBinding (sameNumber : Str → Str → Bool) (s : State) (disk op : Str)
    (look : Look) : State × Bool :=
  if !rootpxeVerifyDiskPermitBinding sameNumber s disk op look then (s, false)
  else
    match (mapRows (s.map.getD [])).find? fun r =>
      awkEqual sameNumber (field r 1) (unescape disk) with
    | some [mapDisk, mappedId, mappedOperation] =>
      if mapDisk = disk then
        ({ s with granted := true, targetId := mappedId, operation := mappedOperation }, true)
          else (s, false)
    | _ => (s, false)

end Pxeos.Permit
