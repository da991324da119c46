import Pxeos.Lib.Checks
import Pxeos.Lib.Shell

/-!
# The use of a target disk

`rootpxe_target_disk_use_preflight` of `funcs.sh`: the device numbers of the tree below a disk are
looked for in the table of the mounts, in the table of the swap areas and in the descriptors of
every process.  What the commands and the kernel say is in a `System`; a descriptor may be closed or
used again between two looks at it.
-/

namespace Pxeos.Target

open Pxeos.Lib

/-! ### What is read -/

/-- A value of the list that `lsblk` prints: a device with the texts of its fields, or anything that
is not an object with such fields. -/
inductive Node where
  | device (name type number : Str) (children : List Node)
  | malformed
  deriving Repr

/-- `/proc/swaps`. -/
inductive Swaps where
  | missing
  | unreadable
  | table (text : Str)
  deriving DecidableEq, Repr

/-- What a descriptor stands for: the answer of `stat`, and the text of its `fdinfo`. -/
structure Opened where
  info : Option Str
  fdinfo : Option Str
  deriving DecidableEq, Repr

/-- The looks at a descriptor, in their order. -/
inductive Look where
  | listed
  | stat
  | statGone
  | flags
  | flagsGone
  | still
  | again
  | againGone
  deriving DecidableEq, Repr

/-- What is behind a descriptor at each look; `none` is a descriptor that is closed. -/
abbrev Descriptor := Look → Option Opened

/-- `/proc/N/fd`: whether it is a directory when it is met, whether it can be read, whether it is a
directory after that, and its entries. -/
structure FdDir where
  isDir : Bool
  readable : Bool
  stillDir : Bool
  fds : List Descriptor

/-- What the commands and the kernel say.  `blockdevices` is `none` if that is no array. -/
structure System where
  command : Str → Bool
  readlink : Str → Option Str
  stat : Str → Option Str
  lsblk : Str → Option (Option (List Node))
  mountinfo : Option Str
  swaps : Swaps
  configReadable : Bool
  zcat : Option Str
  fdDirs : List FdDir

/-- `rootpxe_target_use_code` and `rootpxe_target_use_reason`. -/
structure Failure where
  code : String
  reason : String
  deriving DecidableEq, Repr

def unavailable (reason : String) : Failure := ⟨"TARGET_DISK_STATE_UNAVAILABLE", reason⟩

def inUse (reason : String) : Failure := ⟨"TARGET_DISK_IN_USE", reason⟩

/-- A command that failed ends the check. -/
def orFail {α : Type} (x : Option α) (f : Failure) : Except Failure α :=
  match x with
  | some a => .ok a
  | none => .error f

@[simp] lemma orFail_eq_ok {α : Type} {x : Option α} {f : Failure} {a : α} :
    orFail x f = .ok a ↔ x = some a := by
  unfold orFail
  split <;> simp_all

/-! ### Texts -/

/-- `^-?[0-9]+$`. -/
def isInteger (s : Str) : Bool :=
  match s with
  | '-' :: t => isNumber t
  | t => isNumber t

/-- `^[0-9]+:[0-9]+$`. -/
def isDeviceNumber (s : Str) : Bool :=
  match s.splitOn ':' with
  | [major, minor] => isNumber major && isNumber minor
  | _ => false

/-- `[0-9a-fA-F]{1,8}`. -/
def isHex (s : Str) : Bool := s != [] && s.length ≤ 8 && s.all fun c => (hexDigit c).isSome

/-- `16#…`. -/
def hexValue (s : Str) : ℕ := s.foldl (fun n c => 16 * n + (hexDigit c).getD 0) 0

def blockSpecial : Str := "block special file|".toList

/-- The two numbers after the first bar. -/
def afterBar (value : Str) : Option (Str × Str) :=
  match ((value.dropWhile (· ≠ '|')).drop 1).splitOn ':' with
  | [major, minor] => if isHex major && isHex minor then some (major, minor) else none
  | _ => none

/-- `rootpxe_target_stat_device_id`. -/
def rootpxeTargetStatDeviceId (value : Str) : Option Str :=
  if blockSpecial.isPrefixOf value then
    (afterBar value).map fun n => Nat.toDigits 10 (hexValue n.1) ++
      ':' :: Nat.toDigits 10 (hexValue n.2)
  else none

/-! ### The device graph -/

mutual
/-- `valid`. -/
def Node.valid : Node → Bool
  | .device name type number children =>
    "/dev/".toList.isPrefixOf name && type != [] && isDeviceNumber number && Node.allValid children
  | .malformed => false
def Node.allValid : List Node → Bool
  | [] => true
  | n :: ns => n.valid && Node.allValid ns
end

mutual
/-- `recurse(.children[]?) | ."maj:min"`. -/
def Node.numbers : Node → List Str
  | .device _ _ number children => number :: Node.allNumbers children
  | .malformed => []
def Node.allNumbers : List Node → List Str
  | [] => []
  | n :: ns => n.numbers ++ Node.allNumbers ns
end

/-- The program of `jq`: the device numbers of the only tree, whose root is the target. -/
def graphIds (devices : Option (List Node)) (id : Str) : Option (List Str) :=
  match devices with
  | some [.device name type number children] =>
    if Node.valid (.device name type number children) && number == id then
      some (Node.numbers (.device name type number children))
    else none
  | _ => none

/-! ### Mounts -/

/-- The first `-` from the seventh field on, counted from one; zero if there is none. -/
def separator (fields : List Str) : ℕ :=
  match (fields.drop 6).findIdx? (· == ['-']) with
  | some i => i + 7
  | none => 0

/-- A record of `mountinfo` that is not as it should be. -/
def mountBad (fields : List Str) : Bool :=
  decide (fields.length < 10) || !isNumber (fields.getD 0 []) || !isNumber (fields.getD 1 []) ||
    !isDeviceNumber (fields.getD 2 []) || separator fields == 0 ||
      decide (fields.length < separator fields + 3)

/-- The first `awk` program: whether a device of the tree is mounted. -/
def mountState (ids : List Str) (text : Str) : Option Bool :=
  let rows := (records text).map blankFields
  if rows.any mountBad || rows.isEmpty then none
  else some (rows.any fun r => ids.contains (r.getD 2 []))

/-! ### Swap areas -/

/-- The kernel's configuration says that there are no swap areas. -/
def swapDisabled (config : Str) : Bool :=
  let lines := records (captured config ++ ['\n'])
  lines.countP (· == "# CONFIG_SWAP is not set".toList) == 1 &&
    lines.countP "CONFIG_SWAP=".toList.isPrefixOf == 0

def swapHeader : List Str :=
  ["Filename".toList, "Type".toList, "Size".toList, "Used".toList, "Priority".toList]

/-- A row of the table of swap areas, printed as its path and its type. -/
def swapRow (fields : List Str) : Option Str :=
  match fields with
  | [path, type, size, used, priority] =>
    if (type == "partition".toList || type == "file".toList) && isNumber size && isNumber used &&
      isInteger priority then
      some (path ++ '|' :: type)
    else none
  | _ => none

/-- The `awk` program over `/proc/swaps`. -/
def swapState (text : Str) : Option (List Str) :=
  match (records text).map blankFields with
  | header :: rows => if header = swapHeader then rows.mapM swapRow else none
  | [] => none

/-- The text of the swap areas, from the table or from the proof that there are none. -/
def swapText (s : System) : Except Failure Str :=
  match s.swaps with
  | .missing => do
    errorIf (!(s.command "zcat".toList && s.configReadable))
      (unavailable "swap_capability_unavailable")
    let config ← orFail s.zcat (unavailable "swap_capability_read_failed")
    errorIf (!swapDisabled config) (unavailable "swap_capability_not_proven")
    pure []
  | .unreadable => .error (unavailable "swap_state_unreadable")
  | .table text => do
    let rows ← orFail (swapState text) (unavailable "swap_state_invalid")
    pure (captured (unlines rows))

/-- One turn of the loop over the swap areas. -/
def swapUnused (s : System) (ids : List Str) (line : Str) : Except Failure Unit :=
  let (swapPath, swapType) := readTwo '|' line
  if swapPath = [] then .ok ()
  else do
    let swapInfo ← orFail (s.stat swapPath) (unavailable "swap_device_unavailable")
    if swapType = "partition".toList then do
      let swapId ← orFail (rootpxeTargetStatDeviceId (captured swapInfo))
        (unavailable "swap_device_invalid")
      errorIf (ids.contains swapId) (inUse "active_swap")
    else .ok ()

/-! ### Descriptors -/

/-- The rows of `fdinfo` that begin with `flags:`. -/
def flagRows (text : Str) : List (List Str) :=
  ((records text).map blankFields).filter fun r => r.head? == some "flags:".toList

def isOctal (s : Str) : Bool := s != [] && s.all fun c => (octalDigit c).isSome

/-- The `awk` program over `fdinfo`. -/
def fdFlags (text : Str) : Option Str :=
  match flagRows text with
  | [[_, value]] => if isOctal value then some value else none
  | _ => none

/-- `^[^\|]+\|[0-9a-fA-F]{1,8}:[0-9a-fA-F]{1,8}$`. -/
def isStatText (s : Str) : Bool := s.takeWhile (· ≠ '|') != [] && (afterBar s).isSome

/-- `${flags: -1} & 3`. -/
def accessBits (flags : Str) : ℕ := (octalDigit (flags.getLast?.getD '0')).getD 0 % 4

/-- The device of a descriptor, if it is a device of the tree. -/
def fdDevice (ids : List Str) (info : Str) : Except Failure Bool :=
  if blockSpecial.isPrefixOf info then do
    let id ← orFail (rootpxeTargetStatDeviceId info) (unavailable "block_fd_device_invalid")
    pure (ids.contains id)
  else pure false

/-- The recheck of a descriptor, and its access mode. -/
def fdRecheck (ids : List Str) (fd : Descriptor) (flags : Str) : Except Failure Unit :=
  if (fd .still).isNone then .ok ()
  else
    match (fd .again).bind Opened.info with
    | none => errorIf (fd .againGone).isSome (unavailable "block_fd_recheck_failed")
    | some info => do
      errorIf (!isStatText (captured info)) (unavailable "block_fd_recheck_invalid")
      if ← fdDevice ids (captured info) then
        match accessBits flags with
        | 0 => .ok ()
        | 1 => .error (inUse "writable_block_fd")
        | 2 => .error (inUse "writable_block_fd")
        | _ => .error (unavailable "block_fd_flags_invalid")
      else .ok ()

/-- One turn of the loop over the descriptors of a process. -/
def fdUnused (ids : List Str) (fd : Descriptor) : Except Failure Unit :=
  if (fd .listed).isNone then .ok ()
  else
    match (fd .stat).bind Opened.info with
    | none => errorIf (fd .statGone).isSome (unavailable "block_fd_stat_failed")
    | some info => do
      if ← fdDevice ids (captured info) then
        match ((fd .flags).bind Opened.fdinfo).bind fdFlags with
        | none => errorIf (fd .flagsGone).isSome (unavailable "block_fd_flags_unavailable")
        | some flags => fdRecheck ids fd flags
      else .ok ()

/-- One turn of the loop over the processes. -/
def fdDirUnused (ids : List Str) (dir : FdDir) : Except Failure Unit :=
  if !dir.isDir then .ok ()
  else if !dir.readable then errorIf dir.stillDir (unavailable "block_fd_directory_unreadable")
  else dir.fds.forM (fdUnused ids)

/-! ### The check -/

def tools : List Str :=
  ["lsblk".toList, "jq".toList, "stat".toList, "readlink".toList, "awk".toList]

/-- The device numbers of the tree of the target. -/
def targetIds (s : System) (disk : Str) : Except Failure (List Str) := do
  errorIf (!tools.all s.command) (unavailable "required_tool_missing")
  let canonical ← orFail (s.readlink disk) (unavailable "target_path_unavailable")
  let canonical := captured canonical
  errorIf (!("/dev/".toList.isPrefixOf canonical && !canonical.any isSpace))
    (unavailable "target_path_invalid")
  let info ← orFail (s.stat canonical) (unavailable "target_stat_failed")
  let deviceId ← orFail (rootpxeTargetStatDeviceId (captured info))
    (unavailable "target_not_block_device")
  let graph ← orFail (s.lsblk canonical) (unavailable "device_graph_failed")
  orFail (graphIds graph deviceId) (unavailable "device_graph_invalid")

/-- `rootpxe_target_disk_use_preflight`. -/
def rootpxeTargetDiskUsePreflight (s : System) (disk : Str) : Except Failure Unit := do
  let ids ← targetIds s disk
  let mountinfo ← orFail s.mountinfo (unavailable "mount_state_unreadable")
  let mounted ← orFail (mountState ids mountinfo) (unavailable "mount_state_invalid")
  errorIf mounted (inUse "mounted")
  let state ← swapText s
  (records (state ++ ['\n'])).forM (swapUnused s ids)
  s.fdDirs.forM (fdDirUnused ids)

/-- `rootpxe_require_unused_target_disks`, with the state in which each target is checked and the
text of the error. -/
def rootpxeRequireUnusedTargetDisks (targets : List (Str × System)) : Except Str Unit :=
  if targets.isEmpty then
    .error
      "PXEOS_STAGE=target_use CODE=TARGET_DISK_STATE_UNAVAILABLE REASON=target_set_empty".toList
  else
    targets.forM fun t =>
      match rootpxeTargetDiskUsePreflight t.2 t.1 with
      | .ok () => .ok ()
      | .error f =>
        .error (("PXEOS_STAGE=target_use CODE=" ++ f.code ++ " TARGET=").toList ++ t.1 ++
          (" REASON=" ++ f.reason).toList)

end Pxeos.Target
