import Pxeos.Lib.Shell
import Pxeos.Lib.Script

/-!
# The hostname transaction

`rootpxe_linux_hostname_write_at_root` of `linux-hostname.sh`: it writes `/etc/hostname` and
`/etc/hosts` of a restored system in a subshell, with a staging directory, a backup of each file,
and an EXIT trap that takes everything back when the subshell did not end with status 0.  Every
command is a call; its answer says whether it succeeded and whether a signal arrived before the next
one.
-/

namespace Pxeos.Linux

open Pxeos.Lib

/-- The two files. -/
inductive Which where
  | hostname
  | hosts
  deriving DecidableEq, Repr

/-- The paths of the transaction: a file of `/etc`, its backup `.old` and its new version `.new` in
the stage. -/
inductive Path where
  | target (i : Which)
  | backup (i : Which)
  | staged (i : Which)
  deriving DecidableEq, Repr

/-- `stat -c '%u:%g:%a:%h'`. -/
structure Metadata where
  uid : ℕ
  gid : ℕ
  mode : ℕ
  links : ℕ
  deriving DecidableEq, Repr

inductive Signal where
  | int
  | term
  deriving DecidableEq, Repr

/-- `trap 'exit 130' INT` and `trap 'exit 143' TERM`. -/
def Signal.status : Signal → ℕ
  | .int => 130
  | .term => 143

/-- What the preflight asks about the system: the user and the directory, mounts on the paths, the
entries of `fstab`, and no staging directory of another transaction. -/
inductive Check where
  | root
  | mountpoints
  | fstab
  | evidence
  deriving DecidableEq, Repr

/-- The commands. -/
inductive Call where
  /-- An assignment. -/
  | assign
  /-- The first command of the EXIT trap, `status=$?`. -/
  | trap
  | check (c : Check)
  /-- `[[ -e path ]]`. -/
  | present (p : Path)
  /-- `rootpxe_lh_file_safe`. -/
  | fileSafe (p : Path)
  /-- `rootpxe_ci_metadata_safe path file`, with the exact mode if one is asked for. -/
  | metadataSafe (p : Path) (exact : Option ℕ)
  /-- `rootpxe_ci_metadata_safe "$lh_stage" directory 700`. -/
  | stageSafe
  /-- `rootpxe_ci_safe_write_directory "$root" /etc`. -/
  | safeWriteDirectory
  /-- `rootpxe_lh_inode`, of a file and of the stage. -/
  | inode (p : Path)
  | stageInode
  /-- The comparison of the devices of the stage and of `/etc`. -/
  | sameDevice
  /-- `rootpxe_ci_stat`. -/
  | stat (p : Path)
  /-- `rootpxe_lh_hash`. -/
  | hash (p : Path)
  /-- `printf '%s\n' "$hostName" | rootpxe_lh_hash -`. -/
  | hashName (name : Str)
  /-- `rootpxe_lh_old_hostname`. -/
  | oldHostname
  /-- `rootpxe_lh_render_hosts … | rootpxe_lh_hash -`. -/
  | hashRendered (old name : Str)
  /-- `mktemp -d`. -/
  | mktemp
  /-- `(set -o noclobber; : >"$path")`. -/
  | create (p : Path)
  | chmod (p : Path) (mode : ℕ)
  | chown (p : Path)
  /-- `cp -- source path`. -/
  | copy (source p : Path)
  /-- `touch -r reference -- path`. -/
  | touch (reference p : Path)
  /-- `printf '%s\n' "$hostName" >path`. -/
  | printName (p : Path) (name : Str)
  /-- `rootpxe_lh_render_hosts … >path`. -/
  | render (p : Path) (old name : Str)
  | remove (p : Path)
  | rmdir
  deriving DecidableEq, Repr

/-- What a command prints or answers. -/
def Call.Value : Call → Type
  | .present _ => Bool
  | .inode _ => ℕ
  | .stageInode => ℕ
  | .stat _ => Metadata
  | .hash _ => Str
  | .hashName _ => Str
  | .oldHostname => Str
  | .hashRendered _ _ => Str
  | _ => Unit

/-- The answer to a command: its result, unless it fails; what it leaves in a file that it writes or
creates, also when it fails half way; and the signal that arrives before the next command. -/
structure Reply (β : Type) where
  result : Option β
  bytes : Str
  mtime : ℕ
  inode : ℕ
  signal : Option Signal

abbrev Answer (c : Call) : Type := Reply c.Value

/-- The variables for one file, its entries in the arrays. -/
structure FileVars where
  changed : Bool
  existed : Bool
  finalInode : Option ℕ
  metadata : Option Metadata
  oldHash : Str
  newHash : Str
  deriving DecidableEq, Repr

/-- The variables of the subshell. -/
structure Vars where
  verified : Bool
  /-- `lh_stage` is not empty. -/
  stage : Bool
  stageInode : Option ℕ
  file : Which → FileVars
  ownedPaths : List Path
  ownedInodes : List ℕ

def Vars.update (v : Vars) (i : Which) (f : FileVars → FileVars) : Vars :=
  { v with file := fun j => if j = i then f (v.file i) else v.file j }

def initialVars : Vars := ⟨false, false, none, fun _ => ⟨false, false, none, none, [], []⟩, [], []⟩

abbrev Transaction (α : Type) : Type := Script Call Answer Vars α

/-! ### Commands -/

/-- `name=$(command)`: a pending signal is handled after the assignment. -/
def capture (c : Call) (f : c.Value → Vars → Vars) : Transaction (Option c.Value) := do
  let r ← (Script.ask c : Transaction (Answer c))
  Script.set fun v =>
    match r.result with
    | some a => f a v
    | none => v
  match r.signal with
  | some s => Script.exit s.status
  | none => pure r.result

/-- A command that sets no variable of the trap. -/
def run (c : Call) : Transaction (Option c.Value) := capture c fun _ v => v

/-- `name=$(command) || exit n`. -/
def captureOrExit (n : ℕ) (c : Call) (f : c.Value → Vars → Vars) : Transaction c.Value := do
  match ← capture c f with
  | some a => pure a
  | none => Script.exit n

/-- `command || exit n`. -/
def orExit (n : ℕ) (c : Call) : Transaction c.Value := captureOrExit n c fun _ v => v

def inodeOrExit (n : ℕ) (p : Path) : Transaction ℕ := orExit n (.inode p)

def statOrExit (n : ℕ) (p : Path) : Transaction Metadata := orExit n (.stat p)

def hashOrExit (n : ℕ) (p : Path) : Transaction Str := orExit n (.hash p)

/-- `[[ … ]] || exit n`. -/
def check (n : ℕ) (condition : Bool) : Transaction Unit :=
  if condition then pure () else Script.exit n

/-- Whether a command succeeds. -/
def ok (c : Call) : Transaction Bool := do
  return (← run c).isSome

/-- `[[ -e path ]]`. -/
def isPresent (p : Path) : Transaction Bool := do
  let answer : Option Bool ← run (.present p)
  pure (answer == some true)

/-- `command && command`. -/
def both (p q : Transaction Bool) : Transaction Bool := do
  if ← p then q else pure false

/-- `actual=$(rootpxe_lh_inode path) && [[ -n expected && $actual == expected ]]`, of a file and of
the stage. -/
def inodeIs (p : Path) (expected : Option ℕ) : Transaction Bool :=
  match expected with
  | none => pure false
  | some n => do
    let actual : Option ℕ ← run (.inode p)
    pure (actual == some n)

def stageInodeIs (expected : Option ℕ) : Transaction Bool :=
  match expected with
  | none => pure false
  | some n => do
    let actual : Option ℕ ← run .stageInode
    pure (actual == some n)

/-- `actual=$(rootpxe_ci_stat path) && [[ $actual == expected ]]`. -/
def statIs (p : Path) (expected : Option Metadata) : Transaction Bool := do
  let actual : Option Metadata ← run (.stat p)
  pure (actual.isSome && actual == expected)

/-- `actual=$(rootpxe_lh_hash path) && [[ $actual == expected ]]`. -/
def hashIs (p : Path) (expected : Str) : Transaction Bool := do
  let actual : Option Str ← run (.hash p)
  pure (actual == some expected)

/-- An assignment. -/
def assign (f : Vars → Vars) : Transaction Unit := do
  let _ ← capture .assign fun _ => f

/-! ### The preflight -/

/-- `^[A-Za-z0-9]([A-Za-z0-9-]{0,61}[A-Za-z0-9])?$`. -/
def validateLinuxHostname (name : Str) : Bool :=
  decide (1 ≤ name.length) && decide (name.length ≤ 63) &&
    name.all (fun c => c.isAlphanum || c == '-') &&
    name.head?.any Char.isAlphanum && name.getLast?.any Char.isAlphanum

/-- `rootpxe_linux_hostname_preflight "$root" || exit 61`. -/
def preflight (name : Str) : Transaction Unit := do
  let _ ← orExit 61 (.check .root)
  check 61 (validateLinuxHostname name)
  let _ ← orExit 61 (.check .mountpoints)
  let _ ← orExit 61 (.check .fstab)
  let _ ← orExit 61 (.check .evidence)
  Script.forEach [.hostname, .hosts] fun i => do
    if ← isPresent (.target i) then
      let _ ← orExit 61 (.fileSafe (.target i))
      let _ ← inodeOrExit 61 (.target i)
  if (← isPresent (.target .hostname)) && (← isPresent (.target .hosts)) then
    let expected : Str ← orExit 61 (.hashName name)
    let actual ← hashOrExit 61 (.target .hostname)
    if actual = expected then
      let old ← orExit 61 .oldHostname
      let expected : Str ← orExit 61 (.hashRendered old name)
      let actual ← hashOrExit 61 (.target .hosts)
      if actual = expected then
        assign fun v => { v with verified := true }

/-! ### Staging -/

/-- `rootpxe_lh_owned_file path || exit 66`. -/
def ownedFile (p : Path) : Transaction Unit := do
  let _ ← orExit 66 (.create p)
  let inode ← inodeOrExit 66 p
  assign fun v => { v with ownedPaths := v.ownedPaths ++ [p] }
  assign fun v => { v with ownedInodes := v.ownedInodes ++ [inode] }
  let _ ← orExit 66 (.chmod p 0o600)
  let _ ← orExit 66 (.chown p)
  let _ ← orExit 66 (.metadataSafe p (some 0o600))

/-- The backup of a file that exists. -/
def backUp (i : Which) : Transaction Unit := do
  let _ ← orExit 61 (.fileSafe (.target i))
  let inode ← inodeOrExit 65 (.target i)
  let metadata ← statOrExit 65 (.target i)
  let hash ← hashOrExit 65 (.target i)
  assign (·.update i fun f => { f with existed := true })
  assign (·.update i fun f => { f with finalInode := some inode })
  assign (·.update i fun f => { f with metadata := some metadata })
  assign (·.update i fun f => { f with oldHash := hash })
  ownedFile (.backup i)
  let _ ← orExit 66 (.copy (.target i) (.backup i))
  let _ ← orExit 66 (.touch (.target i) (.backup i))
  let actual ← hashOrExit 65 (.backup i)
  check 65 (actual == hash)

/-- The entries of a file that does not exist. -/
def noBackup (i : Which) : Transaction Unit := do
  assign (·.update i fun f => { f with existed := false })
  assign (·.update i fun f => { f with finalInode := none })
  assign (·.update i fun f => { f with metadata := some ⟨0, 0, 0o644, 1⟩ })
  assign (·.update i fun f => { f with oldHash := [] })

/-- The command that writes the new version. -/
def newVersion (old name : Str) (i : Which) : Call :=
  match i with
  | .hostname => .printName (.staged i) name
  | .hosts => .render (.staged i) old name

/-- The entries of a file as it is found. -/
def recordOld (i : Which) : Transaction Unit := do
  if ← isPresent (.target i) then backUp i else noBackup i

/-- The new version of a file. -/
def stageNew (old name : Str) (i : Which) : Transaction Unit := do
  ownedFile (.staged i)
  let _ ← orExit 66 (newVersion old name i)
  let _ ← orExit 61 (.metadataSafe (.staged i) (some 0o600))
  let hash ← hashOrExit 65 (.staged i)
  assign (·.update i fun f => { f with newHash := hash })

/-- One turn of the first loop. -/
def stageFile (old name : Str) (i : Which) : Transaction Unit := do
  assign (·.update i fun f => { f with changed := false })
  recordOld i
  stageNew old name i

/-! ### Writing -/

/-- `rootpxe_lh_owned_file_valid`. -/
def ownedFileValid (p : Path) : Transaction Bool := do
  let v ← Script.vars
  both (ok .stageSafe) <| both (stageInodeIs v.stageInode) <|
    both (ok (.metadataSafe p (some 0o600))) <|
    if p ∈ v.ownedPaths then inodeIs p v.ownedInodes[v.ownedPaths.idxOf p]? else pure false

/-- The file is still the one that was backed up. -/
def unchangedSince (i : Which) : Transaction Unit := do
  let v ← Script.vars
  let _ ← orExit 61 (.fileSafe (.target i))
  let inode ← inodeOrExit 61 (.target i)
  let metadata ← statOrExit 61 (.target i)
  let hash ← hashOrExit 61 (.target i)
  check 61 (some inode == (v.file i).finalInode && some metadata == (v.file i).metadata &&
    hash == (v.file i).oldHash)

/-- The creation of a file that did not exist. -/
def createTarget (i : Which) : Transaction Unit := do
  let _ ← orExit 61 (.create (.target i))
  assign (·.update i fun f => { f with changed := true })
  let inode ← inodeOrExit 66 (.target i)
  assign (·.update i fun f => { f with finalInode := some inode })
  let _ ← orExit 66 (.chmod (.target i) 0o644)
  let _ ← orExit 66 (.chown (.target i))

/-- The checks of the new version. -/
def checkStaged (i : Which) : Transaction Unit := do
  let v ← Script.vars
  let _ ← orExit 61 .safeWriteDirectory
  let valid ← ownedFileValid (.staged i)
  check 65 valid
  let hash ← hashOrExit 65 (.staged i)
  check 65 (hash == (v.file i).newHash)

def openTarget (i : Which) : Transaction Unit := do
  let v ← Script.vars
  if (v.file i).existed then unchangedSince i else createTarget i

/-- A file that was there keeps its time. -/
def keepTime (i : Which) : Transaction Unit := do
  let v ← Script.vars
  if (v.file i).existed then
    let _ ← orExit 66 (.touch (.backup i) (.target i))

/-- The file that was written is read back. -/
def readBack (i : Which) : Transaction Unit := do
  let v ← Script.vars
  let _ ← orExit 65 (.fileSafe (.target i))
  let inode ← inodeOrExit 65 (.target i)
  let metadata ← statOrExit 65 (.target i)
  let hash ← hashOrExit 65 (.target i)
  check 65 (some inode == (v.file i).finalInode && some metadata == (v.file i).metadata &&
    hash == (v.file i).newHash)

/-- One turn of the second loop. -/
def writeFile (i : Which) : Transaction Unit := do
  checkStaged i
  openTarget i
  assign (·.update i fun f => { f with changed := true })
  let _ ← orExit 66 (.copy (.staged i) (.target i))
  keepTime i
  readBack i

/-- The subshell, without its EXIT trap. -/
def transaction (name : Str) : Transaction Unit := do
  preflight name
  let v ← Script.vars
  if !v.verified then
    let old ← orExit 65 .oldHostname
    let _ ← captureOrExit 66 .mktemp fun _ v => { v with stage := true }
    let _ ← captureOrExit 66 .stageInode fun inode v => { v with stageInode := some inode }
    let _ ← orExit 61 .stageSafe
    let _ ← orExit 61 .sameDevice
    Script.forEach [.hostname, .hosts] (stageFile old name)
    Script.forEach [.hostname, .hosts] writeFile

/-! ### The EXIT trap -/

/-- The rollback of a file that was overwritten. -/
def restoreTarget (v : Vars) (i : Which) : Transaction Bool :=
  both (ok (.fileSafe (.target i))) <| both (statIs (.target i) (v.file i).metadata) <|
    both (ownedFileValid (.backup i)) <| both (hashIs (.backup i) (v.file i).oldHash) <|
    both (ok (.copy (.backup i) (.target i))) <| both (ok (.touch (.backup i) (.target i))) <|
    both (hashIs (.target i) (v.file i).oldHash) (statIs (.target i) (v.file i).metadata)

/-- The rollback of a file that was created. -/
def removeTarget (i : Which) : Transaction Bool :=
  both (ok (.metadataSafe (.target i) none)) (ok (.remove (.target i)))

/-- The rollback of one file; the answer is whether it is as before. -/
def rollbackFile (i : Which) : Transaction Bool := do
  let v ← Script.vars
  if (v.file i).changed then
    both (ok .safeWriteDirectory) <| both (isPresent (.target i)) <|
      both (inodeIs (.target i) (v.file i).finalInode) <|
      if (v.file i).existed then restoreTarget v i else removeTarget i
  else pure true

/-- A pass over all of `xs`, whatever becomes of each. -/
def forAll {ι : Type} (xs : List ι) (turn : ι → Transaction Bool) : Transaction Bool :=
  match xs with
  | [] => pure true
  | x :: xs => do
    let a ← turn x
    let b ← forAll xs turn
    pure (a && b)

def removeOwned (p : Path) : Transaction Bool := do
  if ← isPresent p then both (ownedFileValid p) (ok (.remove p)) else pure true

def removeStage : Transaction Bool := do
  let v ← Script.vars
  if v.stage then both (stageInodeIs v.stageInode) (ok .rmdir) else pure true

/-- The part of the cleanup behind the rollback. -/
def removeStaging : Transaction ℕ := do
  let v ← Script.vars
  let files ← forAll v.ownedPaths.reverse removeOwned
  let stage ← removeStage
  pure (if files && stage then 0 else 68)

/-- The rollback, when the status is not 0. -/
def rollback (status : ℕ) : Transaction Bool :=
  if status = 0 then pure true else forAll [.hosts, .hostname] rollbackFile

/-- `rootpxe_lh_transaction_cleanup`. -/
def transactionCleanup (status : ℕ) : Transaction ℕ := do
  let restored ← rollback status
  if restored then removeStaging else pure 67

/-- The EXIT trap: the status of the subshell. -/
def exitTrap (status : ℕ) : Transaction ℕ := do
  let _ ← run .trap
  let result ← transactionCleanup status
  let _ ← run .assign
  pure (if result = 0 then status else result)

/-- **`rootpxe_linux_hostname_write_at_root`**: its status.  An `exit` inside the trap is the end of
the subshell. -/
def linuxHostnameWriteAtRoot (name : Str) : Prog Call Answer ℕ := do
  let (ended, v) ← transaction name initialVars
  let status :=
    match ended with
    | .ok _ => 0
    | .error n => n
  let (result, _) ← exitTrap status v
  pure <|
    match result with
    | .ok n => n
    | .error n => n

end Pxeos.Linux
