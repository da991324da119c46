import Pxeos.Linux.Transaction

/-!
# The files of the transaction

What the commands of the transaction do to `/etc`, and what is asked of them: a command that
succeeds has done what its manual says, and a command that fails has done nothing or, if it writes a
file, left anything in it.  A digest stands for the bytes it was made of.
-/

namespace Pxeos.Linux

open Pxeos.Lib

/-- An entry of a directory; what is no regular file is only told apart. -/
structure File where
  bytes : Str
  metadata : Metadata
  mtime : ℕ
  inode : ℕ
  regular : Bool
  deriving DecidableEq, Repr

/-- `/etc`, with the inode of the stage while there is one. -/
structure World where
  file : Path → Option File
  stage : Option ℕ

/-! ### What the checks see -/

/-- `rootpxe_ci_metadata_safe path file exact`. -/
def File.metadataSafe (f : File) (exact : Option ℕ) : Prop :=
  f.regular = true ∧ f.metadata.uid = 0 ∧ f.metadata.gid = 0 ∧ 0o100 ≤ f.metadata.mode ∧
    f.metadata.mode ≤ 0o7777 ∧
    f.metadata.mode &&& 0o022 = 0 ∧ (∀ mode ∈ exact, f.metadata.mode = mode) ∧ f.metadata.links = 1

/-- `rootpxe_lh_file_safe`. -/
def File.fileSafe (f : File) : Prop := f.metadataSafe none ∧ f.metadata.mode &&& 0o7133 = 0

/-- `^[A-Za-z0-9][A-Za-z0-9._-]*$`. -/
def oldHostnameChars (s : Str) : Bool :=
  s.head?.any Char.isAlphanum && s.all fun c => c.isAlphanum || c == '.' || c == '_' || c == '-'

/-- `rootpxe_lh_old_hostname`, on the bytes of `/etc/hostname`. -/
def oldHostname (hostname : Option Str) : Str :=
  let line := ((hostname.getD []).takeWhile (· ≠ '\n')).filter (· ≠ '\x00')
  let old := if line.getLast? = some '\r' then line.dropLast else line
  if old.length ≤ 253 && oldHostnameChars old && !(old.map Char.toLower ∈
    ["localhost".toList, "localhost.localdomain".toList]) then old else []

/-! ### What the commands do -/

namespace World

variable (w : World)

def bytes (p : Path) : Option Str := (w.file p).map (·.bytes)

def put (p : Path) (f : Option File) : World :=
  { w with file := fun q => if q = p then f else w.file q }

def modify (p : Path) (f : File → File) : World := w.put p ((w.file p).map f)

/-- A command has written a file, or a part of it. -/
def written {β : Type} (p : Path) (r : Reply β) : World :=
  w.modify p fun f => { f with bytes := r.bytes, mtime := r.mtime }

/-- `/etc` after a command. -/
def next : Sigma Answer → World
  | ⟨.mktemp, r⟩ => if r.result.isSome then { w with stage := some r.inode } else w
  | ⟨.create p, r⟩ =>
    if r.result.isSome then w.put p (some ⟨[], ⟨0, 0, 0o600, 1⟩, r.mtime, r.inode, true⟩) else w
  | ⟨.chmod p mode, r⟩ =>
    if r.result.isSome then w.modify p fun f =>
      { f with metadata := { f.metadata with mode := mode } } else w
  | ⟨.chown p, r⟩ =>
    if r.result.isSome then w.modify p fun f =>
      { f with metadata := { f.metadata with uid := 0, gid := 0 } } else w
  | ⟨.copy _ p, r⟩ => w.written p r
  | ⟨.printName p _, r⟩ => w.written p r
  | ⟨.render p _ _, r⟩ => w.written p r
  | ⟨.touch q p, r⟩ =>
    if r.result.isSome then w.modify p fun f =>
      { f with mtime := ((w.file q).map (·.mtime)).getD f.mtime } else w
  | ⟨.remove p, r⟩ => if r.result.isSome then w.put p none else w
  | ⟨.rmdir, r⟩ => if r.result.isSome then { w with stage := none } else w
  | _ => w

variable (render : Option Str → Str → Str → Str)

/-- What is asked of the answers.  `render` is what `rootpxe_lh_render_hosts` prints for the bytes
of `/etc/hosts`. -/
def Answers : Sigma Answer → Prop
  | ⟨.assign, r⟩ => r.result.isSome
  | ⟨.trap, r⟩ => r.result.isSome
  | ⟨.present p, r⟩ => r.result = some (w.file p).isSome
  | ⟨.fileSafe p, r⟩ => r.result.isSome → ∃ f, w.file p = some f ∧ f.fileSafe
  | ⟨.metadataSafe p exact, r⟩ => r.result.isSome → ∃ f, w.file p = some f ∧ f.metadataSafe exact
  | ⟨.stageSafe, r⟩ => r.result.isSome → w.stage.isSome
  | ⟨.inode p, r⟩ => ∀ n, r.result = some n → (w.file p).map (·.inode) = some n
  | ⟨.stageInode, r⟩ => ∀ n, r.result = some n → w.stage = some n
  | ⟨.stat p, r⟩ => ∀ m, r.result = some m → (w.file p).map (·.metadata) = some m
  | ⟨.hash p, r⟩ => ∀ h, r.result = some h → w.bytes p = some h
  | ⟨.hashName name, r⟩ => ∀ h, r.result = some h → h = name ++ ['\n']
  | ⟨.oldHostname, r⟩ =>
    ∀ old, r.result = some old → old = oldHostname (w.bytes (.target .hostname))
  | ⟨.hashRendered old name, r⟩ =>
    ∀ h, r.result = some h → h = render (w.bytes (.target .hosts)) old name
  | ⟨.create p, r⟩ => r.result.isSome → w.file p = none
  | ⟨.copy q _, r⟩ => r.result.isSome → w.bytes q = some r.bytes
  | ⟨.printName _ name, r⟩ => r.result.isSome → r.bytes = name ++ ['\n']
  | ⟨.render _ old name, r⟩ =>
    r.result.isSome → r.bytes = render (w.bytes (.target .hosts)) old name
  | ⟨.touch q _, r⟩ => r.result.isSome → (w.file q).isSome
  | ⟨.rmdir, r⟩ => r.result.isSome → ∀ i, w.file (.backup i) = none ∧ w.file (.staged i) = none
  | _ => True

end World

/-- The moment of a run: `/etc`, and whether the EXIT trap has begun. -/
structure Moment where
  world : World
  trap : Bool

def Moment.next (s : Moment) (e : Sigma Answer) : Moment := ⟨s.world.next e, s.trap || e.1 == .trap⟩

/-- Both files are as they were and there is no stage. -/
def AsBefore (init w : World) : Prop :=
  (∀ i, w.file (.target i) = init.file (.target i)) ∧ w.stage = none

/-- The new content of a file. -/
def newContent (render : Option Str → Str → Str → Str) (init : World) (name : Str) : Which → Str
  | .hostname => name ++ ['\n']
  | .hosts =>
    render (init.bytes (.target .hosts)) (oldHostname (init.bytes (.target .hostname))) name

/-- No signal arrives right behind the command that creates a missing file, and in the EXIT trap
none arrives unless everything is as it was. -/
def Spared (init : World) (s : Moment) (e : Sigma Answer) : Prop :=
  e.2.signal.isSome → (∀ i, e.1 = .create (.target i) → e.2.result.isNone) ∧
    ((s.next e).trap = true → AsBefore init (s.next e).world)

/-- The contract of the runs in which the commands do as they should and the signals are of this
kind. -/
def contract (render : Option Str → Str → Str → Str) (init : World) : Contract Answer Moment where
  rely s e := s.world.Answers render e ∧ Spared init s e
  guard _ _ := True
  next := Moment.next

end Pxeos.Linux
