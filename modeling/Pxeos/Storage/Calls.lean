import Pxeos.Lib.Interact
import Pxeos.Storage.Context

/-!
# What the helper asks of the system

The system calls of `storage_fs.c` and of the loop of `rootpxe-storage-io.c`, with the answers the
code tells apart.  Any answer is possible at any time: other processes work on the same storage, and
the server sends what it likes.  The notes are no calls; they mark in a run where the code takes a
command, accepts an acknowledgement, gives up, or writes `last_sequence`.
-/

namespace Pxeos.Storage

open Pxeos.Lib

/-- A file descriptor. -/
abbrev Fd := ℕ

/-- The fields of `struct statx` that are asked for. -/
structure Stat where
  ino : ℕ
  devMajor : ℕ
  devMinor : ℕ
  mode : ℕ
  size : ℕ
  mtimeSec : ℤ
  mtimeNsec : ℕ
  ctimeSec : ℤ
  ctimeNsec : ℕ
  deriving DecidableEq, Repr

namespace Stat

/-- `S_ISDIR`. -/
def isDir (s : Stat) : Bool := s.mode / 0x1000 % 16 == 4

/-- `S_ISREG`. -/
def isReg (s : Stat) : Bool := s.mode / 0x1000 % 16 == 8

/-- The device of a node. -/
def device (s : Stat) : ℕ × ℕ := (s.devMajor, s.devMinor)

/-- `same_runtime`: every field is the same. -/
def sameRuntime (a b : Stat) : Bool := decide (a = b)

end Stat

/-- The flags of an `openat`; every one of them has `O_CLOEXEC`. -/
structure Flags where
  directory : Bool
  /-- `O_RDWR | O_CREAT | O_EXCL`. -/
  exclusive : Bool
  nofollow : Bool
  deriving DecidableEq, Repr

/-- `O_RDONLY`. -/
def readOnly : Flags := ⟨false, false, false⟩

/-- `O_RDONLY | O_DIRECTORY`. -/
def readDirectory : Flags := ⟨true, false, false⟩

/-- The data pipe, or a file. -/
inductive Stream where
  | data
  | file (fd : Fd)
  deriving DecidableEq, Repr

/-- What is written in a run without a call. -/
inductive Note where
  | took (command : Json)
  | accepted (event ack : Json)
  | rejected
  | advanced (sequence : ℕ)

/-- The calls. -/
inductive Call where
  | parentAlive
  | emit (event : Json)
  | line
  | openRoot
  | mountInfo (root : Fd)
  | dup (fd : Fd)
  | statx (fd : Fd)
  | statxAt (dir : Fd) (name : Bytes)
  | openat (dir : Fd) (name : Bytes) (flags : Flags)
  | close (fd : Fd)
  | mkdirat (dir : Fd) (name : Bytes)
  | unlinkat (dir : Fd) (name : Bytes) (directory : Bool)
  | renameat2 (dir : Fd) (name : Bytes) (target : Fd) (dest : Bytes)
  | renameat (dir : Fd) (name : Bytes) (target : Fd) (dest : Bytes)
  | fdopendir (fd : Fd)
  | readdir
  | closedir
  | read (source : Stream) (want : ℕ)
  | write (target : Stream) (bytes : Bytes)
  | fsync (fd : Fd)
  | rewind (fd : Fd)
  | digest
  | note (n : Note)

/-- How the reading of a line ends. -/
inductive Ending where
  | newline
  | eof
  | failed
  deriving DecidableEq, Repr

/-- What `statx` says about a name: it is there, it is not (`ENOENT`), or something else went
wrong. -/
inductive Lookup where
  | found
  | missing
  | failed
  deriving DecidableEq, Repr

/-- What `renameat2` says; `unsupported` is `EINVAL`, `EOPNOTSUPP` or `ENOSYS`. -/
inductive Renamed where
  | renamed
  | unsupported
  | failed
  deriving DecidableEq, Repr

def Renamed.isRenamed : Renamed → Bool
  | .renamed => true
  | _ => false

/-- What `read` says: no more bytes than were wanted. -/
inductive Read (want : ℕ) where
  | interrupted
  | failed
  | got (bytes : Bytes) (le : bytes.length ≤ want)

/-- What `write` says: no more bytes than there were. -/
inductive Written (length : ℕ) where
  | interrupted
  | failed
  | wrote (n : ℕ) (le : n ≤ length)

/-- What `readdir` says. -/
inductive DirEntry where
  | entry (name : Bytes)
  | done
  | failed

/-- The answers.  A call that only succeeds or fails is answered by whether it succeeds; `statx`
succeeds if it reports every field asked for. -/
def Call.Answer : Call → Type
  | .parentAlive => Bool
  | .emit _ => Bool
  | .line => Bytes × Ending
  | .openRoot => Option Fd
  | .mountInfo _ => Option Json
  | .dup _ => Option Fd
  | .statx _ => Option Stat
  | .statxAt _ _ => Lookup
  | .openat _ _ _ => Option Fd
  | .close _ => Bool
  | .mkdirat _ _ => Bool
  | .unlinkat _ _ _ => Bool
  | .renameat2 _ _ _ _ => Renamed
  | .renameat _ _ _ _ => Bool
  | .fdopendir _ => Bool
  | .readdir => DirEntry
  | .closedir => Bool
  | .read _ want => Read want
  | .write _ bytes => Written bytes.length
  | .fsync _ => Bool
  | .rewind _ => Bool
  | .digest => Bool
  | .note _ => Unit

/-- A program of the helper. -/
abbrev Helper := Prog Call Call.Answer

/-- A call of a run with its answer. -/
abbrev Step := Sigma Call.Answer

def ask (c : Call) : Helper c.Answer := Prog.ask c

def note (n : Note) : Helper Unit := ask (.note n)

/-- What the helper takes from `json-c` and from OpenSSL. -/
structure Libs where
  /-- `json_tokener_parse_ex` in strict mode, on a text of which nothing is left over. -/
  parse : Bytes → Option Json
  /-- `json_object_to_json_string_ext`. -/
  serialize : Json → Bytes
  /-- `json_object_equal`. -/
  equal : Json → Json → Bool
  /-- SHA-256. -/
  sha256 : Bytes → Option Bytes

/-! ### Lines of JSON -/

def commandMax : ℕ := 16384
def resultMax : ℕ := 65536
def dataMax : ℕ := 131072

/-- The object in a line that is not too long and has no NUL byte. -/
def lineJson (L : Libs) (bytes : Bytes) (ending : Ending) : Option Json :=
  if ending = .newline ∧ bytes.length < commandMax ∧ (0 : UInt8) ∉ bytes ∧ bytes ≠ [] then
    match L.parse bytes with
    | some o => if o.isObject then some o else none
    | none => none
  else none

/-- `rx_read_json` on the request pipe. -/
def rxReadJson (L : Libs) : Helper (Option Json) := do
  let (bytes, ending) ← ask .line
  pure (lineJson L bytes ending)

def emit (event : Json) : Helper Bool := ask (.emit event)

/-- `rx_emit`. -/
def rxEmit (L : Libs) (event : Json) : Helper Bool :=
  if (L.serialize event).length < resultMax then emit event else pure false

/-- `rx_write_all`. -/
def rxWriteAll (target : Stream) : ℕ → Bytes → Helper Bool
  | _, [] => pure true
  | 0, _ => .stop
  | fuel + 1, bytes => do
    match ← ask (.write target bytes) with
    | .interrupted => rxWriteAll target fuel bytes
    | .failed => pure false
    | .wrote n _ => if n = 0 then pure false else rxWriteAll target fuel (bytes.drop n)

end Pxeos.Storage
