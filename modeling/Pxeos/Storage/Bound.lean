import Pxeos.Storage.Calls

/-!
# Paths the helper may use, and how it opens them

`path_allowed`, and `open_bound`, which opens a path component by component from the root of the
storage, and compares every node on the way with the proof that came with the acknowledgement.
-/

namespace Pxeos.Storage

open Pxeos.Lib

/-- `struct storage_fs`. -/
structure Fs where
  context : Context
  root : Fd
  rootStat : Stat
  lastCount : ℕ
  lastSequence : ℕ

/-! ### Paths -/

/-- `contained`. -/
def contained (base path : Bytes) : Bool :=
  decide (base <+: path) &&
    (path.drop base.length == [] || (path.drop base.length).head? == some slash)

/-- The task of the context is a capture. -/
def Context.isCapture (c : Context) : Bool :=
  rxString c.owner "taskType" 7 == some (ascii "capture")

/-- `path_allowed`. -/
def pathAllowed (c : Context) (path : Bytes) (mutate : Bool) : Bool :=
  if !rxRelative path true then false
  else if !mutate then path == [] || contained c.imagePath path || contained c.stage path ||
    contained c.lock path
  else if !c.isCapture then false
  else contained c.stage path || contained c.lock path || contained c.imagePath path ||
    path == ascii "dev" ||
    path == ascii ".locks" ||
      (decide (path <+: c.stage) && (c.stage.drop path.length).head? == some slash)

/-! ### Proofs -/

/-- `%02x` of every byte. -/
def hexBytes (s : Bytes) : Bytes :=
  s.flatMap fun b => [Nat.digitChar (b.toNat / 16), Nat.digitChar (b.toNat % 16)].map fun c =>
    c.toNat.toUInt8

/-- `%llx`. -/
def hexadecimal (n : ℕ) : Bytes := (Nat.toDigits 16 n).map fun c => c.toNat.toUInt8

/-- `%lld`. -/
def signedDecimal (n : ℤ) : Bytes := if n < 0 then 45 :: decimal n.natAbs else decimal n.natAbs

/-- `proof_key`. -/
def proofKey (L : Libs) (path : Bytes) : Option Bytes := do
  let digest ← L.sha256 path
  if digest.length = 32 then some (hexBytes digest) else none

/-- The entry of a proof for a path. -/
def proofEntry (L : Libs) (proof : Json) (path : Bytes) : Option Json := do
  let key ← proofKey L path
  proof.get key

/-- `proof_matches`. -/
def proofMatches (L : Libs) (proof : Json) (path : Bytes) (s : Stat) : Bool :=
  match proofEntry L proof path with
  | none => false
  | some p =>
    match rxString p "fileId" 16, rxString p "kind" 4 with
    | some id, some kind =>
      if id ≠ snprintf 17 (hexadecimal s.ino) then false
      else if kind = ascii "dir" then s.isDir
      else if kind ≠ ascii "file" ∨ !s.isReg then false
      else
        match rxString p "size" 20, rxString p "mtimeSec" 21, rxString p "mtimeNsec" 9 with
        | some size, some seconds, some nanos =>
          size == snprintf 21 (decimal s.size) &&
            seconds == snprintf 22 (signedDecimal s.mtimeSec) &&
            nanos == snprintf 10 (decimal s.mtimeNsec)
        | _, _, _ => false
    | _, _ => false

/-! ### Opening -/

/-- `rx_stat_fd`. -/
def rxStatFd (fd : Fd) : Helper (Option Stat) := ask (.statx fd)

def close (fd : Fd) : Helper Bool := ask (.close fd)

/-- The parts `strtok_r` finds. -/
def parts (path : Bytes) : List Bytes := (path.splitOn slash).filter (· ≠ [])

/-- A path with one more part. -/
def extend (path part : Bytes) : Bytes := if path = [] then part else path ++ slash :: part

/-- The loop of `open_bound`, at the directory `fd` with the path `path`. -/
def openParts (L : Libs) (fs : Fs) (proof : Json) (flags : Flags) : Fd → Bytes → List Bytes →
    Helper (Option Fd)
  | fd, _, [] => pure (some fd)
  | fd, path, part :: next => do
    let how := if next = [] then flags else readDirectory
    match ← ask (.openat fd part { how with nofollow := true }) with
    | none => do
      let _ ← close fd
      pure none
    | some child => do
      let _ ← close fd
      match ← rxStatFd child with
      | none => do
        let _ ← close child
        pure none
      | some st =>
        if st.device ≠ fs.rootStat.device ∨ !proofMatches L proof (extend path part) st then do
          let _ ← close child
          pure none
        else openParts L fs proof flags child (extend path part) next

/-- `open_bound`. -/
def openBound (L : Libs) (fs : Fs) (path : Bytes) (proof : Json) (flags : Flags) :
    Helper (Option Fd) := do
  if !rxRelative path true then pure none
  else
    match ← ask (.dup fs.root) with
    | none => pure none
    | some fd =>
      match ← rxStatFd fd with
      | none => do
        let _ ← close fd
        pure none
      | some st =>
        if !proofMatches L proof [] st then do
          let _ ← close fd
          pure none
        else openParts L fs proof flags fd [] (parts path)

/-- The last component of a path. -/
def baseName (path : Bytes) : Bytes := (path.reverse.takeWhile (· ≠ slash)).reverse

/-- What stands before the last slash. -/
def parentPath (path : Bytes) : Bytes := ((path.reverse.dropWhile (· ≠ slash)).drop 1).reverse

/-- `bound_parent`: the directory a path is in; the name in it is `baseName`. -/
def boundParent (L : Libs) (fs : Fs) (path : Bytes) (proof : Json) : Helper (Option Fd) :=
  openBound L fs (parentPath path) proof readDirectory

end Pxeos.Storage
