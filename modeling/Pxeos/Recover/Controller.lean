import Pxeos.Lib.Shell
import Pxeos.Lib.Interact
import Pxeos.Lib.Tree
import Mathlib.Data.List.Sort

/-!
# Publishing and recovery

`rootpxe_finalize_capture` and `rootpxe_storage_recover_once` of `storage-io.sh` as programs over
what they ask of the helper and of the server.  A path is the list of its segments.
-/

namespace Pxeos.Recover

open Pxeos.Lib

abbrev Path := List String

/-- `recoveryDisposition`. -/
inductive Disposition where
  | publish
  | rollback
  | completed
  | read
  | other
  deriving DecidableEq, Repr

/-- The paths of an execution.  The image, the stage and the lock are apart from each other. -/
structure Layout where
  img : Path
  stage : Path
  lock : Path
  img_stage : Apart img stage
  img_lock : Apart img lock

namespace Layout

variable (L : Layout)

def payload : Path := L.stage ++ ["payload"]

def previous : Path := L.stage ++ ["previous"]

def owner : Path := L.lock ++ ["owner"]

end Layout

/-- The changes of the helper. -/
inductive Remote where
  | mkdir (path : Path)
  | write (path : Path) (content : Str)
  | rename (path target : Path)
  | remove (path : Path)
  deriving DecidableEq, Repr

/-- Whether a change was made, and whether the controller learns that it was. -/
structure Outcome where
  made : Bool
  ok : Bool
  deriving DecidableEq, Repr

/-- The answer of the server with the owned paths; `isFile` is their kind. -/
structure Response where
  owned : List (Path × Bool)
  targetExists : Bool
  disposition : Disposition
  deriving DecidableEq, Repr

/-- The requests that leave the images as they are.  `check` stands for the commands that work on
local files only. -/
inductive Request where
  | read (path : Path)
  | seal (path : Path)
  | publishBegin
  | publishComplete
  | finishOriginal
  | release
  | stop
  | start
  | check
  | targetExists
  | directionIsWrite
  deriving DecidableEq, Repr

/-- What is asked. -/
inductive Call where
  | exec (change : Remote)
  | owned
  | request (r : Request)
  deriving DecidableEq, Repr

@[reducible] def Call.Answer : Call → Type
  | .exec _ => Outcome
  | .owned => Option Response
  | .request _ => Bool

abbrev Controller := Prog Call Call.Answer

def ask (c : Call) : Controller c.Answer := Prog.ask c

def request (r : Request) : Controller Bool := ask (.request r)

/-- `command || return 1`. -/
def orReturn (p q : Controller Bool) : Controller Bool := do
  if ← p then q else pure false

/-- A loop whose turns may end it. -/
def forEach {α : Type} (xs : List α) (turn : α → Controller Bool) : Controller Bool :=
  match xs with
  | [] => pure true
  | x :: xs => orReturn (turn x) (forEach xs turn)

/-- `rootpxe_storage_exec` for a change. -/
def exec (change : Remote) : Controller Bool := do
  let o ← ask (.exec change)
  pure o.ok

/-- `rootpxe_storage_owned`, with what is done with the answer. -/
def withOwned (k : Response → Controller Bool) : Controller Bool := do
  match ← ask .owned with
  | some response => k response
  | none => pure false

def Response.has (r : Response) (path : Path) : Bool := r.owned.any fun o => o.1 == path

/-- The owned paths, the deepest first. -/
def Response.deepest (r : Response) : List (Path × Bool) :=
  (r.owned.insertionSort fun a b => a.1.length ≤ b.1.length).reverse

/-! ### The end of a capture -/

/-- What is in the local tree: the payloads that have another name than their remote copy, the
metadata, and which paths are there.  The names are safe relative paths, so that none is empty. -/
structure Workspace where
  renamed : List (Path × Path)
  metadata : List (Path × Str)
  has : Path → Bool
  renamed_ne : ∀ r ∈ renamed, r.1 ≠ []

/-- `rootpxe_storage_ensure_parents`. -/
def ensureParents (path : Path) : Controller Bool :=
  forEach (path.dropLast.inits.drop 1) fun p => exec (.mkdir p)

/-- `rootpxe_storage_sync_payload_names`. -/
def syncPayloadNames (L : Layout) (w : Workspace) : Controller Bool :=
  orReturn
    (forEach w.renamed fun r =>
      orReturn (request .check) <| orReturn (ensureParents (L.payload ++ r.2)) <|
        orReturn (exec (.rename (L.payload ++ r.1) (L.payload ++ r.2))) (request .check))
    (request .check)

/-- `rootpxe_storage_sync_metadata`. -/
def syncMetadata (L : Layout) (w : Workspace) : Controller Bool :=
  orReturn (syncPayloadNames L w) <|
    orReturn
      (forEach w.metadata fun f =>
        orReturn (request .check) <| orReturn (ensureParents (L.payload ++ f.1))
          (exec (.write (L.payload ++ f.1) f.2)))
      (withOwned fun response =>
        forEach (response.deepest.filter fun o => !o.2) fun o =>
          if L.payload <+: o.1 ∧ o.1 ≠ L.payload ∧ w.has (o.1.drop L.payload.length) = false then
            exec (.remove o.1)
          else pure true)

/-- The two renames of a publication. -/
def exchange (L : Layout) (takeAway : Bool) : Controller Bool :=
  orReturn (if takeAway then exec (.rename L.img L.previous) else pure true)
    (exec (.rename L.payload L.img))

/-- `rootpxe_finalize_capture`. -/
def rootpxeFinalizeCapture (L : Layout) (w : Workspace) : Controller Bool :=
  orReturn (request .check) <| orReturn (syncMetadata L w) <|
    orReturn (request (.seal L.payload)) <| orReturn (request .check) <|
    orReturn (request .publishBegin) <| do
      let takeAway ← request .targetExists
      orReturn (exchange L takeAway) (request .publishComplete)

/-! ### Recovery -/

/-- `rootpxe_storage_cleanup_owned`. -/
def rootpxeStorageCleanupOwned (L : Layout) : Controller Bool :=
  withOwned fun response =>
    orReturn (forEach response.deepest fun o => if L.stage <+: o.1 then exec (.remove o.1)
      else pure true) <|
      orReturn (if response.has L.owner then exec (.remove L.owner) else pure true)
        (if response.has L.lock then exec (.remove L.lock) else pure true)

/-- `rootpxe_storage_change_direction`. -/
def rootpxeStorageChangeDirection : Controller Bool :=
  withOwned fun _ => orReturn (request .stop) <| orReturn (request .check) (request .start)

/-- The files of the payload are read again. -/
def rereadPayload (L : Layout) : Controller Bool :=
  withOwned fun response =>
    forEach (response.owned.filter fun o =>
        o.2 &&
          (decide (L.payload <+: o.1 ∧ o.1 ≠ L.payload) || decide (L.img <+: o.1 ∧ o.1 ≠ L.img)))
            fun o =>
      request (.read o.1)

/-- The recovery of an execution that is to be published. -/
def recoverPublish (L : Layout) : Controller Bool :=
  orReturn rootpxeStorageChangeDirection <| orReturn (rereadPayload L) <|
    orReturn rootpxeStorageChangeDirection <|
    orReturn
      (withOwned fun response =>
        if response.has L.payload then
          exchange L (response.targetExists && !response.has L.previous)
        else pure (response.has L.img))
      (orReturn (request .publishComplete) <| orReturn (request .finishOriginal) (request .check))

/-- The recovery of an execution that is to be undone. -/
def recoverRollback (L : Layout) : Controller Bool := do
  let isWrite ← request .directionIsWrite
  orReturn (if isWrite then pure true else rootpxeStorageChangeDirection) <|
    withOwned fun response =>
      orReturn (if response.has L.img then exec (.rename L.img L.payload) else pure true)
        (if response.has L.previous then exec (.rename L.previous L.img) else pure true)

/-- `rootpxe_storage_recover_once`; `capture` is whether the task is one. -/
def rootpxeStorageRecoverOnce (L : Layout) (capture : Bool) : Controller Bool :=
  withOwned fun response =>
    orReturn (request .check) <|
      orReturn
        (match response.disposition with
          | .publish => recoverPublish L
          | .rollback => recoverRollback L
          | .completed => pure true
          | .read => pure true
          | .other => pure false)
        (orReturn (if capture then rootpxeStorageCleanupOwned L else pure true) <|
          orReturn (request .stop) (request .release))

end Pxeos.Recover
