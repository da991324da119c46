import Pxeos.Groups.Capture
import Pxeos.Lib.Fields

/-!
# The directories of a capture

What the commands of a capture do to the directory of the image, to the one that the groups share,
to that of an executor and to the schemas beside the manifest, and when a schema in the directory
of the image marks it as complete.
-/

namespace Pxeos.Groups

open Pxeos.Lib
open Pxeos.Lvm (lvmCaptureLvFactsPrepared)

/-! ### Files -/

/-- What a file holds: the report on a physical volume, the backup of a group, the image of the
volume at a path, a schema, or what a command has left that failed. -/
inductive Content where
  | pvReport (path : Str)
  | vgBackup (name : Str)
  | volume (path : Str)
  | schema (schema : Schema)
  | torn
  deriving DecidableEq, Repr

/-- What has a name in the directory of the image before the capture; a symbolic link may lead
nowhere. -/
inductive Old where
  | file
  | directory
  | link (leads : Bool)
  deriving DecidableEq, Repr

/-- What has a name there: something old, or a file of the capture. -/
inductive Entry where
  | old (entry : Old)
  | file (content : Content)
  deriving DecidableEq, Repr

/-- `[[ -e … ]]`. -/
def Entry.present : Entry → Bool
  | .old (.link leads) => leads
  | _ => true

/-- `[[ -e … ]]`, of a name. -/
def present (entry : Option Entry) : Bool := (entry.map Entry.present).getD false

/-- Another value at one name. -/
def put {β : Type} (f : Str → β) (name : Str) (b : β) : Str → β :=
  fun other => if other = name then b else f other

lemma put_self {β : Type} (f : Str → β) (name : Str) (b : β) : put f name b name = b := if_pos rfl

lemma put_other {β : Type} {f : Str → β} {name other : Str} {b : β} (h : other ≠ name) :
    put f name b other = f other := if_neg h

/-- The directory of the image, the one that the groups share, that of the executor, the schemas
beside the manifest, the merged one, and the volume whose image has gone through the fifo. -/
structure World where
  image : Str → Option Entry
  stage : Str → Option Content
  inner : Str → Option Content
  fragments : Str → Option Schema
  combined : Option Schema
  cloned : Option Str

/-- Before the capture. -/
def World.start (before : Str → Option Old) : World :=
  ⟨fun name => (before name).map Entry.old, fun _ => none, fun _ => none, fun _ => none, none,
    none⟩

/-- What the writer of an artifact writes. -/
def sliceOf (artifact : Str) : Str := artifact ++ ".000".toList

/-- A file of the executor, with what a command leaves that fails. -/
def World.write (w : World) (name : Str) (content : Content) (ok : Bool) : World :=
  { w with inner := put w.inner name (some (if ok then content else .torn)) }

lemma write_self (w : World) (name : Str) (content : Content) :
    (w.write name content true).inner name = some content := put_self _ _ _

/-- `mv`, inside the directory of the executor. -/
def World.renameInner (w : World) (source target : Str) : World :=
  { w with inner := put (put w.inner target (w.inner source)) source none }

/-- `mv`, from the directory of the executor into the one that the groups share. -/
def World.toStage (w : World) (name : Str) : World :=
  { w with stage := put w.stage name (w.inner name), inner := put w.inner name none }

/-- `mv`, into the directory of the image. -/
def World.toImage (w : World) (name : Str) : World :=
  { w with
    image := put w.image name ((w.stage name).map Entry.file), stage := put w.stage name none }

/-- `mv`, of the schema of a group. -/
def World.toFragment (w : World) (number : Str) : World :=
  match w.inner schemaName with
  | some (.schema s) =>
    { w with
      fragments := put w.fragments number (some s), inner := put w.inner schemaName none }
  | _ => w

/-- What a command that has answered has done.  A `mv` that fails has changed nothing. -/
def World.next (w : World) : Sigma Call.Value → World
  | ⟨.makeStage, true⟩ => { w with stage := fun _ => none }
  | ⟨.merge _, schema⟩ => { w with combined := schema }
  | ⟨.publish name, true⟩ => w.toImage name
  | ⟨.commit, true⟩ =>
    { w with image := put w.image schemaName (w.combined.map fun s => .file (.schema s)) }
  | ⟨.cleanupGroups, _⟩ => { w with stage := fun _ => none, fragments := fun _ => none }
  | ⟨.cleanupStage, _⟩ => { w with stage := fun _ => none }
  | ⟨.makeInner, true⟩ => { w with inner := fun _ => none }
  | ⟨.pvdisplay path artifact, ok⟩ => w.write artifact (.pvReport path) ok
  | ⟨.vgcfgbackup name artifact, ok⟩ => w.write artifact (.vgBackup name) ok
  | ⟨.uploadFormat artifact, true⟩ => w.write (sliceOf artifact) .torn true
  | ⟨.partclone _ path, ok⟩ => { w with cloned := if ok then some path else none }
  | ⟨.waitForWriter artifact, true⟩ =>
    w.write (sliceOf artifact) ((w.cloned.map Content.volume).getD .torn) true
  | ⟨.finishPayload artifact, true⟩ => w.renameInner (sliceOf artifact) artifact
  | ⟨.writeSchema schema, status⟩ => w.write schemaName (.schema schema) (status == 0)
  | ⟨.stagePayload name, true⟩ => w.toStage name
  | ⟨.writeFragment number, true⟩ => w.toFragment number
  | ⟨.removeInner, _⟩ => { w with inner := fun _ => none }
  | _ => w

/-- The facts that a preparation which succeeds leaves. -/
def Prepares (sameText : Str → Str → Bool) (facts prepared : Str) : Prop :=
  ∃ (n : ℕ) (ready : Bool) (initial : Str → Bool) (v v' : Lvm.Vars) (τ : List (Sigma Lvm.Answer)),
    Prog.Runs (Script.status (Lvm.lvmPrepareCaptureLvFactsSingle sameText n true ready facts) v) τ
      (some (.ok 0, v')) ∧
    (Lvm.contract facts).Along Lvm.World.Answers (Lvm.World.before initial) τ ∧
    ((Lvm.contract facts).after (Lvm.World.before initial) τ).file facts = prepared

/-- The tests see the directories; a file that is moved was there; `jq` merges what it reads; a
preparation ends as one of its runs does. -/
def World.Answers (sameText : Str → Str → Bool) (w : World) : Sigma Call.Value → Prop
  | ⟨.imageHas name, there⟩ => there = present (w.image name)
  | ⟨.stageReadable name, there⟩ => there = (w.stage name).isSome
  | ⟨.stageHas name, there⟩ => there = (w.stage name).isSome
  | ⟨.fragmentReadable number, there⟩ => there = (w.fragments number).isSome
  | ⟨.fragmentHas number, there⟩ => there = (w.fragments number).isSome
  | ⟨.merge numbers, schema⟩ => ∀ s, schema = some s → ∃ schemas,
      List.Forall₂ (fun n s => w.fragments n = some s) numbers schemas ∧ s = mergeSchemas schemas
  | ⟨.prepare facts, prepared⟩ => ∀ f, prepared = some f → Prepares sameText facts f
  | ⟨.publish name, ok⟩ => ok = true → (w.stage name).isSome = true
  | ⟨.commit, ok⟩ => ok = true → w.combined.isSome = true
  | ⟨.finishPayload artifact, ok⟩ => ok = true → (w.inner (sliceOf artifact)).isSome = true
  | ⟨.stagePayload name, ok⟩ => ok = true → (w.inner name).isSome = true
  | ⟨.writeFragment _, ok⟩ => ok = true → (w.inner schemaName).isSome = true
  | _ => True

/-! ### A complete image -/

/-- The name, the identifier, the path and the size of a volume, with or without its filesystem. -/
def factFields (line : Str) : List Str := (line.splitOn '|').take 4

/-- A group of the manifest, and the same one when its facts are prepared: they were, or they have
been by a preparation that has added the filesystems. -/
structure Refined (sameText : Str → Str → Bool) (g g' : Group) : Prop where
  eq : g' = { g with lvFacts := g'.lvFacts }
  facts : g'.lvFacts = g.lvFacts ∨ Prepares sameText g.lvFacts g'.lvFacts
  same : (endedLines g'.lvFacts).map factFields = (endedLines g.lvFacts).map factFields
  prepared : lvmCaptureLvFactsPrepared g'.lvFacts = true
  sound : groupSound g' = true

/-- A volume of the schema: the one of a line of the prepared facts, with its image unless it is
for swap. -/
structure Listed (image : Str → Option Entry) (line : Str) (lv : SchemaLv) : Prop where
  name : lv.name = (line.splitOn '|').getD 0 []
  uuid : lv.uuid = (line.splitOn '|').getD 1 []
  size : lv.originalBytes = number ((line.splitOn '|').getD 3 [])
  fs : lv.fs = (line.splitOn '|').getD 4 []
  artifact : if lv.fs = swapWord then lv.artifact = []
    else lv.artifact ≠ [] ∧
      image lv.artifact = some (.file (.volume ((line.splitOn '|').getD 2 [])))

/-- A physical volume and a group of the schema are those of a group of the manifest, and their
files are there. -/
structure MarksGroup (image : Str → Option Entry) (g : Group) (pv : SchemaPv) (vg : SchemaVg) :
    Prop where
  partition : pv.partitionNumber = number g.number
  uuid : pv.uuid = g.pvUuid
  vgUuid : pv.vgUuid = g.vgUuid
  named : vg.uuid = g.vgUuid ∧ vg.name = g.vgName
  pvs : vg.pvPartitionNumbers = [number g.number]
  report : image pv.artifact = some (.file (.pvReport g.pvPath))
  backup : image pv.vgConfigArtifact = some (.file (.vgBackup g.vgName))
  lvs : List.Forall₂ (Listed image) (endedLines g.lvFacts) vg.lvs

/-- A schema lists every group once, with its files, which have different names without case. -/
structure Lists (gs : List Group) (image : Str → Option Entry) (s : Schema) : Prop where
  pvs : s.pvs.length = gs.length
  vgs : s.vgs.length = gs.length
  groups : List.Forall₂ (fun g x => MarksGroup image g x.1 x.2) gs (s.pvs.zip s.vgs)
  partitions : (s.pvs.map SchemaPv.partitionNumber).Nodup
  uuids : (s.vgs.map SchemaVg.uuid).Nodup
  files : ∀ artifact ∈ s.artifacts, ∃ content, image artifact = some (.file content)
  distinct : (s.artifacts.map Capture.lowered).Nodup

/-- **A schema marks an image as complete**: it lists the groups of the manifest, whose facts are
prepared. -/
def Marks (sameText : Str → Str → Bool) (groups : List Group) (image : Str → Option Entry)
    (s : Schema) : Prop :=
  ∃ gs, List.Forall₂ (Refined sameText) groups gs ∧ Lists gs image s

/-- What the commands need: only a name that is not there is given to a file, and the schema comes
when the image is complete. -/
def World.Met (sameText : Str → Str → Bool) (groups : List Group) (w : World) : Sigma Call.Value → Prop
  | ⟨.publish name, _⟩ => w.image schemaName = none ∧ name ≠ schemaName ∧
      present (w.image name) = false
  | ⟨.commit, _⟩ => w.image schemaName = none ∧ ∀ s, w.combined = some s → Marks sameText groups w.image s
  | _ => True

/-- The contract of a capture. -/
def contract (sameText : Str → Str → Bool) (groups : List Group) :
    Contract Call.Value World where
  rely := World.Answers sameText
  guard := World.Met sameText groups
  next := World.next

end Pxeos.Groups
