import Pxeos.Lib.Align
import Pxeos.Deploy.LbaContract

/-!
# The deployment-layout resolver

The `jq` program of `rootpxe_validate_deployment_layout`: it joins the schema and the layout by
partition number, checks the mode of every entry, and allocates the leaves (every partition but the
extended container) with one cursor.  The container's extent is derived from its logical partitions
afterwards.
-/

namespace Pxeos.Deploy

open Pxeos.Lib

/-! ### Which partitions may grow -/

/-- `verified_lvm_pv`. -/
def verifiedLvmPv (p : SchemaPart) (lvm : Option LvmSchema) : Bool :=
  match lvm with
  | none => false
  | some lvm =>
    p.fs == "LVM2_member" && lvm.version == 1 && lvm.captureMode == "per_lv" &&
      lvm.resizePolicy == "grow_only" &&
    decide (0 < lvm.pvs.length) && decide (lvm.vgs.length = lvm.pvs.length) &&
    decide ((lvm.pvs.map (·.partitionNumber)).dedup.length = lvm.pvs.length) &&
    decide ((lvm.pvs.map (·.uuid)).dedup.length = lvm.pvs.length) &&
    decide ((lvm.vgs.map (·.uuid)).dedup.length = lvm.vgs.length) &&
    decide ((lvm.vgs.map (·.name)).dedup.length = lvm.vgs.length) &&
    decide (((lvm.vgs.flatMap (·.lvs)).map (·.uuid)).dedup.length =
      (lvm.vgs.flatMap (·.lvs)).length) &&
    (match lvm.pvs.filter (·.partitionNumber == p.number) with
     | [pv] =>
       decide ((lvm.vgs.filter fun vg => vg.uuid == pv.vgUuid &&
         vg.pvPartitionNumbers == [p.number]).length = 1)
     | _ => false)

/-- `gsub("[[:space:]]"; "") | length > 0`. -/
def notBlank (text : String) : Bool :=
  text.toList.any fun c => !(c ∈ [' ', '\t', '\n', '\x0b', '\x0c', '\r'])

/-- `physical_growth_supported`. -/
def physicalGrowthSupported (p : SchemaPart) (logical : ℕ) (lvm : Option LvmSchema) : Bool :=
  if p.kind ≠ some .extended ∧ p.fs = "swap" ∧ p.role = .swap ∧ p.artifact.getD "" = "" ∧
      (p.uuid.map notBlank).getD false then true
  else if p.fs = "swap" ∨ p.role = .swap then false
  else if !p.resizable then false
  else if p.role = .lvmPv then verifiedLvmPv p lvm
  else if p.fs ∈ ["ext2", "ext3", "ext4", "xfs", "ntfs", "f2fs", "btrfs"] then true
  else if p.fs ∈ ["vfat", "fat"] ∧ p.fsVariant = some "FAT32" ∧ logical = 512 then true
  else false

/-! ### The partitions to allocate -/

/-- `sort_by(.number)`. -/
def sortByNumber (parts : List SchemaPart) : List SchemaPart :=
  parts.insertionSort (fun a b => a.number ≤ b.number)

/-- The order of `sort_by([.startSectors, .number])`. -/
def StartsBefore (a b : SchemaPart) : Prop :=
  a.startSectors < b.startSectors ∨ (a.startSectors = b.startSectors ∧ a.number ≤ b.number)

instance : DecidableRel StartsBefore := fun a b => by unfold StartsBefore; infer_instance

/-- `$mbrExtended`. -/
def mbrExtended (s : Schema) : Bool :=
  s.version == 2 && s.partitionTable == .mbr && s.partitions.any (·.kind == some .extended)

/-- The partitions of a kind, in the order of their numbers. -/
def ofKind (s : Schema) (k : Kind) : List SchemaPart :=
  (sortByNumber s.partitions).filter (·.kind == some k)

/-- `[$sp[] | select(.kind == "extended")][0]`, when the schema has a container. -/
def extendedOf (s : Schema) : Option SchemaPart :=
  if mbrExtended s then (ofKind s .extended).head? else none

/-- `[.startSectors, .startSectors + .originalSectors)` of two partitions meet. -/
def sourceOverlap (a b : SchemaPart) : Bool :=
  decide (a.startSectors < b.originalEnd) && decide (b.startSectors < a.originalEnd)

/-- The layout entry of the container: one, in mode `derived`, with no size of its own. -/
def derivedEntry (lp : List LayoutPart) (extended : SchemaPart) : Except String Unit := do
  let o ← exactlyOne (lp.filter (·.number == extended.number)) "extended container must be derived"
  errorIf (o.mode != .value .derived || o.fixedBytes.has) "extended container must be derived"

/-- `$worksp`: with a container, the checks of the container and the leaves in the order of the
disk; else every partition in the order of its number. -/
def workParts (s : Schema) (lp : List LayoutPart) : Except String (List SchemaPart) :=
  if mbrExtended s then do
    let extended ← exactlyOne (ofKind s .extended) "invalid extended container"
    derivedEntry lp extended
    let logicals := ofKind s .logical
    errorIf (decide (logicals.length = 0) ||
      logicals.any (fun p => p.parentNumber != some extended.number))
      "invalid logical parent"
    errorIf ((ofKind s .primary).any fun p => sourceOverlap p extended)
      "primary overlaps extended container"
    pure (((sortByNumber s.partitions).filter (·.kind != some .extended)).insertionSort StartsBefore)
  else pure (sortByNumber s.partitions)

/-! ### The items -/

/-- A leaf with its layout entry and mode. -/
structure Item where
  p : SchemaPart
  o : LayoutPart
  mode : Mode
  deriving DecidableEq, Repr

/-- The checks of one leaf against its layout entry. -/
def mkItem (s : Schema) (x : SchemaPart × LayoutPart) : Except String Item := do
  let (p, o) := x
  let mode := o.modeOrOriginal
  let logical := s.logicalSectorBytes
  errorIf (!(mode ∈ [.original, .fixed, .remaining])) "unknown mode"
  errorIf (mode == .fixed && !(o.fixedBytes.get?.map fun b => decide (0 < b)).getD false)
    "invalid fixed mode"
  errorIf ((mode == .original || mode == .remaining) && o.fixedBytes.has) "unexpected mode field"
  errorIf (p.role == .lvmPv && !(mode ∈ [.original, .fixed, .remaining])) "invalid lvm pv mode"
  errorIf (mode != .original && !physicalGrowthSupported p logical s.lvm)
    "partition growth unsupported"
  errorIf (mode == .fixed && decide (o.fixedBytesOrZero < p.originalSectors * logical))
    "original size violated"
  pure ⟨p, o, mode⟩

/-- `[$worksp[] as $p | ($lp[] | select(.number == $p.number)) as $o | ...]`. -/
def joinLayout (work : List SchemaPart) (lp : List LayoutPart) : List (SchemaPart × LayoutPart) :=
  work.flatMap fun p => (lp.filter (·.number == p.number)).map fun o => (p, o)

/-- `$alignment`, 256 KiB in sectors. -/
def alignment (logical : ℕ) : ℕ := if 262144 / logical < 1 then 1 else 262144 / logical

/-- The entry of `$pre` for an item: its size, `0` for the remaining one. -/
def preSize (logical : ℕ) (it : Item) : ℕ :=
  match it.mode with
  | .original => it.p.originalSectors
  | .fixed => alignUp ⌈it.o.fixedBytesOrZero / logical⌉₊ (alignment logical)
  | _ => 0

/-! ### Allocation -/

/-- What the allocation of the leaves is given. -/
structure AllocEnv where
  logical : ℕ
  front : ℕ
  /-- `$extended` when the schema has a container, with its `ebrReservedSectors`. -/
  extended : Option (SchemaPart × ℕ)
  items : List Item

namespace AllocEnv

variable (e : AllocEnv)

/-- The size of an item when the remaining one gets `r` sectors. -/
def sizeOf (r : ℕ) (it : Item) : ℕ := if it.mode = .remaining then r else preSize e.logical it

/-- `$logicalItems`. -/
def logicalItems : List Item :=
  match e.extended with
  | some _ =>
    (e.items.filter (·.p.kind == some .logical)).insertionSort (fun a b => StartsBefore a.p b.p)
  | none => []

/-- `$lastLogicalNumber`. -/
def lastLogicalNumber : Option ℕ := e.logicalItems.getLast?.map (·.p.number)

/-- `$logicalFootprint` of the container. -/
def logicalFootprint (ebr r : ℕ) : ℕ :=
  e.logicalItems.length * ebr + ((e.items.filter (·.p.kind == some .logical)).map (e.sizeOf r)).sum

/-- `$extendedTailSectors`: what the container's minimum needs beyond the footprint. -/
def extendedTailSectors (r : ℕ) : ℕ :=
  match e.extended with
  | some (x, ebr) =>
    if x.minSectors > e.logicalFootprint ebr r then x.minSectors - e.logicalFootprint ebr r else 0
  | none => 0

/-- The accumulator of the allocation loop. -/
structure Cursor where
  cursor : ℕ
  out : List ResolvedPart

/-- Where a leaf starts: aligned, and behind its EBR when it is a logical partition of the
container. -/
def leafStart (cursor : ℕ) (p : SchemaPart) : ℕ :=
  let c := alignUp cursor (alignment e.logical)
  match e.extended with
  | some (_, ebr) => if p.kind = some .logical then alignUp (c + ebr) (alignment e.logical) else c
  | none => c

/-- The space kept behind a leaf: the container's tail after its physically last logical
partition. -/
def tailAfter (r : ℕ) (p : SchemaPart) : ℕ :=
  match e.extended with
  | some _ => if p.kind = some .logical ∧ some p.number = e.lastLogicalNumber then
    e.extendedTailSectors r else 0
  | none => 0

/-- One turn of the loop. -/
def allocStep (r : ℕ) (st : Cursor) (it : Item) : Except String Cursor := do
  errorIf (decide (e.sizeOf r it < it.p.originalSectors)) "original size violated"
  let start := e.leafStart st.cursor it.p
  pure ⟨start + e.sizeOf r it + e.tailAfter r it.p, st.out ++ [it.p.placed start (e.sizeOf r it)]⟩

/-- `resolve_leaves`. -/
def resolveLeaves (r : ℕ) : Except String Cursor := e.items.foldlM (e.allocStep r) ⟨e.front, []⟩

/-- `remaining_that_fits`, in units of the alignment; the interval shrinks at every call, so `high -
low` calls are enough. -/
def remainingThatFits (limit : ℤ) : ℕ → ℕ → ℕ → Except String ℕ
  | 0, low, _ => pure low
  | fuel + 1, low, high =>
    if low ≥ high then pure low
    else do
      let middle := (low + high + 1) / 2
      let st ← e.resolveLeaves (middle * alignment e.logical)
      if (st.cursor : ℤ) ≤ limit then remainingThatFits limit fuel middle high
      else remainingThatFits limit fuel low (middle - 1)

/-- The container around the resolved leaves. -/
def containerOf (x : SchemaPart) (ebr : ℕ) (leaves : List ResolvedPart) (limit : ℤ) :
    Except String (List ResolvedPart) :=
  let logicals := leaves.filter (·.kind == some .logical)
  match (logicals.map (·.startSectors)).min?, (logicals.map (·.stop)).max? with
  | some first, some logicalEnd =>
    let start := first - ebr
    let stop := if logicalEnd > start + x.minSectors then logicalEnd else start + x.minSectors
    if (stop : ℤ) > limit then .error "layout exceeds target"
    else .ok
      ((leaves ++ [x.placed start (stop - start)]).insertionSort (fun a b => a.number ≤ b.number))
  | _, _ => .error "layout exceeds target"

end AllocEnv

/-- The size the remaining item gets, `$resolvedRemaining`. -/
def resolvedRemaining (e : AllocEnv) (available limit : ℤ) (used : ℕ) : Except String ℕ :=
  match (e.items.filter (·.mode == .remaining)).head? with
  | some it => do
    let a := alignment e.logical
    let remaining := alignDown (available - used).toNat a
    let minimumRemaining := alignUp it.p.originalSectors a
    if remaining < minimumRemaining then pure remaining
    else do
      let low := minimumRemaining / a
      let high := remaining / a
      let units ← e.remainingThatFits limit (high - low) low high
      pure (units * a)
  | none => pure 0

/-- The branch for a layout with an adjusted partition. -/
def resolveAdjusted (e : AllocEnv) (available limit : ℤ) : Except String (List ResolvedPart) := do
  let used := (e.items.map (preSize e.logical)).sum
  errorIf (decide ((used : ℤ) > available)) "target too small"
  let r ← resolvedRemaining e available limit used
  let st ← e.resolveLeaves r
  errorIf (decide ((st.cursor : ℤ) > limit)) "layout exceeds target"
  match e.extended with
  | some (x, ebr) => AllocEnv.containerOf x ebr st.out limit
  | none => pure st.out

/-- The branch for a layout that keeps every partition: the captured table, verbatim. -/
def resolveOriginal (s : Schema) (target : ℕ) : Except String (List ResolvedPart) := do
  errorIf ((sortByNumber s.partitions).any fun p => decide (p.originalSectors ≤ 0) ||
    decide (p.originalEnd > target))
    "source geometry exceeds target"
  pure ((sortByNumber s.partitions).map fun p => p.placed p.startSectors p.originalSectors)

/-- `$extended` with its EBR reservation; a container without the field stops the program. -/
def extendedWithEbr (s : Schema) : Except String (Option (SchemaPart × ℕ)) :=
  match extendedOf s with
  | none => pure none
  | some x =>
    match x.ebrReservedSectors with
    | some ebr => pure (some (x, ebr))
    | none => .error "null cannot be multiplied"

/-- `$back`: the sectors kept at the end of the disk. -/
def backReserve (s : Schema) (front : ℕ) : ℕ := if s.partitionTable = .gpt then front else 0

/-- `$ebrReservedTotal`. -/
def ebrReservedTotal (s : Schema) : Option (SchemaPart × ℕ) → ℕ
  | some (x, ebr) => ((ofKind s .logical).filter (·.parentNumber == some x.number)).length * ebr
  | none => 0

/-- The program from `$available` on. -/
def resolveItems (s : Schema) (target : ℕ) (pairs : List (SchemaPart × LayoutPart)) (extended : Option (SchemaPart × ℕ))
    (front : ℕ) : Except String (List ResolvedPart) := do
  let back := backReserve s front
  let available : ℤ := target - front - back - ebrReservedTotal s extended
  errorIf (decide (available ≤ 0)) "target too small"
  let items ← pairs.mapM (mkItem s)
  errorIf (decide ((items.filter (·.mode == .remaining)).length > 1)) "multiple remaining"
  if items.all (·.mode == .original) then resolveOriginal s target
  else resolveAdjusted ⟨s.logicalSectorBytes, front, extended, items⟩ available ((target : ℤ) - back)

/-- **The `jq` program**: the plan of a schema and a layout for a target of `target` sectors. -/
def resolveLayout (s : Schema) (l : Layout) (target : ℕ) : Except String (List ResolvedPart) :=
  match l.partitions with
  | none => .error "layout partitions missing"
  | some lp => do
    errorIf (lp.any (·.percentage.has)) "percentage mode is retired"
    errorIf (decide ((lp.map (·.number)).dedup.length ≠ lp.length)) "duplicate layout number"
    errorIf
      (decide ((s.partitions.map (·.number)).insertionSort (· ≤ ·) ≠
        (lp.map (·.number)).insertionSort (· ≤ ·)))
      "layout identity mismatch"
    let work ← workParts s lp
    let extended ← extendedWithEbr s
    match (s.partitions.map (·.startSectors)).min? with
    | none => .error "null cannot be subtracted"
    | some front => resolveItems s target (joinLayout work lp) extended front

end Pxeos.Deploy
