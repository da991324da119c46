import Pxeos.Lib.AwkNumber
import Pxeos.Sfdisk.Checks

/-!
# Filling a disk

`fill_disk`: the partitions that are not fixed are scaled to the new disk, every partition gets a
new start from a running cursor in the order of the old starts, and the container is fitted to its
logical partitions.  The share of a partition is a product and a quotient of doubles; sectors, their
sums and their differences are below `2 ^ 53` and exact in `awk`.  The variables `orig_size` and
`full_size` of the source are written and never used.
-/

namespace Pxeos.Sfdisk

open Pxeos.Lib

/-- How `fill_disk` fails: it returns `1`, or a division by zero ends the script. -/
inductive FillError where
  | rejected
  | fatal
  deriving DecidableEq, Repr

/-- `disk_end`: the first sector behind the usable part of the disk. -/
def diskEnd (c : Settings) (t : Table) : ℤ := c.diskSize - t.firstlba

/-! ### Fixed and variable sizes -/

/-- What the first loop collects. -/
structure Sizes where
  fixedList : List ℕ
  originalFixed : ℤ
  originalVariable : ℤ
  deriving DecidableEq, Repr

/-- Empty and swap partitions are added to `fixedList`. -/
def autoFixed (p : Part) : Bool := p.size == 0 || p.type == "82".toList

/-- One iteration of the first loop. -/
def sizesStep (minStart : ℕ) (label : Label) (s : Sizes) (p : Part) : Sizes :=
  if p.isContainer label then { s with originalFixed := s.originalFixed + minStart }
  else
    let reserved := if p.isLogical label then s.originalFixed + minStart else s.originalFixed
    let fixedList := if autoFixed p && !decide (p.number ∈ s.fixedList) then
      s.fixedList ++ [p.number] else s.fixedList
    if p.number ∈ fixedList then ⟨fixedList, reserved + p.size, s.originalVariable⟩
    else ⟨fixedList, reserved, s.originalVariable + p.size⟩

/-- The sizes before the first loop. -/
def initialSizes (c : Settings) (t : Table) : Sizes :=
  ⟨c.fixedList, c.minStart + (if t.firstlba ≠ 0 ∧ t.lastlba ≠ 0 then t.firstlba else 0), 0⟩

/-- The first loop. -/
def sizes (c : Settings) (t : Table) (tr : Traversal t.numbers) : Sizes :=
  (walk tr false .fixed t.parts).foldl (sizesStep c.minStart t.label) (initialSizes c t)

/-- The second loop sets `PROCINFO["sorted_in"]` when it meets a partition that has no `orig_size`
and is no container. -/
def sortedIn (t : Table) (fixedList : List ℕ) : Bool :=
  t.parts.any fun p => !p.isContainer t.label &&
    !(decide (p.number ∈ fixedList) && decide (0 < p.size))

/-! ### Scaling -/

/-- The size of a partition that is not fixed: its share, raised to `minsize` and rounded down. -/
def scaledSize (sectorSize : ℕ) (newVariable originalVariable : ℤ) (p : Part) : ℤ :=
  let aligned := p.size - p.size % sectorSize
  let share := asDouble (asDouble (newVariable * aligned) / originalVariable)
  let raised : ℚ := if share < p.minsize then p.minsize else share
  ⌊raised / sectorSize⌋ * sectorSize

/-- One iteration of the scaling loop, which reads and writes only its own partition. -/
def scalePart (c : Settings) (label : Label) (s : Sizes) (p : Part) : Except FillError Part :=
  if c.sectorSize = 0 then .error .fatal
  else if p.number ∈ s.fixedList then .ok p
  else if s.originalVariable = 0 then .error .fatal
  else if p.isContainer label then .ok p
  else .ok
    { p with size := scaledSize c.sectorSize (c.diskSize - s.originalFixed) s.originalVariable p }

/-! ### The order of the old starts -/

/-- `partition_starts[p_start] = pName`: of the partitions with one start the last visited stays. -/
def lastWins : List Part → List Part
  | [] => []
  | p :: rest => if rest.any (·.start == p.start) then lastWins rest else p :: lastWins rest

/-- The order of the starts. -/
abbrev StartsBefore (p q : Part) : Prop := p.start ≤ q.start

/-- `asort(partition_starts, ordered_starts, "@ind_num_asc")`. -/
def orderedStarts {ns : List ℕ} (tr : Traversal ns) (ps : List Part) : List ℕ :=
  ((lastWins (walk tr false .starts ps)).insertionSort StartsBefore).map (·.number)

/-- The order in which the placement loop visits `ordered_starts`. -/
def placeOrder {ns : List ℕ} (tr : Traversal ns) (sorted : Bool) (ordered : List ℕ) : List ℕ :=
  if sorted then ordered else (tr .place).1.filter fun n => decide (n ∈ ordered)

/-! ### Placement -/

/-- The variables of the placement loop. -/
structure Cursor where
  currStart : ℤ
  priorSize : ℤ
  priorStart : ℤ
  extName : Option ℕ
  logicalCount : ℕ
  deriving DecidableEq, Repr

/-- The cursor before the placement loop. -/
def initialCursor (c : Settings) : Cursor := ⟨c.minStart, 0, unset, none, 0⟩

/-- The container is placed `extended_margin` before the cursor of its first logical partition. -/
def placeContainer (c : Settings) (s : Cursor) (p : Part) : Cursor × Part :=
  let start := s.currStart + (c.minStart - extendedMargin)
  ({ s with currStart := start + extendedMargin, extName := some p.number, logicalCount := 0 },
    { p with start := start })

/-- A partition with data is placed at the cursor and cut at the end of the disk. -/
def placeData (c : Settings) (label : Label) (diskEnd : ℤ) (s : Cursor) (p : Part) :
    Except FillError (Cursor × Part) :=
  let curr := if p.isLogical label ∧ 0 < s.logicalCount then s.currStart + c.minStart
    else s.currStart
  let count := if p.isLogical label then s.logicalCount + 1 else s.logicalCount
  let start := if 0 < s.priorSize ∧ curr < s.priorSize + s.priorStart then
    s.priorSize + s.priorStart else curr
  let next (size : ℤ) : Cursor × Part :=
    (⟨curr + p.size, size, start, s.extName, count⟩, { p with start := start, size := size })
  if diskEnd < start + p.size then
    let cut := p.size - (start + p.size - diskEnd)
    let size := cut - cut.tmod c.sectorSize
    if size ≤ 0 then .error .rejected else .ok (next size)
  else .ok (next p.size)

/-- One iteration of the placement loop. -/
def placePart (c : Settings) (label : Label) (diskEnd : ℤ) (s : Cursor) (p : Part) :
    Except FillError (Cursor × Part) :=
  if p.size = 0 then .ok (s, p)
  else if p.isContainer label then .ok (placeContainer c s p)
  else placeData c label diskEnd s p

/-- The placement loop: the last cursor and the records it leaves, in the order of the visits. -/
def placeParts (c : Settings) (label : Label) (diskEnd : ℤ) : Cursor → List Part →
    Except FillError (Cursor × List Part)
  | s, [] => .ok (s, [])
  | s, p :: ps => do
    let (s, q) ← placePart c label diskEnd s p
    let (s, qs) ← placeParts c label diskEnd s ps
    pure (s, q :: qs)

/-- The table after the records of `qs` have been written. -/
def overwrite (qs ps : List Part) : List Part :=
  ps.map fun p => (qs.find? fun q => q.number == p.number).getD p

/-! ### The container -/

/-- One iteration of the container loop: the size the container has so far, and the end of a logical
partition. -/
def containerStep (extStart : ℤ) (size : ℤ) (p : Part) : ℤ :=
  if 4 < p.number ∧ extStart < p.stop then p.stop - extStart else size

/-- The container loop. -/
def resizeContainer {ns : List ℕ} (tr : Traversal ns) (sorted : Bool) (extName : Option ℕ)
    (ps : List Part) : List Part :=
  match extName with
  | none => ps
  | some n => ps.map fun x =>
    if x.number = n then
      { x with size := (walk tr sorted .container ps).foldl (containerStep x.start) x.size } else x

/-! ### The function -/

/-- What `fill_disk` leaves. -/
structure Filled where
  parts : List Part
  lastlba : ℤ
  deriving DecidableEq, Repr

/-- `fill_disk`. -/
def fillDisk (c : Settings) (t : Table) (tr : Traversal t.numbers) : Except FillError Filled := do
  errorIf (!validateMbrEbrLayout tr t.label t.parts) .rejected
  errorIf (!checkAllPartitions tr false .check .overlap c.diskSize t.parts) .rejected
  let s := sizes c t tr
  let sorted := sortedIn t s.fixedList
  let scaled ← t.parts.mapM (scalePart c t.label s)
  let order := placeOrder tr sorted (orderedStarts tr t.parts)
  let (cursor, placed) ← placeParts c t.label (diskEnd c t) (initialCursor c) (visit order scaled)
  let filled := resizeContainer tr sorted cursor.extName (overwrite placed scaled)
  errorIf (!checkAllPartitions tr sorted .checkAgain .overlapAgain c.diskSize filled) .rejected
  pure ⟨filled, if t.firstlba ≠ 0 then diskEnd c t else t.lastlba⟩

end Pxeos.Sfdisk
