import Pxeos.Lib.Checks
import Mathlib.Data.Rat.Floor
import Mathlib.Data.List.Nodup
import Mathlib.Data.List.Sort

/-!
# The partition tables of `procsfdisk.awk`

The records the script keeps for every partition of an `sfdisk` dump, and the order in which its
`for (x in array)` loops visit them.  A dump names its partitions by device and number, so a record
is known by its number.  Sectors are integers: starts and sizes of a dump are not negative, but the
script computes with differences.
-/

namespace Pxeos.Sfdisk

/-- Text, character by character. -/
abbrev Text := List Char

/-- The `label:` of a dump. -/
inductive Label where
  | dos
  | gpt
  deriving DecidableEq, Repr

/-- The record of a partition. -/
structure Part where
  device : Text
  number : ℕ
  start : ℤ
  size : ℤ
  minsize : ℤ
  type : Text
  uuid : Text
  name : Text
  attrs : Text
  flags : Text
  deriving DecidableEq, Repr

/-- The first sector after a partition. -/
def Part.stop (p : Part) : ℤ := p.start + p.size

/-- A parsed table.  The records are listed by number, the order of `by_partition_number`;
`firstlba` and `lastlba` are `0` when the dump does not have them. -/
structure Table where
  label : Label
  firstlba : ℕ
  lastlba : ℕ
  parts : List Part
  sorted : (parts.map (·.number)).Pairwise (· < ·)
  nonneg : ∀ p ∈ parts, 0 ≤ p.start ∧ 0 ≤ p.size ∧ 0 ≤ p.minsize

/-- The variables passed to the script. -/
structure Settings where
  diskSize : ℕ
  minStart : ℕ
  sectorSize : ℕ
  /-- The numbers of `fixedList`, a list separated by colons. -/
  fixedList : List ℕ
  deriving DecidableEq, Repr

/-! ### Types -/

/-- `is_extended_type`. -/
def isExtendedType (value : Text) : Bool :=
  let normalized := match value.map Char.toLower with
    | '0' :: 'x' :: rest => rest
    | t => t
  normalized == "5".toList || normalized == "f".toList || normalized == "85".toList

/-- The value of a run of digits. -/
def digitsValue (ds : Text) : ℕ := ds.foldl (fun n d => 10 * n + (d.toNat - '0'.toNat)) 0

/-- The exponent of a number, `e` with an optional sign and digits. -/
def exponentOf : Text → ℤ
  | e :: '-' :: t => if e.toLower = 'e' then -(digitsValue (t.takeWhile Char.isDigit) : ℤ) else 0
  | e :: '+' :: t => if e.toLower = 'e' then digitsValue (t.takeWhile Char.isDigit) else 0
  | e :: t => if e.toLower = 'e' then digitsValue (t.takeWhile Char.isDigit) else 0
  | [] => 0

/-- `int` of the unsigned number a text starts with: digits, a fraction and an exponent. -/
def intOfDigits (t : Text) : ℕ :=
  let whole := t.takeWhile Char.isDigit
  let rest := t.dropWhile Char.isDigit
  let frac := match rest with
    | '.' :: r => r.takeWhile Char.isDigit
    | _ => []
  let rest := match rest with
    | '.' :: r => r.dropWhile Char.isDigit
    | r => r
  let shift := (if whole ++ frac = [] then 0 else exponentOf rest) - frac.length
  digitsValue (whole ++ frac) * 10 ^ shift.toNat / 10 ^ (-shift).toNat

/-- `int`: the number a text starts with, truncated. -/
def int (t : Text) : ℤ :=
  match t.dropWhile (fun c => c = ' ' || c = '\t') with
  | '-' :: t => -(intOfDigits t : ℤ)
  | '+' :: t => intOfDigits t
  | t => intOfDigits t

/-- `is_extended_type(int(type))`, the test of the candidate in `check_overlap`. -/
def extendedAsInt (type : Text) : Bool := isExtendedType (toString (int type)).toList

/-- The extended container of an MBR table. -/
def Part.isContainer (label : Label) (p : Part) : Bool := label != .gpt && isExtendedType p.type

/-- A logical partition of an MBR table. -/
def Part.isLogical (label : Label) (p : Part) : Bool := label != .gpt && decide (4 < p.number)

/-! ### Traversal -/

/-- The loops over an array that run while `PROCINFO["sorted_in"]` can be unset.  The loop of
`check_overlap` runs once for each candidate. -/
inductive Loop where
  | ebrTypes
  | ebrExtents
  | check
  | overlap (candidate : ℕ)
  | fixed
  | starts
  | place
  | container
  | checkAgain
  | overlapAgain (candidate : ℕ)
  deriving DecidableEq, Repr

/-- The order in which each loop visits the partitions, by number. -/
def Traversal (ns : List ℕ) : Type := Loop → { o : List ℕ // o.Perm ns }

/-- The traversal that follows the numbers. -/
def byNumber (ns : List ℕ) : Traversal ns := fun _ => ⟨ns, List.Perm.refl ns⟩

/-- The records in the order of their numbers in `o`. -/
def visit (o : List ℕ) (ps : List Part) : List Part :=
  o.filterMap fun n => ps.find? fun p => p.number == n

/-- The records in the order a loop visits them. -/
def walk {ns : List ℕ} (tr : Traversal ns) (sorted : Bool) (l : Loop) (ps : List Part) :
    List Part :=
  if sorted then ps else visit (tr l).1 ps

lemma find?_number {ps : List Part} (h : (ps.map (·.number)).Nodup) {p : Part} (hp : p ∈ ps) :
    ps.find? (fun q => q.number == p.number) = some p := by
  induction ps with
  | nil => simp at hp
  | cons q ps ih =>
    rw [List.map_cons, List.nodup_cons] at h
    rcases List.mem_cons.mp hp with rfl | hp
    · simp
    · have hne : q.number ≠ p.number := fun he => h.1 (he ▸ List.mem_map_of_mem hp)
      rw [List.find?_cons_of_neg (by simpa using hne)]
      exact ih h.2 hp

/-- Records with the same number are the same. -/
lemma eq_of_number {ps : List Part} (h : (ps.map (·.number)).Nodup) {p q : Part} (hp : p ∈ ps)
    (hq : q ∈ ps) (hn : p.number = q.number) : p = q := by
  have h1 := find?_number h hp
  rw [hn, find?_number h hq] at h1
  exact (Option.some.inj h1).symm

lemma mem_visit {o : List ℕ} {ps : List Part} (h : (ps.map (·.number)).Nodup) {p : Part} :
    p ∈ visit o ps ↔ p ∈ ps ∧ p.number ∈ o := by
  unfold visit
  rw [List.mem_filterMap]
  constructor
  · rintro ⟨n, hn, hf⟩
    have hmem := List.mem_of_find?_eq_some hf
    have hnum : p.number = n := by simpa using List.find?_some hf
    exact ⟨hmem, hnum ▸ hn⟩
  · rintro ⟨hp, ho⟩
    exact ⟨p.number, ho, find?_number h hp⟩

lemma nodup_visit {o : List ℕ} {ps : List Part} (ho : o.Nodup) : (visit o ps).Nodup := by
  refine ho.filterMap fun a b p ha hb => ?_
  have h1 : p.number = a := by simpa using List.find?_some ha
  have h2 : p.number = b := by simpa using List.find?_some hb
  exact h1.symm.trans h2

lemma visit_numbers_sublist (o : List ℕ) (ps : List Part) :
    ((visit o ps).map (·.number)).Sublist o := by
  induction o with
  | nil => exact .slnil
  | cons n o ih =>
    unfold visit at ih ⊢
    cases h : ps.find? fun p => p.number == n with
    | none =>
      simp only [List.filterMap_cons, h]
      exact ih.cons n
    | some p =>
      have hn : p.number = n := by simpa using List.find?_some h
      simp only [List.filterMap_cons, h, List.map_cons, hn]
      exact ih.cons_cons n

/-- A loop visits every record once. -/
lemma visit_perm {o : List ℕ} {ps : List Part} (h : (ps.map (·.number)).Nodup) (ho : o.Nodup)
    (hsub : ∀ p ∈ ps, p.number ∈ o) : (visit o ps).Perm ps := by
  refine (List.perm_ext_iff_of_nodup (nodup_visit ho) (List.Nodup.of_map _ h)).mpr fun p => ?_
  rw [mem_visit h]
  exact ⟨And.left, fun hp => ⟨hp, hsub p hp⟩⟩

lemma walk_perm {ns : List ℕ} (hns : ns.Nodup) (tr : Traversal ns) (sorted : Bool) (l : Loop)
    {ps : List Part} (h : ps.map (·.number) = ns) : (walk tr sorted l ps).Perm ps := by
  unfold walk
  split
  · exact List.Perm.refl _
  · refine visit_perm (h ▸ hns) ((tr l).2.nodup_iff.mpr hns) fun p hp => (tr l).2.mem_iff.mpr ?_
    rw [← h]
    exact List.mem_map_of_mem hp

namespace Table

variable (t : Table)

/-- The numbers of the partitions. -/
def numbers : List ℕ := t.parts.map (·.number)

lemma nodup_numbers : t.numbers.Nodup := t.sorted.imp fun h => ne_of_lt h

end Table

end Pxeos.Sfdisk
