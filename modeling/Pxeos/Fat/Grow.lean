import Pxeos.Lib.Memory
import Mathlib.Logic.Function.Basic

/-!
# The boot sector of a grown FAT file system

After `libparted` has resized a file system, `pxeosfatgrow.c` puts the old boot sector back: only
the fields that describe the new geometry are taken from the resized one, and the sector is verified
against the old one.  The fields that are copied and the ranges that are compared are the same
bytes.
-/

namespace Pxeos.Fat

open Pxeos.Lib

/-- `FAT_BOOT_SECTOR_SIZE` bytes. -/
abbrev Sector := Vector UInt8 512

def bytesPerSector : ℕ := 11
def hiddenSectors : ℕ := 28
def totalSectors32 : ℕ := 32
def fat32FatSize : ℕ := 36
def fat32BackupBoot : ℕ := 50

/-- `get_le16`. -/
def getLe16 (s : Sector) (off : ℕ) : ℕ :=
  (s.toList.getD off 0).toNat + (s.toList.getD (off + 1) 0).toNat * 256

/-- The bytes of `put_le32`. -/
def le32 (value : UInt32) : List UInt8 :=
  [value.toUInt8, (value >>> 8).toUInt8, (value >>> 16).toUInt8, (value >>> 24).toUInt8]

/-- `put_le32`. -/
def putLe32 (s : Sector) (off : ℕ) (value : UInt32) : Sector := paste s off (le32 value)

/-- `merge_boot_sector`. -/
def mergeBootSector (original resized : Sector) (isFat32 : Bool) (hidden : UInt32) : Sector :=
  let merged := copyRange original resized bytesPerSector 13
  let merged := putLe32 merged hiddenSectors hidden
  let merged := copyRange merged resized totalSectors32 4
  if isFat32 then copyRange merged resized fat32FatSize 16 else merged

/-- `boot_identity_matches`. -/
def bootIdentityMatches (before after : Sector) (isFat32 : Bool) (hidden : UInt32) : Bool :=
  let expected := putLe32 before hiddenSectors hidden
  if sameRange expected after 0 bytesPerSector then
    if sameRange expected after 24 4 && sameRange expected after hiddenSectors 4 then
      if isFat32 then sameRange expected after 52 (512 - 52)
      else sameRange expected after 36 (512 - 36)
    else false
  else false

/-- `boot_geometry_matches`. -/
def bootGeometryMatches (main backup : Sector) : Bool :=
  sameRange main backup bytesPerSector 13 && sameRange main backup hiddenSectors 8 &&
    sameRange main backup fat32FatSize 16

/-- The device, sector by sector. -/
abbrev Device := ℕ → Sector

/-- The end of `run`, behind the resize: the merged sectors are written and verified.  The device
has `length` sectors. -/
def restoreBoot (before backupBefore : Sector) (isFat32 : Bool) (hidden : UInt32) (length : ℕ)
    (device : Device) :
    Except String Device :=
  let resized := device 0
  let newBackup := getLe16 resized fat32BackupBoot
  if isFat32 && (newBackup == 0 || getLe16 resized 14 ≤ newBackup || length ≤ newBackup) then
    .error "pxeosfatgrow: resized FAT32 backup boot sector is invalid"
  else
    let merged := mergeBootSector before resized isFat32 hidden
    let backupMerged := mergeBootSector backupBefore resized true hidden
    let device := Function.update device 0 merged
    let device := if isFat32 then Function.update device newBackup backupMerged else device
    let backupAfter := device newBackup
    if !bootIdentityMatches before (device 0) isFat32 hidden then
      .error "pxeosfatgrow: FAT boot identity verification failed"
    else if isFat32 &&
      (backupMerged != backupAfter || !bootIdentityMatches backupBefore backupAfter true hidden ||
        !bootGeometryMatches merged backupAfter) then
      .error "pxeosfatgrow: FAT32 backup boot verification failed"
    else .ok device

/-! ### The bytes of the geometry -/

/-- The bytes that describe the geometry: the first fields of the BPB, the total of sectors, and the
fields of FAT32. -/
def Geometry (isFat32 : Bool) (i : ℕ) : Prop :=
  (11 ≤ i ∧ i < 24) ∨ (32 ≤ i ∧ i < 36) ∨ (isFat32 = true ∧ 36 ≤ i ∧ i < 52)

instance (isFat32 : Bool) (i : ℕ) :
    Decidable (Geometry isFat32 i) := by unfold Geometry; infer_instance

lemma length_le32 (value : UInt32) : (le32 value).length = 4 := rfl

lemma putLe32_of_notMem (s : Sector) (value : UInt32) {i : ℕ} (h : i < 512)
    (hi : ¬ (28 ≤ i ∧ i < 32)) :
    (putLe32 s hiddenSectors value)[i] = s[i] := by
  refine getElem_paste_of_notMem s h ?_
  rw [length_le32]
  exact hi

lemma putLe32_of_mem (s : Sector) (value : UInt32) {i : ℕ} (h : i < 4) :
    (putLe32 s hiddenSectors value)[28 + i] = (le32 value).get ⟨i, by rwa [length_le32]⟩ :=
  getElem_paste_of_mem s (by rwa [length_le32])
    (show hiddenSectors + i < 512 by unfold hiddenSectors; omega)

/-- The bytes of the hidden sectors do not depend on the sector. -/
lemma putLe32_congr (s s' : Sector) (value : UInt32) {i : ℕ} (h : i < 512) (hi : 28 ≤ i ∧ i < 32) :
    (putLe32 s hiddenSectors value)[i] = (putLe32 s' hiddenSectors value)[i] := by
  obtain ⟨j, rfl⟩ := Nat.exists_eq_add_of_le hi.1
  rw [putLe32_of_mem s value (by omega), putLe32_of_mem s' value (by omega)]

/-- **The merged sector**: the geometry of the resized sector in the old one, whose hidden sectors
are set. -/
lemma getElem_mergeBootSector (original resized : Sector) (isFat32 : Bool) (hidden : UInt32) {i : ℕ}
    (h : i < 512) :
    (mergeBootSector original resized isFat32 hidden)[i] =
      if Geometry isFat32 i then resized[i] else (putLe32 original hiddenSectors hidden)[i] := by
  have hcommon :
      (copyRange (putLe32 (copyRange original resized bytesPerSector 13) hiddenSectors hidden)
        resized
      totalSectors32 4)[i] = if Geometry false i then
        resized[i] else (putLe32 original hiddenSectors hidden)[i] := by
    rw [getElem_copyRange]
    unfold totalSectors32 bytesPerSector
    by_cases htotal : 32 ≤ i ∧ i < 32 + 4
    · rw [if_pos htotal, if_pos (show Geometry false i from .inr (.inl htotal))]
    · rw [if_neg htotal]
      by_cases hhidden : 28 ≤ i ∧ i < 32
      · rw [if_neg (show ¬ Geometry false i by unfold Geometry; simp; omega)]
        exact putLe32_congr _ _ hidden h hhidden
      · rw [putLe32_of_notMem _ _ h hhidden, putLe32_of_notMem _ _ h hhidden, getElem_copyRange]
        refine if_congr ?_ rfl rfl
        unfold Geometry
        simp only [Bool.false_eq_true, false_and, or_false]
        omega
  unfold mergeBootSector
  cases isFat32 with
  | false => exact hcommon
  | true =>
    dsimp only
    rw [if_pos rfl, getElem_copyRange, hcommon]
    unfold fat32FatSize
    by_cases hfat32 : 36 ≤ i ∧ i < 36 + 16
    · rw [if_pos hfat32, if_pos (show Geometry true i from .inr (.inr ⟨rfl, hfat32⟩))]
    · rw [if_neg hfat32]
      refine if_congr ?_ rfl rfl
      unfold Geometry
      simp only [Bool.false_eq_true, false_and, or_false, true_and]
      omega

/-- **The verification** compares all other bytes. -/
lemma bootIdentityMatches_eq_true {before after : Sector} {isFat32 : Bool} {hidden : UInt32} :
    bootIdentityMatches before after isFat32 hidden = true ↔
      ∀ i (h : i < 512), ¬ Geometry isFat32 i →
        after[i] = (putLe32 before hiddenSectors hidden)[i] := by
  unfold bootIdentityMatches bytesPerSector
  dsimp only
  generalize putLe32 before hiddenSectors hidden = expected
  have h11 := sameRange_iff (a := expected) (b := after) (show 0 + 11 ≤ 512 by omega)
  have h24 := sameRange_iff (a := expected) (b := after) (show 24 + 4 ≤ 512 by omega)
  have h28 := sameRange_iff (a := expected) (b := after) (show hiddenSectors + 4 ≤ 512 by decide)
  have h52 := sameRange_iff (a := expected) (b := after) (show 52 + (512 - 52) ≤ 512 by omega)
  have h36 := sameRange_iff (a := expected) (b := after) (show 36 + (512 - 36) ≤ 512 by omega)
  unfold hiddenSectors at h28 ⊢
  constructor
  · intro h
    split at h
    next hfirst =>
      split at h
      next hmid =>
        rw [Bool.and_eq_true] at hmid
        intro i hi hgeom
        unfold Geometry at hgeom
        simp only [not_or] at hgeom
        obtain ⟨hbpb, htotal, hfat32⟩ := hgeom
        rcases Nat.lt_or_ge i 11 with hlt | hge
        · exact (h11.mp hfirst i hi (by omega) (by omega)).symm
        rcases Nat.lt_or_ge i 28 with hlt | hge
        · exact (h24.mp hmid.1 i hi (by omega) (by omega)).symm
        rcases Nat.lt_or_ge i 32 with hlt | hge
        · exact (h28.mp hmid.2 i hi hge (by omega)).symm
        split at h
        next his =>
          exact (h52.mp h i hi (by by_contra hlt; exact hfat32 ⟨his, by omega, by omega⟩)
            (by omega)).symm
        next his => exact (h36.mp h i hi (by omega) (by omega)).symm
      next => cases h
    next => cases h
  · intro h
    have hsame : ∀ i (hi : i < 512), ¬ Geometry isFat32 i → expected[i] = after[i] :=
      fun i hi hg => (h i hi hg).symm
    unfold Geometry at hsame
    rw [if_pos (h11.mpr fun i hi _ _ => hsame i hi (by omega)), h24.mpr fun i hi _ _ => hsame i hi (by omega),
      h28.mpr fun i hi _ _ => hsame i hi (by omega), if_pos (show (true && true) = true from rfl)]
    split
    next his => exact h52.mpr fun i hi _ _ => hsame i hi (by omega)
    next his => exact h36.mpr fun i hi _ _ => hsame i hi (by rw [Bool.eq_false_iff.mpr his]; simp; omega)

/-! ### The merge and the verification -/

lemma bootIdentityMatches_iff_eq {before after : Sector} {isFat32 : Bool} {hidden : UInt32} :
    bootIdentityMatches before after isFat32 hidden = true ↔
      after = mergeBootSector before after isFat32 hidden := by
  rw [bootIdentityMatches_eq_true]
  constructor
  · intro h
    refine Vector.ext fun i hi => ?_
    rw [getElem_mergeBootSector]
    split
    next => rfl
    next hgeom => exact h i hi hgeom
  · intro h i hi hgeom
    have hmerged := getElem_mergeBootSector before after isFat32 hidden hi
    rw [← h, if_neg hgeom] at hmerged
    exact hmerged

lemma bootIdentityMatches_merge (before resized : Sector) (isFat32 : Bool) (hidden : UInt32) :
    bootIdentityMatches before (mergeBootSector before resized isFat32 hidden) isFat32 hidden =
      true := by
  rw [bootIdentityMatches_eq_true]
  intro i hi hgeom
  rw [getElem_mergeBootSector, if_neg hgeom]

lemma bootGeometryMatches_merge (before backupBefore resized : Sector) (hidden : UInt32) :
    bootGeometryMatches (mergeBootSector before resized true hidden)
      (mergeBootSector backupBefore resized true hidden) = true := by
  have hsame : ∀ i (h : i < 512), (11 ≤ i ∧ i < 24) ∨ (28 ≤ i ∧ i < 52) →
      (mergeBootSector before resized true hidden)[i] =
        (mergeBootSector backupBefore resized true hidden)[i] := by
    intro i hi hrange
    rw [getElem_mergeBootSector, getElem_mergeBootSector]
    split
    next => rfl
    next hgeom =>
      refine putLe32_congr before backupBefore hidden hi ?_
      unfold Geometry at hgeom
      simp only [true_and, not_or] at hgeom
      omega
  unfold bootGeometryMatches bytesPerSector hiddenSectors fat32FatSize
  rw [Bool.and_eq_true, Bool.and_eq_true, sameRange_iff (by omega), sameRange_iff (by omega),
    sameRange_iff (by omega)]
  exact ⟨⟨fun i hi h1 h2 => hsame i hi (.inl ⟨h1, h2⟩),
    fun i hi h1 h2 => hsame i hi (.inr (by omega))⟩,
    fun i hi h1 h2 => hsame i hi (.inr (by omega))⟩

/-- `after` differs from `before` in the fields of the geometry only, and in the hidden sectors,
which are `hidden`. -/
structure SameIdentity (before after : Sector) (isFat32 : Bool) (hidden : UInt32) : Prop where
  others : ∀ i (h : i < 512), ¬ Geometry isFat32 i → ¬ (28 ≤ i ∧ i < 32) → after[i] = before[i]
  hidden : ∀ i (h : i < 4), after[28 + i] = (le32 hidden).get ⟨i, by rwa [length_le32]⟩

lemma bootIdentityMatches_iff_same {before after : Sector} {isFat32 : Bool} {hidden : UInt32} :
    bootIdentityMatches before after isFat32 hidden = true ↔
      SameIdentity before after isFat32 hidden := by
  rw [bootIdentityMatches_eq_true]
  constructor
  · intro h
    refine ⟨fun i hi hgeom hhidden => ?_, fun i hi => ?_⟩
    · rw [h i hi hgeom, putLe32_of_notMem before hidden hi hhidden]
    · have hgeom : ¬ Geometry isFat32 (28 + i) := by
        unfold Geometry
        omega
      rw [h (28 + i) (by omega) hgeom, putLe32_of_mem before hidden hi]
  · intro h i hi hgeom
    by_cases hhidden : 28 ≤ i ∧ i < 32
    · obtain ⟨j, rfl⟩ := Nat.exists_eq_add_of_le hhidden.1
      rw [putLe32_of_mem before hidden (by omega)]
      exact h.hidden j (by omega)
    · rw [putLe32_of_notMem before hidden hi hhidden]
      exact h.others i hi hgeom hhidden

/-- **The merge and the verification agree**: a sector is accepted exactly if it is the merge of the
old sector and of itself, that is, if it differs from the old one in the geometry and the hidden
sectors only; every merged sector is accepted, and the two merged sectors of FAT32 have the same
geometry. -/
theorem boot_identity_exact :
    (∀ (before after : Sector) (isFat32 : Bool) (hidden : UInt32),
      (bootIdentityMatches before after isFat32 hidden = true ↔
        after = mergeBootSector before after isFat32 hidden) ∧
        (bootIdentityMatches before after isFat32 hidden = true ↔
          SameIdentity before after isFat32 hidden)) ∧
    (∀ (before resized : Sector) (isFat32 : Bool) (hidden : UInt32),
      bootIdentityMatches before (mergeBootSector before resized isFat32 hidden) isFat32 hidden =
        true) ∧
    (∀ (before backupBefore resized : Sector) (hidden : UInt32),
      bootGeometryMatches (mergeBootSector before resized true hidden)
        (mergeBootSector backupBefore resized true hidden) =
        true) :=
  ⟨fun _ _ _ _ => ⟨bootIdentityMatches_iff_eq, bootIdentityMatches_iff_same⟩,
    bootIdentityMatches_merge,
    bootGeometryMatches_merge⟩

/-! ### The end of the run -/

/-- **No grow fails its own verification**: if the resized file system names a usable backup sector,
the merged sectors are written and the run goes on. -/
theorem restoreBoot_ok (before backupBefore : Sector) (isFat32 : Bool) (hidden : UInt32)
    {length : ℕ} {device : Device}
    (hbackup : isFat32 = true → getLe16 (device 0) fat32BackupBoot ≠ 0 ∧
      getLe16 (device 0) fat32BackupBoot < getLe16 (device 0) 14 ∧
      getLe16 (device 0) fat32BackupBoot < length) :
    ∃ device', restoreBoot before backupBefore isFat32 hidden length device = .ok device' ∧
      device' 0 = mergeBootSector before (device 0) isFat32 hidden := by
  unfold restoreBoot
  dsimp only
  cases isFat32 with
  | false =>
    refine ⟨Function.update device 0 (mergeBootSector before (device 0) false hidden), ?_,
      Function.update_self ..⟩
    simp only [Bool.false_and, Bool.false_eq_true, if_false, Function.update_self,
      bootIdentityMatches_merge, Bool.not_true]
  | true =>
    obtain ⟨hne, hreserved, hlength⟩ := hbackup rfl
    generalize getLe16 (device 0) fat32BackupBoot = newBackup at hne hreserved hlength ⊢
    have hbad :
        (true && (newBackup == 0 || decide (getLe16 (device 0) 14 ≤ newBackup) ||
          decide (length ≤ newBackup))) =
        false := by
      rw [Bool.true_and, Bool.or_eq_false_iff, Bool.or_eq_false_iff, beq_eq_false_iff_ne,
        decide_eq_false_iff_not,
        decide_eq_false_iff_not]
      exact ⟨⟨hne, by omega⟩, by omega⟩
    rw [hbad]
    refine ⟨Function.update
      (Function.update device 0 (mergeBootSector before (device 0) true hidden)) newBackup
      (mergeBootSector backupBefore (device 0) true hidden), ?_, ?_⟩
    · simp only [Bool.true_and, Bool.false_eq_true, if_false, if_true, Function.update_self,
        Function.update_of_ne hne.symm,
        bootIdentityMatches_merge, bootGeometryMatches_merge, Bool.not_true,
          bne_self_eq_false, Bool.or_self]
    · rw [Function.update_of_ne hne.symm, Function.update_self]

end Pxeos.Fat
