import Pxeos.Deploy.Feasible

/-!
# The boot code of a deployment

`rootpxe_restore_deployment_boot_code` writes the captured boot code back after the partition table
has been written: the code in the first sector and, for a disk with GRUB in its MBR, the area before
the first partition.  The area is computed from the captured starts, the first partition stands
where the resolver has put it.
-/

namespace Pxeos.Deploy

open Pxeos.Lib

/-! ### The writes -/

/-- Bytes written to the disk. -/
structure DiskWrite where
  offset : ℕ
  data : List UInt8
  deriving DecidableEq, Repr

/-- The write covers byte `i` of the disk. -/
def DiskWrite.Touches (w : DiskWrite) (i : ℕ) : Prop := w.offset ≤ i ∧ i < w.offset + w.data.length

/-- The files of the captured disk that have boot code. -/
structure BootFiles where
  /-- `dN.mbr`. -/
  mbr : Option (List UInt8)
  /-- `dN.grub.mbr`. -/
  grubMbr : Option (List UInt8)
  /-- `dN.has_grub` is there. -/
  hasGrub : Bool

/-- `dd bs=1 conv=notrunc` from a file to the disk. -/
def dd (file : List UInt8) (skip seek count : ℕ) : DiskWrite := ⟨seek, (file.drop skip).take count⟩

/-- `first_start`: the smallest captured start that is not zero. -/
def firstStart (s : Schema) : Option ℕ :=
  ((s.partitions.filter fun p => decide (0 < p.startSectors)).map (·.startSectors)).min?

/-- `expected_sectors`. -/
def expectedSectors (first : ℕ) : ℕ :=
  let sectors := if first > 2048 then 2048 else first
  if sectors = 8 ∨ sectors = 63 then 1 else sectors

/-- The last step of the restore, with a boot file; `unusedAgain` is the second check of the
disk. -/
def restoreBootFile (file : List UInt8) (logical expectedBytes : ℕ)
    (restoreEmbedding unused unusedAgain : Bool) :
    List DiskWrite × Bool :=
  if file.length = expectedBytes ∧ 512 ≤ file.length then
    if !unused then ([], false)
    else
      let code := dd file 0 0 440
      if restoreEmbedding = true ∧ logical < expectedBytes then
        if !unusedAgain then ([code], false)
        else ([code, dd file logical logical (expectedBytes - logical)], true)
      else ([code], true)
  else ([], false)

/-- `rootpxe_restore_deployment_boot_code`: what it writes, and whether it succeeds.  `unused` and
`unusedAgain` are the verdicts of `rootpxe_require_unused_target_disks`. -/
def restoreDeploymentBootCode (s : Schema) (files : BootFiles) (unused unusedAgain : Bool) :
    List DiskWrite × Bool :=
  let logical := s.logicalSectorBytes
  if logical = 0 then ([], false)
  else
    match firstStart s with
    | none => ([], false)
    | some first =>
      let expectedBytes := expectedSectors first * logical
      match s.partitionTable with
      | .gpt =>
        match files.grubMbr with
        | none => ([], true)
        | some file => restoreBootFile file logical expectedBytes false unused unusedAgain
      | .mbr =>
        match files.mbr with
        | none => ([], false)
        | some file => restoreBootFile file logical expectedBytes files.hasGrub unused unusedAgain

/-! ### The frame -/

/-- The resolver of `rootpxe_validate_deployment_layout` makes `plan` of the schema and the layout
`l`, for a disk of `target` sectors. -/
structure Resolves (s : Schema) (l : Layout) (target : ℕ) (plan : List ResolvedPart) : Prop where
  contract : originalContract s = true
  roles : ∀ p ∈ s.partitions, p.role ≠ .other
  grows : s.originalDiskBytes ≤ target * s.logicalSectorBytes
  resolved : resolveLayout s l target = .ok plan

/-- `expected_bytes`. -/
def expectedBytes (s : Schema) : ℕ := expectedSectors ((firstStart s).getD 0) * s.logicalSectorBytes

/-- The bytes of the disk that the restore may write. -/
structure BootFrame (s : Schema) (ws : List DiskWrite) : Prop where
  inside : ∀ w ∈ ws, ∀ i, w.Touches i → i < 440 ∨ (s.logicalSectorBytes ≤ i ∧ i < expectedBytes s)
  /-- The partition entries and the signature stay. -/
  entries : ∀ w ∈ ws, ∀ i, w.Touches i → ¬ (440 ≤ i ∧ i < 512)
  /-- No partition of a plan for the schema is reached. -/
  before : ∀ l target plan, Resolves s l target plan → ∀ w ∈ ws, ∀ i, w.Touches i → ∀ q ∈ plan,
    i < q.startSectors * s.logicalSectorBytes

/-! ### What is written -/

lemma expectedSectors_le (first : ℕ) :
    expectedSectors first ≤ max 1 first ∧ (0 < first → expectedSectors first ≤ first) := by
  unfold expectedSectors
  dsimp only
  split <;> split <;> omega

lemma touches_dd {file : List UInt8} {skip seek count i : ℕ}
    (h : (dd file skip seek count).Touches i) :
    seek ≤ i ∧ i < seek + count := by
  obtain ⟨h1, h2⟩ := h
  have hlen : (dd file skip seek count).data.length ≤ count := List.length_take_le _ _
  have hoff : (dd file skip seek count).offset = seek := rfl
  omega

/-- A `dd` that finds all its bytes. -/
lemma dd_touches {file : List UInt8} {skip seek count i : ℕ} (hlen : skip + count ≤ file.length)
    (h1 : seek ≤ i) (h2 : i < seek + count) : (dd file skip seek count).Touches i := by
  have hdata : (dd file skip seek count).data.length = count := by
    unfold dd
    rw [List.length_take, List.length_drop]
    omega
  refine ⟨h1, ?_⟩
  rw [hdata]
  exact h2

/-- The writes of a restore that has succeeded. -/
inductive Restored (s : Schema) (files : BootFiles) : List DiskWrite → Prop
  /-- A GPT disk without captured GRUB. -/
  | nothing (htable : s.partitionTable = .gpt) : Restored s files []
  /-- The boot code only. -/
  | code (file : List UInt8) (hlen : file.length = expectedBytes s) (h512 : 512 ≤ expectedBytes s)
      (hno : s.partitionTable = .gpt ∨ files.hasGrub = false ∨
        expectedBytes s ≤ s.logicalSectorBytes) :
      Restored s files [dd file 0 0 440]
  /-- The boot code and the area behind the first sector. -/
  | embedding (file : List UInt8) (hlen : file.length = expectedBytes s)
      (h512 : 512 ≤ expectedBytes s)
      (htable : s.partitionTable = .mbr) (hgrub : files.hasGrub = true)
        (hlt : s.logicalSectorBytes < expectedBytes s) :
      Restored s files [dd file 0 0 440,
        dd file s.logicalSectorBytes s.logicalSectorBytes (expectedBytes s - s.logicalSectorBytes)]

lemma restoreBootFile_ok {file : List UInt8} {logical bytes : ℕ} {embed unused unusedAgain : Bool}
    {ws : List DiskWrite}
    (h : restoreBootFile file logical bytes embed unused unusedAgain = (ws, true)) :
    file.length = bytes ∧ 512 ≤ bytes ∧
      ((embed = true ∧ logical < bytes ∧
        ws = [dd file 0 0 440, dd file logical logical (bytes - logical)]) ∨
        ((embed = false ∨ bytes ≤ logical) ∧ ws = [dd file 0 0 440])) := by
  unfold restoreBootFile at h
  split at h
  next hsize =>
    refine ⟨hsize.1, hsize.1 ▸ hsize.2, ?_⟩
    split at h
    · cases h
    · dsimp only at h
      split at h
      next hembed =>
        split at h
        · cases h
        · exact .inl ⟨hembed.1, hembed.2, (Prod.mk.inj h).1.symm⟩
      next hembed =>
        refine .inr ⟨?_, (Prod.mk.inj h).1.symm⟩
        by_contra hno
        rw [not_or, Bool.not_eq_false, not_le] at hno
        exact hembed hno
  next => cases h

lemma restored_of_ok {s : Schema} {files : BootFiles} {unused unusedAgain : Bool}
    {ws : List DiskWrite} (h : restoreDeploymentBootCode s files unused unusedAgain = (ws, true)) :
    0 < s.logicalSectorBytes ∧ ∃ first, firstStart s = some first ∧ Restored s files ws := by
  unfold restoreDeploymentBootCode at h
  dsimp only at h
  split at h
  next => cases h
  next hlogical =>
    refine ⟨Nat.pos_of_ne_zero hlogical, ?_⟩
    cases hfirst : firstStart s with
    | none =>
      rw [hfirst] at h
      cases h
    | some first =>
      have hbytes : expectedBytes s = expectedSectors first * s.logicalSectorBytes := by
        unfold expectedBytes
        rw [hfirst, Option.getD_some]
      rw [hfirst] at h
      dsimp only at h
      rw [← hbytes] at h
      refine ⟨first, rfl, ?_⟩
      cases htable : s.partitionTable with
      | gpt =>
        rw [htable] at h
        dsimp only at h
        cases hfile : files.grubMbr with
        | none =>
          rw [hfile] at h
          rw [← (Prod.mk.inj h).1]
          exact .nothing htable
        | some file =>
          rw [hfile] at h
          obtain ⟨hlen, h512, ⟨hembed, -⟩ | ⟨-, rfl⟩⟩ := restoreBootFile_ok h
          · cases hembed
          · exact .code file hlen h512 (.inl htable)
      | mbr =>
        rw [htable] at h
        dsimp only at h
        cases hfile : files.mbr with
        | none =>
          rw [hfile] at h
          cases h
        | some file =>
          rw [hfile] at h
          obtain ⟨hlen, h512, ⟨hembed, hlt, rfl⟩ | ⟨hno, rfl⟩⟩ := restoreBootFile_ok h
          · exact .embedding file hlen h512 htable hembed hlt
          · exact .code file hlen h512 (.inr hno)

/-! ### The starts of a plan -/

/-- **No partition of a plan starts before the smallest captured start**, the container included. -/
theorem smallestStart_le_start {s : Schema} {l : Layout} {target : ℕ} {plan : List ResolvedPart}
    (h : resolveLayout s l target = .ok plan) {q : ResolvedPart} (hq : q ∈ plan) :
    smallestStart s ≤ q.startSectors := by
  rcases (resolveLayout_cases h).2 with ⟨-, horiginal⟩ | ⟨-, ⟨run⟩⟩
  · simp only [resolveOriginal, bind_eq_ok, errorIf_eq_ok, pure_eq_ok] at horiginal
    obtain ⟨-, -, rfl⟩ := horiginal
    obtain ⟨p, hp, rfl⟩ := List.mem_map.mp hq
    exact smallestStart_le (mem_sortByNumber.mp hp)
  · obtain ⟨lr, -⟩ := run.leafRun
    rw [run.smallestStart_eq]
    have hleaf : ∀ a ∈ lr.ps, run.front + run.env.gap a.2.toSchemaPart ≤ a.2.startSectors := by
      intro a ha
      have := lr.leaf_front ha
      omega
    rcases hx : run.extended with _ | ⟨x, ebr⟩
    · have hplan := lr.plan_eq
      rw [hx] at hplan
      rw [hplan] at hq
      obtain ⟨a, ha, rfl⟩ := List.mem_map.mp hq
      have := hleaf a ha
      omega
    · obtain ⟨box, hbox⟩ := lr.derived hx
      rcases List.mem_append.mp (hbox.leaves.mem_iff.mp hq) with hq | hq
      · obtain ⟨a, ha, rfl⟩ := List.mem_map.mp hq
        have := hleaf a ha
        omega
      · -- the container stands one EBR before its first logical partition
        obtain rfl := List.mem_singleton.mp hq
        obtain ⟨a, ha, hfirst⟩ := hbox.first
        obtain ⟨ha, hk⟩ := lr.mem_logicalPairs.mp ha
        have h1 := hleaf a ha
        rw [AdjustedRun.LeafRun.gap_logical hx hk] at h1
        omega

/-- Without a partition at sector 0 the boot code ends before the first partition. -/
lemma expectedSectors_le_smallestStart {s : Schema} (hpos : ∀ p ∈ s.partitions, p.startSectors ≠ 0)
    {first : ℕ} (hfirst : firstStart s = some first) : expectedSectors first ≤ smallestStart s := by
  have hfilter : (s.partitions.filter fun p => decide (0 < p.startSectors)) = s.partitions := by
    rw [List.filter_eq_self]
    intro p hp
    exact decide_eq_true (Nat.pos_of_ne_zero (hpos p hp))
  unfold firstStart at hfirst
  rw [hfilter] at hfirst
  have hsmall : smallestStart s = first := by
    unfold smallestStart
    rw [hfirst, Option.getD_some]
  obtain ⟨p, hp, hstart⟩ := List.mem_map.mp (List.min?_eq_some_iff.mp hfirst).1
  rw [hsmall]
  refine (expectedSectors_le first).2 ?_
  rw [← hstart]
  exact Nat.pos_of_ne_zero (hpos p hp)

/-! ### A plan that keeps the table -/

/-- What the contract says of a partition. -/
lemma contract_part {s : Schema} (h : originalContract s = true) {p : SchemaPart}
    (hp : p ∈ s.partitions) :
    p.number ≠ 0 ∧ 0 < p.originalSectors ∧ (s.partitionTable = .gpt → p.startSectors ≠ 0) := by
  unfold originalContract validatePartitionLbaContract at h
  simp only [Bool.and_eq_true] at h
  have hpart := List.all_eq_true.mp h.1.1.2 (p, p.originalSectors) (List.mem_map.mpr ⟨p, hp, rfl⟩)
  rw [Bool.and_eq_true, decide_eq_true_iff] at hpart
  obtain ⟨hnumber, hgeometry⟩ := hpart
  refine ⟨Nat.pos_iff_ne_zero.mp hnumber, ?_, ?_⟩
  · unfold geometryOk at hgeometry
    cases htable : s.partitionTable with
    | gpt =>
      rw [htable] at hgeometry
      simp only [Bool.and_eq_true, decide_eq_true_iff] at hgeometry
      exact hgeometry.1.2
    | mbr =>
      rw [htable] at hgeometry
      simp only [ends32, Bool.and_eq_true, decide_eq_true_iff] at hgeometry
      exact hgeometry.1.1.2
  · intro htable
    unfold geometryOk at hgeometry
    rw [htable] at hgeometry
    simp only [Bool.and_eq_true, decide_eq_true_iff] at hgeometry
    omega

lemma contract_nodup {s : Schema} (h : originalContract s = true) :
    (s.partitions.map (·.number)).Nodup := by
  unfold originalContract validatePartitionLbaContract at h
  simp only [Bool.and_eq_true, decide_eq_true_iff] at h
  have hlen := h.1.2
  rw [List.map_map, List.length_map] at hlen
  exact nodup_of_dedup_length (by rw [List.length_map]; exact hlen)

/-- The item of a leaf that is kept. -/
lemma mkItem_keep {s : Schema} {q : SchemaPart} (hn : q.number ≠ 0)
    (hleaf : mbrExtended s = true → q.kind ≠ some .extended) :
    mkItem s (q, growEntry s 0 q) = .ok (growItem s 0 q) := by
  have hmode : (growEntry s 0 q).modeOrOriginal = .original := by
    unfold growEntry LayoutPart.modeOrOriginal
    simp only
    rw [if_neg hn, if_neg fun h => hleaf h.1 h.2]
  have hfixed : (growEntry s 0 q).fixedBytes = .absent := rfl
  unfold mkItem growItem
  simp only [hmode, hfixed]
  simp [hn, errorIf, DocField.has, ok_bind, pure, Except.pure]

/-- **Every partition can be kept**: a schema that has a plan for some layout has the captured table
itself for a plan, on every disk that is large enough. -/
lemma resolveLayout_keep {s : Schema} {l : Layout} {target : ℕ} {plan : List ResolvedPart}
    (hcontract : originalContract s = true) (h : resolveLayout s l target = .ok plan) :
    ∃ bound, ∀ t, bound ≤ t →
      resolveLayout s (growLayout s 0) t =
        .ok ((sortByNumber s.partitions).map fun p => p.placed p.startSectors
          p.originalSectors) := by
  have hnd := contract_nodup hcontract
  unfold resolveLayout at h
  cases hlp : l.partitions with
  | none => simp [hlp] at h
  | some lp =>
    rw [hlp] at h
    simp only [bind_eq_ok, errorIf_eq_ok] at h
    obtain ⟨-, -, -, -, -, -, work₀, hwork₀, extended, hext, h⟩ := h
    cases hfront : (s.partitions.map (·.startSectors)).min? with
    | none => simp [hfront] at h
    | some front =>
      -- the checks of the container do not depend on the layout
      obtain ⟨work, hwork⟩ : ∃ work, workParts s (s.partitions.map (growEntry s 0)) = .ok work := by
        cases hm : mbrExtended s with
        | false =>
          unfold workParts
          rw [hm, if_neg (by simp)]
          exact ⟨_, rfl⟩
        | true =>
          obtain ⟨x, hx, -⟩ := workParts_container hm hwork₀
          obtain ⟨hxs, hxk⟩ :=
            mem_ofKind.mp
              (show x ∈ ofKind s .extended by rw [hx.only]; exact List.mem_singleton_self x)
          refine ⟨_, workParts_of_checks hm hx ?_⟩
          have hne := (contract_part hcontract hxs).1
          unfold derivedEntry
          rw [filter_growEntry hnd _ hxs]
          simp [exactlyOne, growEntry, hne, hm, hxk, errorIf, DocField.has, bind, Except.bind]
      have hmem : ∀ q ∈ work, q ∈ s.partitions ∧ (mbrExtended s = true → q.kind ≠ some .extended) :=
        fun q hq => (mem_work hwork).mp hq
      have hitems : (joinLayout work (s.partitions.map (growEntry s 0))).mapM (mkItem s) =
          .ok (work.map (growItem s 0)) := by
        rw [joinLayout_grow hnd _ fun q hq => (hmem q hq).1]
        have h : (work.map fun q => (q, growEntry s 0 q)).mapM (mkItem s) = .ok _ :=
          mapM_eq_map (g := fun x => growItem s 0 x.1) ?_
        · rw [h, List.map_map]
          rfl
        · intro x hx
          obtain ⟨q, hq, rfl⟩ := List.mem_map.mp hx
          exact mkItem_keep (contract_part hcontract (hmem q hq).1).1 (hmem q hq).2
      have hkept : ∀ it ∈ work.map (growItem s 0), it.mode = .original := by
        intro it hit
        obtain ⟨q, hq, rfl⟩ := List.mem_map.mp hit
        exact if_neg (contract_part hcontract (hmem q hq).1).1
      obtain ⟨hperc, hdup⟩ := growLayout_passes hnd 0
      refine ⟨front + backReserve s front + ebrReservedTotal s extended + 1 +
        (s.partitions.map SchemaPart.originalEnd).sum,
        fun t ht => ?_⟩
      unfold resolveLayout growLayout
      simp only [bind_eq_ok, errorIf_eq_ok, decide_eq_false_iff_not, not_not]
      refine ⟨(), hperc, (), hdup, (), by rw [map_growEntry_number], work, hwork,
        extended, hext, ?_⟩
      rw [hfront]
      simp only [resolveItems, bind_eq_ok, errorIf_eq_ok, decide_eq_false_iff_not, not_lt, not_le]
      refine ⟨(), by omega, _, hitems, (), ?_, ?_⟩
      · rw [List.filter_eq_nil_iff.mpr fun it hit => by simp [hkept it hit]]
        exact Nat.zero_le 1
      · rw [if_pos (List.all_eq_true.mpr fun it hit => by simp [hkept it hit])]
        unfold resolveOriginal
        simp only [bind_eq_ok, errorIf_eq_ok, pure_eq_ok]
        refine ⟨(), ?_, trivial⟩
        rw [List.any_eq_false]
        intro p hp
        have hps := mem_sortByNumber.mp hp
        have hend : p.originalEnd ≤ (s.partitions.map SchemaPart.originalEnd).sum :=
          List.le_sum_of_mem (List.mem_map_of_mem hps)
        have hsize := (contract_part hcontract hps).2.1
        rw [Bool.or_eq_true, decide_eq_true_iff, decide_eq_true_iff]
        omega

/-! ### The frame of the restore -/

section Frame

variable {s : Schema} {files : BootFiles} {ws : List DiskWrite}

/-- The bytes of a restore, whatever the starts. -/
lemma Restored.inside (h : Restored s files ws) {w : DiskWrite} (hw : w ∈ ws) {i : ℕ}
    (hi : w.Touches i) :
    i < 440 ∨ (s.logicalSectorBytes ≤ i ∧ i < expectedBytes s) := by
  have hcode : ∀ file, (dd file 0 0 440).Touches i → i < 440 := fun file h => by
    have := touches_dd h
    omega
  cases h with
  | nothing => cases hw
  | code file =>
    rw [List.mem_singleton.mp hw] at hi
    exact .inl (hcode file hi)
  | embedding file hlen h512 htable hgrub hlt =>
    rcases List.mem_cons.mp hw with rfl | hw
    · exact .inl (hcode file hi)
    · rw [List.mem_singleton.mp hw] at hi
      have := touches_dd hi
      exact .inr (by omega)

/-- The restore of an embedding area on a disk with small sectors writes over the partition
entries. -/
lemma Restored.entries_iff (h : Restored s files ws) :
    (∀ w ∈ ws, ∀ i, w.Touches i → ¬ (440 ≤ i ∧ i < 512)) ↔
      512 ≤ s.logicalSectorBytes ∨ s.partitionTable = .gpt ∨ files.hasGrub = false := by
  have hcode : ∀ file, ∀ i, (dd file 0 0 440).Touches i → ¬ (440 ≤ i ∧ i < 512) :=
    fun file i h => by
    have := touches_dd h
    omega
  cases h with
  | nothing htable => exact iff_of_true (fun w hw => by cases hw) (.inr (.inl htable))
  | code file hlen h512 hno =>
    refine iff_of_true (fun w hw i hi => ?_) ?_
    · rw [List.mem_singleton.mp hw] at hi
      exact hcode file i hi
    · rcases hno with h | h | h
      · exact .inr (.inl h)
      · exact .inr (.inr h)
      · exact .inl (by omega)
  | embedding file hlen h512 htable hgrub hlt =>
    constructor
    · intro h
      left
      by_contra hsmall
      -- the first byte of the area from 440 on
      refine h _ (List.mem_cons_of_mem _ (List.mem_singleton_self _))
        (max 440 s.logicalSectorBytes) ?_ ?_
      · exact dd_touches (by omega) (by omega) (by omega)
      · omega
    · rintro (h | h | h) w hw i hi
      · rcases List.mem_cons.mp hw with rfl | hw
        · exact hcode file i hi
        · rw [List.mem_singleton.mp hw] at hi
          have := touches_dd hi
          omega
      · rw [h] at htable
        cases htable
      · rw [h] at hgrub
        cases hgrub

/-- A restore that writes at all writes the first byte of the disk. -/
lemma Restored.first_byte (h : Restored s files ws) (htable : s.partitionTable = .mbr) :
    ∃ w ∈ ws, w.Touches 0 := by
  cases h with
  | nothing hgpt =>
    rw [htable] at hgpt
    cases hgpt
  | code file hlen h512 hno =>
    exact ⟨_, List.mem_cons_self, dd_touches (by omega) le_rfl (by omega)⟩
  | embedding file hlen h512 =>
    exact ⟨_, List.mem_cons_self, dd_touches (by omega) le_rfl (by omega)⟩

lemma Restored.before (h : Restored s files ws) {first : ℕ} (hfirst : firstStart s = some first)
    (hpos : ∀ p ∈ s.partitions, p.startSectors ≠ 0) {l : Layout} {target : ℕ}
    {plan : List ResolvedPart} (hplan : Resolves s l target plan) {w : DiskWrite} (hw : w ∈ ws)
    {i : ℕ} (hi : w.Touches i) {q : ResolvedPart} (hq : q ∈ plan) :
    i < q.startSectors * s.logicalSectorBytes := by
  have hbytes : expectedBytes s ≤ q.startSectors * s.logicalSectorBytes := by
    unfold expectedBytes
    rw [hfirst, Option.getD_some]
    exact Nat.mul_le_mul_right _
      ((expectedSectors_le_smallestStart hpos hfirst).trans
        (smallestStart_le_start hplan.resolved hq))
  have hin := h.inside hw hi
  have h512 : 512 ≤ expectedBytes s := by
    cases h with
    | nothing => cases hw
    | code file hlen h512 => exact h512
    | embedding file hlen h512 => exact h512
  omega

end Frame

/-- **The frame of the boot code**: for a schema that has a plan, a successful restore stays in its
two regions, off the partition entries and before the first partition of every plan exactly if no
partition starts at sector 0 and the embedding area, where it is restored, begins behind the first
512 bytes. -/
theorem bootFrame_iff {s : Schema} {files : BootFiles} {unused unusedAgain : Bool}
    {ws : List DiskWrite} (h : restoreDeploymentBootCode s files unused unusedAgain = (ws, true))
    (hplan : ∃ l target plan, Resolves s l target plan) :
    BootFrame s ws ↔ (∀ p ∈ s.partitions, p.startSectors ≠ 0) ∧
      (512 ≤ s.logicalSectorBytes ∨ s.partitionTable = .gpt ∨ files.hasGrub = false) := by
  obtain ⟨hlogical, first, hfirst, hrestored⟩ := restored_of_ok h
  constructor
  · intro hframe
    refine ⟨fun p hp hzero => ?_, hrestored.entries_iff.mp hframe.entries⟩
    obtain ⟨l, target, plan, hres⟩ := hplan
    have htable : s.partitionTable = .mbr := by
      cases htable : s.partitionTable with
      | gpt => exact absurd hzero ((contract_part hres.contract hp).2.2 htable)
      | mbr => rfl
    -- the table itself is a plan, and the partition at sector 0 is where the boot code goes
    obtain ⟨bound, hkeep⟩ := resolveLayout_keep hres.contract hres.resolved
    obtain ⟨w, hw, hi⟩ := hrestored.first_byte htable
    have hgrows : s.originalDiskBytes ≤ (bound + s.originalDiskBytes) * s.logicalSectorBytes :=
      (Nat.le_add_left _ _).trans (Nat.le_mul_of_pos_right _ hlogical)
    have hlt :=
      hframe.before _ _ _ ⟨hres.contract, hres.roles, hgrows,
        hkeep _ (Nat.le_add_right _ _)⟩ w hw 0 hi
      (p.placed p.startSectors p.originalSectors)
        (List.mem_map.mpr ⟨p, mem_sortByNumber.mpr hp, rfl⟩)
    have hstart : (p.placed p.startSectors p.originalSectors).startSectors = 0 := hzero
    rw [hstart, Nat.zero_mul] at hlt
    exact absurd hlt (Nat.lt_irrefl 0)
  · rintro ⟨hpos, hentries⟩
    exact ⟨fun w hw i hi => hrestored.inside hw hi, hrestored.entries_iff.mpr hentries,
      fun l target plan hres w hw i hi q hq => hrestored.before hfirst hpos hres hw hi hq⟩

/-- A disk with one partition from the given sector, and its boot files with GRUB. -/
def grubSchema (start : ℕ) : Schema :=
  ⟨2, .mbr, 65536, 512, [ntfsPart 1 start 16 .primary none, ntfsPart 2 4 32 .primary none], none⟩

/-- Boot code of four sectors. -/
def grubFile : List UInt8 := List.replicate 2048 0

lemma length_grubFile : grubFile.length = 2048 := List.length_replicate

lemma grubSchema_restored (start : ℕ) (h : firstStart (grubSchema start) = some 4) :
    restoreDeploymentBootCode (grubSchema start) ⟨some grubFile, none, true⟩ true true =
      ([dd grubFile 0 0 440, dd grubFile 512 512 1536], true) := by
  have hlen := length_grubFile
  unfold restoreDeploymentBootCode
  rw [h]
  generalize grubFile = file at hlen ⊢
  show restoreBootFile file 512 2048 true true true = _
  unfold restoreBootFile
  rw [if_pos (by omega)]
  rfl

theorem bootFrame_grub :
    ∃ ws, restoreDeploymentBootCode (grubSchema 64) ⟨some grubFile, none, true⟩ true true =
      (ws, true) ∧
    BootFrame (grubSchema 64) ws := by
  have hrun := grubSchema_restored 64 (by decide)
  have hres : Resolves (grubSchema 64) (growLayout (grubSchema 64) 0) 128 _ :=
    ⟨by decide, by decide, by decide,
      (by decide +kernel : resolveLayout (grubSchema 64) (growLayout (grubSchema 64) 0) 128 =
      .ok ((grubSchema 64).partitions.map fun p => p.placed p.startSectors p.originalSectors))⟩
  exact ⟨_, hrun, (bootFrame_iff hrun ⟨_, _, _, hres⟩).mpr ⟨by decide, .inl (by decide)⟩⟩

/-- A hybrid disk has a partition at sector 0, which the boot code is written into. -/
theorem not_bootFrame_hybrid :
    ∃ ws plan, restoreDeploymentBootCode (grubSchema 0) ⟨some grubFile, none, true⟩ true true =
      (ws, true) ∧
    Resolves (grubSchema 0) (growLayout (grubSchema 0) 0) 128 plan ∧
    ¬ BootFrame (grubSchema 0) ws := by
  have hrun := grubSchema_restored 0 (by decide)
  have hres : Resolves (grubSchema 0) (growLayout (grubSchema 0) 0) 128 _ :=
    ⟨by decide, by decide, by decide,
      (by decide +kernel : resolveLayout (grubSchema 0) (growLayout (grubSchema 0) 0) 128 =
      .ok ((grubSchema 0).partitions.map fun p => p.placed p.startSectors p.originalSectors))⟩
  refine ⟨_, _, hrun, hres, fun h => ?_⟩
  have hbyte : (dd grubFile 0 0 440).Touches 0 :=
    dd_touches (by rw [length_grubFile]; omega) le_rfl (by omega)
  have hlt :=
    h.before _ _ _ hres _ List.mem_cons_self 0 hbyte ((ntfsPart 1 0 16 .primary none).placed 0 16)
      (by decide)
  exact absurd hlt (by decide)

end Pxeos.Deploy
