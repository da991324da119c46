import Pxeos.Restore.Preflight
import Pxeos.Lib.Text

/-!
# Images that can be restored

What must be in the directory of an image for each of its disks, and for which accepted images it is
there.
-/

namespace Pxeos.Restore

open Pxeos.Lib

/-! ### What must be there -/

def HasEntry (img : Image) (name : Str) : Prop := ∃ e ∈ img.entries, e.1 = name

/-- The disks of an image. -/
def Covered (img : Image) (type : ImageType) (n : ℕ) : Prop :=
  if img.present inventoryName then ∃ inv, img.inventory = some inv ∧ ∃ d ∈ inv.diskList,
    natOf d.number = n
  else
    match type with
    | .mps => n = 1
    | .mpa => 1 ≤ n ∧ ∀ k, 1 ≤ k → k ≤ n → img.hasDisk k = true

/-- The dump of a disk can be parsed, with its rows. -/
def Parsed (img : Image) (n : ℕ) (table : Str) (rows : List Row) : Prop :=
  ∃ text, img.regular (diskFile (decimal n) ".partitions") = some text ∧
    tableType text = some table ∧
    tableRows text = some rows

/-- The boot artifact of a disk. -/
def Boot (img : Image) (n : ℕ) (table : Str) : Prop :=
  ∃ content, img.regular (diskFile (decimal n) ".mbr") = some content ∧
    (table = "mbr".toList → content.length ≤ 1048576 ∧ 512 ∣ content.length)

/-- The payload of a partition: one file and no fragments. -/
def Payload (img : Image) (n : ℕ) (part : Str) : Prop :=
  (∃ content, img.regular (payloadName (decimal n) part) = some content) ∧
    ∀ e ∈ img.entries, ¬ payloadName (decimal n) part ++ ['.'] <+: e.1

/-- A partition of the inventory. -/
def Inventoried (img : Image) (n : ℕ) (part : Str) (p : InvPartition) : Prop :=
  img.present inventoryName = true ∧ ∃ inv, img.inventory = some inv ∧ ∃ d ∈ inv.diskList,
    natOf d.number = n ∧
    p ∈ d.parts ∧ decimal (natOf p.number) = part

/-- A partition that is neither extended nor swap, by its type in the dump and its filesystem in the
inventory. -/
def NeedsPayload (img : Image) (n : ℕ) (r : Row) : Prop :=
  rootpxePreflightExtendedType r.type = false ∧ rootpxePreflightSwapType r.type = false ∧
    ∀ p, Inventoried img n r.number p → textOf p.fs ≠ "swap".toList

/-- A disk after the last one of the image. -/
def Beyond (img : Image) (type : ImageType) (k : ℕ) : Prop := ∀ n, Covered img type n → n < k

def NoFacts (img : Image) (k : ℕ) : Prop :=
  ¬ HasEntry img (diskFile (decimal k) ".size") ∧
    ¬ HasEntry img (diskFile (decimal k) ".partitions")

/-- Everything that a restore of all disks reads is there. -/
structure Restorable (img : Image) (type : ImageType) : Prop where
  covers : Covered img type 1
  tables : ∀ n, Covered img type n → ∃ table rows, Parsed img n table rows
  boots : ∀ n, Covered img type n → ∀ table rows, Parsed img n table rows → Boot img n table
  payloads : ∀ n, Covered img type n → ∀ table rows, Parsed img n table rows → ∀ r ∈ rows,
    NeedsPayload img n r →
    Payload img n r.number
  beyond : ∀ k, Beyond img type k → NoFacts img k

/-! ### Where the check can be wrong -/

/-- An `mps` image without an inventory has its boot artifact. -/
def LegacyBoot (img : Image) (type : ImageType) : Prop :=
  img.present inventoryName = false → type = .mps → ∀ table rows, Parsed img 1 table rows →
    Boot img 1 table

/-- The type of a partition is not what the loops read: it has a bar at its end in the dump, or it
is empty in the inventory. -/
def OddType (img : Image) (n : ℕ) (r : Row) : Prop :=
  r.read ≠ r ∨ ∃ p, Inventoried img n r.number p ∧ textOf p.typeGuid = []

/-- Partitions with a type that is not read as it stands have their payload. -/
def OddPayloads (img : Image) (type : ImageType) : Prop :=
  ∀ n, Covered img type n → ∀ table rows, Parsed img n table rows → ∀ r ∈ rows, OddType img n r →
    NeedsPayload img n r →
    Payload img n r.number

/-- No disk after the last one has a number that the arithmetic of the shell takes for one of the
image. -/
def WrappedFacts (img : Image) (type : ImageType) : Prop :=
  ∀ k n, Beyond img type k → Covered img type n → wrapped k ≤ n → NoFacts img k

/-! ### Names -/

lemma decimal_injective {m n : ℕ} (h : decimal m = decimal n) : m = n := toDigits_injective h

@[simp] lemma digitsValue_decimal (n : ℕ) : digitsValue (decimal n) = n :=
  Nat.ofDigitChars_ten_toDigits

lemma isDigit_decimal (n : ℕ) : ∀ c ∈ decimal n, c.isDigit = true :=
  fun _ h => isDigit_of_mem_toDigits h

lemma factNumber_diskFile {n : ℕ} (h : 0 < n) {suffix : String}
    (hs : suffix = ".size" ∨ suffix = ".partitions") :
    factNumber (diskFile (decimal n) suffix) = some (decimal n) := by
  have hsuffix : suffix.toList.takeWhile Char.isDigit = [] ∧
      suffix.toList.dropWhile Char.isDigit = suffix.toList := by
    rcases hs with rfl | rfl <;> decide
  unfold factNumber diskFile
  simp only
  rw [List.takeWhile_append_of_pos (isDigit_decimal n),
    List.dropWhile_append_of_pos (isDigit_decimal n), hsuffix.1,
    hsuffix.2, List.append_nil]
  refine if_pos ?_
  rw [decimal, isPositive_toDigits h]
  rcases hs with rfl | rfl <;> decide

lemma diskFile_injective {m n : ℕ} {s t : String} (hm : 0 < m) (hn : 0 < n)
    (hs : s = ".size" ∨ s = ".partitions") (ht : t = ".size" ∨ t = ".partitions")
    (h : diskFile (decimal m) s = diskFile (decimal n) t) : m = n := by
  have := factNumber_diskFile hm hs
  rw [h, factNumber_diskFile hn ht] at this
  exact (decimal_injective (Option.some.inj this)).symm

lemma hasEntry_of_present {img : Image} {name : Str} (h : img.present name = true) :
    HasEntry img name := by
  unfold Image.present Image.entry at h
  cases hf : img.entries.find? (fun e => e.1 == name) with
  | none => rw [hf] at h; cases h
  | some e => exact ⟨e, List.mem_of_find?_eq_some hf, by simpa using List.find?_some hf⟩

/-- The facts that are not beyond the last disk, as the shell compares them. -/
lemma noFacts_of_unlisted {img : Image} {maximum k : ℕ}
    (h : rootpxePreflightNoUnlistedDiskFacts img maximum = true) (hk : 0 < k)
    (hlt : (maximum : ℤ) < wrapped k) : NoFacts img k := by
  have hname : ∀ suffix, suffix = ".size" ∨ suffix = ".partitions" →
      ¬ HasEntry img (diskFile (decimal k) suffix) := by
    rintro suffix hs ⟨e, he, hname⟩
    have := List.all_eq_true.mp h e he
    rw [hname, factNumber_diskFile hk hs] at this
    simp only [digitsValue_decimal, decide_eq_true_eq] at this
    omega
  exact ⟨hname _ (.inl rfl), hname _ (.inr rfl)⟩

/-! ### Disks without an inventory -/

/-- There are at most as many disks as entries. -/
lemma hasDisk_bound {img : Image} {n : ℕ} (h : ∀ k, 1 ≤ k → k ≤ n → img.hasDisk k = true) :
    n ≤ img.entries.length := by
  have hsuffix : ∀ k, ∃ s, (s = ".size" ∨ s = ".partitions") ∧
      (img.hasDisk k = true → img.present (diskFile (decimal k) s) = true) := by
    intro k
    by_cases hs : img.present (diskFile (decimal k) ".size") = true
    · exact ⟨".size", .inl rfl, fun _ => hs⟩
    · refine ⟨".partitions", .inr rfl, fun hk => ?_⟩
      unfold Image.hasDisk at hk
      rw [Bool.or_eq_true] at hk
      exact hk.resolve_left hs
  choose suffix hsuf hpresent using hsuffix
  have hnodup : ((List.range' 1 n).map fun k => diskFile (decimal k) (suffix k)).Nodup := by
    refine List.Nodup.map_on (fun a ha b hb hab => ?_) List.nodup_range'
    rw [List.mem_range'_1] at ha hb
    exact diskFile_injective (by omega) (by omega) (hsuf a) (hsuf b) hab
  have hsub : ((List.range' 1 n).map fun k => diskFile (decimal k) (suffix k)) ⊆
      img.entries.map Prod.fst := by
    intro name hname
    obtain ⟨k, hk, rfl⟩ := List.mem_map.mp hname
    rw [List.mem_range'_1] at hk
    obtain ⟨e, he, heq⟩ := hasEntry_of_present (hpresent k (h k (by omega) (by omega)))
    exact List.mem_map.mpr ⟨e, he, heq⟩
  simpa using (List.subperm_of_subset hnodup hsub).length_le

lemma mem_takeWhile_range' {p : ℕ → Bool} {len start n : ℕ} :
    n ∈ (List.range' start len).takeWhile p ↔ start ≤ n ∧ n < start + len ∧ ∀ k, start ≤ k → k ≤ n →
      p k = true := by
  induction len generalizing start with
  | zero => simp; omega
  | succ len ih =>
    rw [List.range'_succ, List.takeWhile_cons]
    split
    · rename_i hp
      rw [List.mem_cons, ih]
      constructor
      · rintro (rfl | ⟨h1, h2, h3⟩)
        · refine ⟨le_refl _, by omega, fun k hk hk' => ?_⟩
          rwa [show k = n by omega]
        · refine ⟨by omega, by omega, fun k hk hk' => ?_⟩
          rcases Nat.eq_or_lt_of_le hk with rfl | hk
          · exact hp
          · exact h3 k hk hk'
      · rintro ⟨h1, h2, h3⟩
        rcases Nat.eq_or_lt_of_le h1 with rfl | h1
        · exact .inl rfl
        · exact .inr ⟨h1, by omega, fun k hk hk' => h3 k (by omega) hk'⟩
    · rename_i hp
      refine ⟨fun h => (by cases h), ?_⟩
      rintro ⟨h1, h2, h3⟩
      exact absurd (h3 start (le_refl _) h1) hp

/-- The loops visit every disk, and no other. -/
lemma mem_legacyDisks {img : Image} {n : ℕ} :
    n ∈ img.legacyDisks ↔ 1 ≤ n ∧ ∀ k, 1 ≤ k → k ≤ n → img.hasDisk k = true := by
  unfold Image.legacyDisks
  rw [mem_takeWhile_range']
  constructor
  · rintro ⟨h1, -, h3⟩
    exact ⟨h1, h3⟩
  · rintro ⟨h1, h3⟩
    have := hasDisk_bound h3
    exact ⟨h1, by omega, h3⟩

/-! ### One disk -/

lemma parsed_of_rows {img : Image} {n : ℕ} {rows : List Row}
    (h : rootpxePreflightTableRows img (diskFile (decimal n) ".partitions") = some rows) :
    ∃ table, Parsed img n table rows := by
  unfold rootpxePreflightTableRows rootpxePreflightTableType at h
  simp only [Option.bind_eq_bind, Option.bind_eq_some_iff] at h
  obtain ⟨table, ⟨text, htext, htable⟩, text', htext', hrows⟩ := h
  obtain rfl := Option.some.inj (htext.symm.trans htext')
  exact ⟨table, text, htext, htable, hrows⟩

lemma Parsed.unique {img : Image} {n : ℕ} {table table' : Str} {rows rows' : List Row}
    (h : Parsed img n table rows) (h' : Parsed img n table' rows') :
    table = table' ∧ rows = rows' := by
  obtain ⟨text, htext, htable, hrows⟩ := h
  obtain ⟨text', htext', htable', hrows'⟩ := h'
  obtain rfl := Option.some.inj (htext.symm.trans htext')
  exact ⟨Option.some.inj (htable.symm.trans htable'), Option.some.inj (hrows.symm.trans hrows')⟩

lemma payload_of_fragments {img : Image} {n : ℕ} {part : Str}
    (h : rootpxeValidateArtifactFragments img (payloadName (decimal n) part) = true) :
    Payload img n part := by
  unfold rootpxeValidateArtifactFragments rootpxePreflightRegularFile at h
  rw [Bool.and_eq_true, Bool.not_eq_true', List.any_eq_false] at h
  refine ⟨Option.isSome_iff_exists.mp h.1, fun e he hp => h.2 e he ?_⟩
  exact List.isPrefixOf_iff_prefix.mpr hp

lemma rawBoot_ok {img : Image} {file : Str} {k : ℕ}
    (h : rootpxePreflightRawBootSectorCount img file = some k) :
    ∃ content, img.regular file = some content ∧ content.length ≤ 1048576 ∧
      512 ∣ content.length := by
  unfold rootpxePreflightRawBootSectorCount at h
  simp only [Option.bind_eq_bind, Option.bind_eq_some_iff, require_eq_some, Bool.and_eq_true,
    decide_eq_true_eq,
    beq_iff_eq] at h
  obtain ⟨content, hcontent, -, -, -, ⟨hle, hmod⟩, -⟩ := h
  exact ⟨content, hcontent, hle, Nat.dvd_of_mod_eq_zero hmod⟩

lemma boot_of_artifact {img : Image} {n : ℕ} {table : Str} {rows : List Row}
    (h : rootpxePreflightFixedBootArtifact img (decimal n) = true) (hp : Parsed img n table rows) :
    Boot img n table := by
  obtain ⟨text, htext, htable, -⟩ := hp
  have htype : rootpxePreflightTableType img (diskFile (decimal n) ".partitions") = some table := by
    simp [rootpxePreflightTableType, htext, htable]
  unfold rootpxePreflightFixedBootArtifact rootpxePreflightRegularFile at h
  rw [htype] at h
  simp only [Bool.and_eq_true] at h
  obtain ⟨content, hcontent⟩ := Option.isSome_iff_exists.mp h.1
  refine ⟨content, hcontent, fun hmbr => ?_⟩
  have hcount := h.2
  rw [if_pos hmbr] at hcount
  obtain ⟨k, hk⟩ := Option.isSome_iff_exists.mp hcount
  obtain ⟨content', hcontent', hbytes⟩ := rawBoot_ok hk
  obtain rfl := Option.some.inj (hcontent.symm.trans hcontent')
  exact hbytes

/-- What the loop over the rows of a table found. -/
lemma payload_of_table {img : Image} {n : ℕ} {rows : List Row}
    (h : tablePayloads img (decimal n) rows = true) {r : Row} (hr : r ∈ rows) (hread : r.read = r)
    (hneeds : NeedsPayload img n r) : Payload img n r.number := by
  have hturn := List.all_eq_true.mp h r hr
  rw [hread, Bool.or_eq_true] at hturn
  rcases hturn with hskip | hfrag
  · unfold skips at hskip
    rw [hneeds.1, hneeds.2.1] at hskip
    simp at hskip
  · exact payload_of_fragments hfrag

/-! ### The inventory -/

lemma tsvField_eq_of_notMem {s : Str} (h : '\\' ∉ tsvField s) : tsvField s = s := by
  induction s with
  | nil => rfl
  | cons c s ih =>
    unfold tsvField at h ih ⊢
    rw [List.flatMap_cons] at h ⊢
    rw [List.mem_append, not_or] at h
    rw [ih h.2]
    have hc := h.1
    split at hc
    · simp at hc
    · split at hc
      · simp at hc
      · split at hc
        · simp at hc
        · split at hc
          · simp at hc
          · simp_all

lemma tsvField_eq_swap {s : Str} (h : tsvField s = "swap".toList) : s = "swap".toList := by
  have : tsvField s = s := tsvField_eq_of_notMem (by rw [h]; decide)
  rw [← this, h]

lemma tsvField_ne_nil {s : Str} (h : s ≠ []) : tsvField s ≠ [] := by
  intro h0
  have : tsvField s = s := tsvField_eq_of_notMem (by rw [h0]; simp)
  exact h (this ▸ h0)

lemma extendedType_congr {s t : Str}
    (h : rootpxePreflightNormalizedType s = rootpxePreflightNormalizedType t) :
    rootpxePreflightExtendedType s = rootpxePreflightExtendedType t := by
  unfold rootpxePreflightExtendedType
  rw [h]

lemma swapType_congr {s t : Str}
    (h : rootpxePreflightNormalizedType s = rootpxePreflightNormalizedType t) :
    rootpxePreflightSwapType s = rootpxePreflightSwapType t := by
  unfold rootpxePreflightSwapType
  rw [h]

/-- A type that is not empty is read as it stands. -/
lemma InvPartition.read_eq {p : InvPartition} (h : textOf p.typeGuid ≠ []) :
    p.read = (tsvField (textOf p.typeGuid), tsvField (textOf p.fs)) := by
  unfold InvPartition.read
  have hne := tsvField_ne_nil h
  by_cases hfs : tsvField (textOf p.fs) = []
  · simp [hne, hfs]
  · simp [hne, hfs]

/-- The dump of a disk has the rows of the inventory. -/
lemma inventoryTable_ok {img : Image} {inv : Inventory} {disk : Str}
    (h : rootpxePreflightValidateInventoryTable img inv disk = true) :
    ∃ d rows, inv.disk? disk = some d ∧
      rootpxePreflightTableRows img (diskFile disk ".partitions") = some rows ∧
      ((d.parts.map InvPartition.row).map Row.normalized).Perm
        (rows.map fun r => r.read.normalized) := by
  unfold rootpxePreflightValidateInventoryTable at h
  split at h
  · rename_i d table hd htable
    simp only [Bool.and_eq_true] at h
    obtain ⟨-, h⟩ := h
    split at h
    · cases h
    · rename_i rows hrows
      refine ⟨d, rows, hd, hrows, ?_⟩
      rw [beq_iff_eq] at h
      have hfirst : ((sortRows (d.parts.map InvPartition.row)).map Row.normalized).Perm
          ((d.parts.map InvPartition.row).map Row.normalized) := (List.mergeSort_perm _ _).map _
      refine hfirst.symm.trans ((List.mergeSort_perm _ Row.before).symm.trans ?_)
      show (sortRows _).Perm _
      rw [h]
      exact List.mergeSort_perm _ _
  · cases h

/-- What the loop over the partitions of the inventory found. -/
lemma payload_of_inventory {img : Image} {inv : Inventory} {n : ℕ} {rows : List Row}
    (hinv : img.inventory = some inv) (hpresent : img.present inventoryName = true)
    (htable : rootpxePreflightValidateInventoryTable img inv (decimal n) = true)
    (hrows : rootpxePreflightTableRows img (diskFile (decimal n) ".partitions") = some rows)
    (hpay : rootpxePreflightValidateFixedInventoryPayloads img inv = true) {r : Row} (hr : r ∈ rows)
    (hodd : ¬ OddType img n r) (hneeds : NeedsPayload img n r) : Payload img n r.number := by
  obtain ⟨d, rows', hd, hrows', hperm⟩ := inventoryTable_ok htable
  obtain rfl := Option.some.inj (hrows.symm.trans hrows')
  have hread : r.read = r := by
    by_contra hne
    exact hodd (.inl hne)
  have hdmem : d ∈ inv.diskList := List.mem_of_find?_eq_some hd
  have hdn : decimal (natOf d.number) = decimal n := by simpa using List.find?_some hd
  -- the partition of the inventory that stands for the row
  obtain ⟨q, hq, hqr⟩ := List.mem_map.mp (hperm.mem_iff.mpr (List.mem_map.mpr ⟨r, hr, rfl⟩))
  obtain ⟨p, hp, rfl⟩ := List.mem_map.mp hq
  rw [hread] at hqr
  have hnumber : decimal (natOf p.number) = r.number := congrArg Row.number hqr
  have htype : rootpxePreflightNormalizedType (tsvField (textOf p.typeGuid)) =
      rootpxePreflightNormalizedType r.type :=
    congrArg Row.type hqr
  have hlisted : Inventoried img n r.number p :=
    ⟨hpresent, inv, hinv, d, hdmem, decimal_injective hdn, hp, hnumber⟩
  have hguid : textOf p.typeGuid ≠ [] := fun h0 => hodd (.inr ⟨p, hlisted, h0⟩)
  unfold rootpxePreflightValidateFixedInventoryPayloads at hpay
  rw [Bool.and_eq_true, List.all_eq_true] at hpay
  have hmem : (decimal n, p) ∈ inv.partitions :=
    List.mem_flatMap.mpr ⟨d, hdmem, List.mem_map.mpr ⟨p, hp, by rw [hdn]⟩⟩
  have hturn := hpay.2 _ hmem
  unfold inventoryPayload rootpxePreflightValidateFixedSelectedPayload at hturn
  simp only [Bool.and_eq_true, Bool.or_eq_true] at hturn
  rcases hturn.2 with hskip | hfrag
  · rw [InvPartition.read_eq hguid] at hskip
    unfold skips at hskip
    rw [extendedType_congr htype, swapType_congr htype, hneeds.1, hneeds.2.1] at hskip
    simp only [Bool.or_false, beq_iff_eq] at hskip
    exact absurd (tsvField_eq_swap hskip) (hneeds.2.2 p hlisted)
  · rw [hnumber] at hfrag
    exact payload_of_fragments hfrag

/-! ### The three paths -/

/-- What the check of one disk gives, but for its boot artifact. -/
def DiskChecked (img : Image) (n : ℕ) : Prop :=
  ∃ table rows, Parsed img n table rows ∧ ∀ r ∈ rows, ¬ OddType img n r → NeedsPayload img n r →
    Payload img n r.number

/-- What an accepted image has. -/
structure Accepted (img : Image) (type : ImageType) : Prop where
  covers : Covered img type 1
  disks : ∀ n, Covered img type n → DiskChecked img n
  boots : (img.present inventoryName = false ∧ type = .mps) ∨
    ∀ n, Covered img type n → rootpxePreflightFixedBootArtifact img (decimal n) = true
  last : ∃ maximum, Covered img type maximum ∧
    rootpxePreflightNoUnlistedDiskFacts img maximum = true

lemma diskChecked_of_table {img : Image} {n : ℕ} {rows : List Row}
    (hrows : rootpxePreflightTableRows img (diskFile (decimal n) ".partitions") = some rows)
    (hpay : tablePayloads img (decimal n) rows = true) : DiskChecked img n := by
  obtain ⟨table, hp⟩ := parsed_of_rows hrows
  refine ⟨table, rows, hp, fun r hr hodd hneeds => payload_of_table hpay hr ?_ hneeds⟩
  by_contra hne
  exact hodd (.inl hne)

lemma accepted_mps {img : Image} (hinv : img.present inventoryName = false)
    (h : rootpxePreflightValidateFixedLegacyPayloads img .mps = true) : Accepted img .mps := by
  have hcov : ∀ n, Covered img .mps n ↔ n = 1 := fun n => by simp [Covered, hinv]
  simp only [rootpxePreflightValidateFixedLegacyPayloads] at h
  split at h
  · cases h
  · rename_i rows hrows
    rw [Bool.and_eq_true] at h
    refine ⟨(hcov 1).mpr rfl, fun n hn => ?_, .inl ⟨hinv, rfl⟩, 1, (hcov 1).mpr rfl, h.2⟩
    rw [(hcov n).mp hn]
    exact diskChecked_of_table hrows h.1

/-- The disks of an `mpa` image are numbered from one on. -/
lemma legacyDisks_eq (img : Image) : img.legacyDisks = List.range' 1 img.legacyDisks.length := by
  have hp : img.legacyDisks <+: List.range' 1 (img.entries.length + 1) := List.takeWhile_prefix _
  have heq := List.prefix_iff_eq_take.mp hp
  have hle : img.legacyDisks.length ≤ img.entries.length + 1 := by simpa using hp.length_le
  rwa [List.take_range'_of_length_ge hle] at heq

lemma facts_length {img : Image} {facts : List (Str × Str)}
    (hinv : img.present inventoryName = false) (h : rootpxeFixedRestoreDiskFacts img = some facts) :
    facts.length = img.legacyDisks.length ∧
    rootpxePreflightNoUnlistedDiskFacts img facts.length = true := by
  unfold rootpxeFixedRestoreDiskFacts at h
  simp only [Option.bind_eq_bind, Option.bind_eq_some_iff, hinv, Bool.false_eq_true, if_false,
    require_eq_some,
    Bool.and_eq_true] at h
  obtain ⟨-, -, facts', hmap, -, ⟨-, hlast⟩, hpure⟩ := h
  obtain rfl := Option.some.inj hpure
  exact ⟨(mapM_some hmap).length_eq.symm, hlast⟩

lemma accepted_mpa {img : Image} (hinv : img.present inventoryName = false)
    (h : rootpxePreflightValidateFixedLegacyPayloads img .mpa = true) : Accepted img .mpa := by
  have hcov : ∀ n, Covered img .mpa n ↔ n ∈ img.legacyDisks :=
    fun n => by simp [Covered, hinv, mem_legacyDisks]
  unfold rootpxePreflightValidateFixedLegacyPayloads at h
  simp only [Bool.and_eq_true, List.all_eq_true, bne_iff_ne] at h
  obtain ⟨⟨hfacts, hall⟩, hne⟩ := h
  obtain ⟨facts, hfacts⟩ := Option.isSome_iff_exists.mp hfacts
  obtain ⟨hlen, hlast⟩ := facts_length hinv hfacts
  have hpos : 0 < img.legacyDisks.length := List.length_pos_of_ne_nil hne
  have hmem : ∀ n, 1 ≤ n → n ≤ img.legacyDisks.length → Covered img .mpa n := by
    intro n h1 hn
    rw [hcov, legacyDisks_eq, List.mem_range'_1]
    omega
  have hdisk : ∀ n, Covered img .mpa n → ∃ rows,
      rootpxePreflightTableRows img (diskFile (decimal n) ".partitions") = some rows ∧
        tablePayloads img (decimal n) rows = true ∧
          rootpxePreflightFixedBootArtifact img (decimal n) = true := by
    intro n hn
    have hturn := hall n ((hcov n).mp hn)
    unfold legacyDisk at hturn
    rw [Bool.and_eq_true] at hturn
    obtain ⟨-, hturn⟩ := hturn
    split at hturn
    · cases hturn
    · rename_i rows hrows
      rw [Bool.and_eq_true] at hturn
      exact ⟨rows, hrows, hturn.1, hturn.2⟩
  refine ⟨hmem 1 (le_refl 1) hpos, fun n hn => ?_, .inr fun n hn => ?_, facts.length,
    hmem _ ?_ ?_, hlast⟩
  · obtain ⟨rows, hrows, hpay, -⟩ := hdisk n hn
    exact diskChecked_of_table hrows hpay
  · obtain ⟨-, -, -, hboot⟩ := hdisk n hn
    exact hboot
  · omega
  · omega

lemma inventoryRows_ok {img : Image} {inv : Inventory} {rows : List (Str × Str)}
    (hinv : img.inventory = some inv) (h : rootpxePreflightInventoryRows img = some rows) :
    inv.valid = true ∧
      rows = (inv.diskList.mergeSort InvDisk.before).map fun d =>
        (decimal (natOf d.number), decimal (natOf d.originalDiskBytes)) := by
  unfold rootpxePreflightInventoryRows at h
  simp only [Option.bind_eq_bind, Option.bind_eq_some_iff, require_eq_some] at h
  obtain ⟨-, -, inv', hinv', -, hvalid, hpure⟩ := h
  obtain rfl := Option.some.inj (hinv.symm.trans hinv')
  exact ⟨hvalid, (Option.some.inj hpure).symm⟩

lemma one_of_valid {inv : Inventory} (h : inv.valid = true) :
    ∃ d ∈ inv.diskList, natOf d.number = 1 := by
  unfold Inventory.valid at h
  simp only [Bool.and_eq_true, bne_iff_ne, beq_iff_eq] at h
  obtain ⟨⟨⟨⟨⟨-, hne⟩, -⟩, -⟩, hsort⟩, -⟩ := h
  have hpos : 0 < inv.diskList.length := List.length_pos_of_ne_nil hne
  have hmem : 1 ∈ (inv.diskList.map fun d => natOf d.number).mergeSort := by
    rw [hsort, List.mem_range'_1]
    omega
  exact List.mem_map.mp ((List.mergeSort_perm _ _).mem_iff.mp hmem)

/-- What the facts of an image with an inventory say. -/
lemma facts_inventory {img : Image} {inv : Inventory} {facts : List (Str × Str)}
    (hinv : img.inventory = some inv) (hpresent : img.present inventoryName = true)
    (h : rootpxeFixedRestoreDiskFacts img = some facts) :
    inv.valid = true ∧ (∀ d ∈ inv.diskList, ∃ f ∈ facts, f.1 = decimal (natOf d.number)) ∧
      (∀ f ∈ facts, ∃ d ∈ inv.diskList, f.1 = decimal (natOf d.number) ∧
        rootpxePreflightValidateInventoryTable img inv f.1 = true) ∧
      rootpxePreflightNoUnlistedDiskFacts img
        ((facts.getLast?.map fun r => digitsValue r.1).getD 0) = true := by
  unfold rootpxeFixedRestoreDiskFacts at h
  simp only [Option.bind_eq_bind, Option.bind_eq_some_iff, hpresent, if_true, require_eq_some,
    List.all_eq_true,
    Bool.and_eq_true] at h
  obtain ⟨-, -, -, -, rows, hrows, inv', hinv', -, htables, -, hlast, hpure⟩ := h
  obtain rfl := Option.some.inj (hinv.symm.trans hinv')
  obtain rfl := Option.some.inj hpure
  obtain ⟨hvalid, rfl⟩ := inventoryRows_ok hinv hrows
  refine ⟨hvalid, fun d hd => ?_, fun f hf => ?_, hlast⟩
  · exact ⟨_, List.mem_map.mpr ⟨d, List.mem_mergeSort.mpr hd, rfl⟩, rfl⟩
  · have htable := (htables f hf).2
    obtain ⟨d, hd, rfl⟩ := List.mem_map.mp hf
    exact ⟨d, List.mem_mergeSort.mp hd, rfl, htable⟩

lemma accepted_inventory {img : Image} {type : ImageType} {inv : Inventory}
    {facts : List (Str × Str)} (hinv : img.inventory = some inv)
    (hpresent : img.present inventoryName = true)
    (hfacts : rootpxeFixedRestoreDiskFacts img = some facts)
    (hpay : rootpxePreflightValidateFixedInventoryPayloads img inv = true)
    (hboot : bootArtifacts img facts = true) :
    Accepted img type := by
  have hcov : ∀ n, Covered img type n ↔ ∃ d ∈ inv.diskList, natOf d.number = n := fun n => by
    simp [Covered, hpresent, hinv]
  obtain ⟨hvalid, hdisks, htables, hlast⟩ := facts_inventory hinv hpresent hfacts
  obtain ⟨d₁, hd₁, h₁⟩ := one_of_valid hvalid
  refine ⟨(hcov 1).mpr ⟨d₁, hd₁, h₁⟩, fun n hn => ?_, .inr fun n hn => ?_, ?_⟩
  · obtain ⟨d, hd, rfl⟩ := (hcov n).mp hn
    obtain ⟨f, hf, hfd⟩ := hdisks d hd
    obtain ⟨-, -, -, htable⟩ := htables f hf
    rw [hfd] at htable
    obtain ⟨-, rows, -, hrows, -⟩ := inventoryTable_ok htable
    obtain ⟨table, hp⟩ := parsed_of_rows hrows
    exact ⟨table, rows, hp, fun r hr hodd hneeds =>
      payload_of_inventory hinv hpresent htable hrows hpay hr hodd hneeds⟩
  · obtain ⟨d, hd, rfl⟩ := (hcov n).mp hn
    obtain ⟨f, hf, hfd⟩ := hdisks d hd
    rw [← hfd]
    exact List.all_eq_true.mp hboot f hf
  · obtain ⟨f₁, hf₁, -⟩ := hdisks d₁ hd₁
    obtain ⟨f, hf⟩ :=
      Option.isSome_iff_exists.mp (List.getLast?_isSome.mpr (List.ne_nil_of_mem hf₁))
    obtain ⟨d, hd, hfd, -⟩ := htables f (List.mem_of_getLast? hf)
    rw [hf, Option.map_some, Option.getD_some, hfd, digitsValue_decimal] at hlast
    exact ⟨_, (hcov _).mpr ⟨d, hd, rfl⟩, hlast⟩

/-- What the check of all disks of an image gives. -/
lemma accepted_of_ok {img : Image} {type : ImageType}
    (h : rootpxeValidateRestoreArtifacts img type "all".toList = true) :
    Accepted img type := by
  unfold rootpxeValidateRestoreArtifacts at h
  rw [if_pos rfl, Bool.and_eq_true] at h
  obtain ⟨-, h⟩ := h
  by_cases hpresent : img.present inventoryName = true
  · rw [if_pos hpresent] at h
    split at h
    · rename_i facts inv hfacts hinv
      rw [Bool.and_eq_true] at h
      exact accepted_inventory hinv hpresent hfacts h.1 h.2
    · cases h
  · rw [if_neg hpresent] at h
    rw [Bool.not_eq_true] at hpresent
    cases type with
    | mps => exact accepted_mps hpresent h
    | mpa => exact accepted_mpa hpresent h

/-! ### Accepted images -/

lemma noFacts_beyond {img : Image} {type : ImageType} (h : Accepted img type)
    (hw : WrappedFacts img type) {k : ℕ} (hk : Beyond img type k) : NoFacts img k := by
  obtain ⟨maximum, hcov, hlast⟩ := h.last
  by_cases hle : wrapped k ≤ maximum
  · exact hw k maximum hk hcov hle
  · exact noFacts_of_unlisted hlast (Nat.zero_lt_of_lt (hk maximum hcov)) (not_le.mp hle)

/-- **Accepted images**: everything is there if and only if the boot artifact of an `mps` image
without an inventory is, the payloads of the partitions whose type is not read as it stands are, and
no disk has a number that is taken for another one. -/
theorem restore_all_sound {img : Image} {type : ImageType}
    (h : rootpxeValidateRestoreArtifacts img type "all".toList = true) :
    Restorable img type ↔ LegacyBoot img type ∧ OddPayloads img type ∧ WrappedFacts img type := by
  have ha := accepted_of_ok h
  constructor
  · intro hr
    refine ⟨fun hinv htype table rows hp => ?_, fun n hn table rows hp r hrow _ hneeds => ?_,
      fun k n hk _ _ => hr.beyond k hk⟩
    · exact hr.boots 1 ha.covers table rows hp
    · exact hr.payloads n hn table rows hp r hrow hneeds
  · rintro ⟨hboot, hodd, hwrapped⟩
    refine
      { covers := ha.covers
        tables := fun n hn => ?_
        boots := fun n hn table rows hp => ?_
        payloads := fun n hn table rows hp r hr hneeds => ?_
        beyond := fun k hk => noFacts_beyond ha hwrapped hk }
    · obtain ⟨table, rows, hp, -⟩ := ha.disks n hn
      exact ⟨table, rows, hp⟩
    · rcases ha.boots with ⟨hinv, htype⟩ | hall
      · have h1 : n = 1 := by
          subst htype
          simpa [Covered, hinv] using hn
        rw [h1] at hp ⊢
        exact hboot hinv htype table rows hp
      · exact boot_of_artifact (hall n hn) hp
    · obtain ⟨table', rows', hp', hpay⟩ := ha.disks n hn
      obtain ⟨rfl, rfl⟩ := hp.unique hp'
      by_cases ho : OddType img n r
      · exact hodd n hn table rows hp r hr ho hneeds
      · exact hpay r hr ho hneeds

/-! ### An image with one disk -/

def sampleDump : Str :=
  unlines ["label: dos".toList, "unit: sectors".toList, [],
    "/dev/sda1 : start=        2048, size=     1048576, type=83, bootable".toList,
    "/dev/sda2 : start=     1050624, size=     2097152, type=82".toList]

/-- An image of one disk with two partitions, the second one swap. -/
def sampleImage (more : List (Str × Entry)) : Image where
  isDir := true
  entries :=
    [("d1.partitions".toList, .file true sampleDump),
      ("d1p1.img".toList, .file true "data".toList)] ++ more
  jq := true
  inventory := none

def sampleMbr : Str × Entry := ("d1.mbr".toList, .file true (List.replicate 512 'x'))

theorem restore_all_sound_mbr :
    rootpxeValidateRestoreArtifacts (sampleImage [sampleMbr]) .mps "all".toList = true ∧
    (Restorable (sampleImage [sampleMbr]) .mps ↔ LegacyBoot (sampleImage [sampleMbr]) .mps ∧
      OddPayloads (sampleImage [sampleMbr]) .mps ∧
      WrappedFacts (sampleImage [sampleMbr]) .mps) := by
  have h : rootpxeValidateRestoreArtifacts (sampleImage [sampleMbr]) .mps "all".toList =
      true := by decide +kernel
  exact ⟨h, restore_all_sound h⟩

/-- Without its boot artifact the image is accepted all the same. -/
theorem restore_without_mbr :
    rootpxeValidateRestoreArtifacts (sampleImage []) .mps "all".toList = true ∧
    ¬ Restorable (sampleImage []) .mps := by
  refine ⟨by decide +kernel, fun hr => ?_⟩
  obtain ⟨table, rows, hp⟩ := hr.tables 1 hr.covers
  obtain ⟨content, hcontent, -⟩ := hr.boots 1 hr.covers table rows hp
  have hnone : (sampleImage []).regular (diskFile (decimal 1) ".mbr") = none := by decide +kernel
  rw [hnone] at hcontent
  cases hcontent

end Pxeos.Restore
