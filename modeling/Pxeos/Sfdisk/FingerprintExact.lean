import Pxeos.Sfdisk.FingerprintRead
import Mathlib.Data.List.Perm.Lattice

/-!
# What a fingerprint tells

A fingerprint tells two layouts apart unless a partition has a name in which `attrs=` stands behind
a comma: then what is printed for its attributes is taken from the name, and a change of its
attributes is not noticed.
-/

namespace Pxeos.Sfdisk

open Pxeos.Lib

/-! ### Sorting -/

instance : Std.Total fun s t : Text => sortsBefore s t = true where
  total s := by
    induction s with
    | nil => exact fun t => .inl rfl
    | cons a s ih =>
      intro t
      cases t with
      | nil => exact .inr rfl
      | cons b t =>
        rcases lt_trichotomy a.toNat b.toNat with h | h | h
        · simp [sortsBefore, h]
        · obtain rfl := Char.toNat_inj.mp h
          simpa [sortsBefore] using ih t
        · simp [sortsBefore, h]

instance : IsTrans Text fun s t => sortsBefore s t = true where
  trans s := by
    induction s with
    | nil => exact fun _ _ _ _ => rfl
    | cons a s ih =>
      intro t u h1 h2
      cases t with
      | nil => cases h1
      | cons b t =>
        cases u with
        | nil => cases h2
        | cons c u =>
          simp only [sortsBefore, Bool.or_eq_true, decide_eq_true_eq, Bool.and_eq_true,
            beq_iff_eq] at h1 h2 ⊢
          rcases h1 with h1 | ⟨rfl, h1⟩
          · rcases h2 with h2 | ⟨rfl, h2⟩
            · exact .inl (h1.trans h2)
            · exact .inl h1
          · rcases h2 with h2 | ⟨rfl, h2⟩
            · exact .inl h2
            · exact .inr ⟨rfl, ih t u h1 h2⟩

instance : Std.Antisymm fun s t : Text => sortsBefore s t = true where
  antisymm s := by
    induction s with
    | nil =>
      intro t _ h
      cases t with
      | nil => rfl
      | cons b t => cases h
    | cons a s ih =>
      intro t h1 h2
      cases t with
      | nil => cases h1
      | cons b t =>
        simp only [sortsBefore, Bool.or_eq_true, decide_eq_true_eq, Bool.and_eq_true,
          beq_iff_eq] at h1 h2
        rcases h1 with h1 | ⟨rfl, h1⟩
        · rcases h2 with h2 | ⟨rfl, -⟩ <;> omega
        · rcases h2 with h2 | ⟨-, h2⟩
          · omega
          · rw [ih t h1 h2]

lemma sorted_eq_iff {s t : List Text} :
    s.insertionSort (sortsBefore · ·) = t.insertionSort (sortsBefore · ·) ↔ s.Perm t := by
  constructor
  · intro h
    exact ((List.perm_insertionSort _ s).symm.trans (List.Perm.of_eq h)).trans
      (List.perm_insertionSort _ t)
  · intro h
    refine List.Perm.eq_of_pairwise' (List.pairwise_insertionSort _ s)
      (List.pairwise_insertionSort _ t) ?_
    exact ((List.perm_insertionSort _ s).trans h).trans (List.perm_insertionSort _ t).symm

/-! ### What is printed for a dump -/

namespace LayoutDump

variable (d : LayoutDump)

/-- What is printed for the partitions. -/
def printed : List Text := d.entries.filterMap (Entry.printed d.label d.stem)

/-- What is printed for every partition is printed. -/
def allPrinted : Bool := d.entries.all fun e => (e.printed d.label d.stem).isSome

lemma numbers_pos : ∀ e ∈ d.entries, 0 < e.number := fun e he => (d.valid e he).2.1

lemma once_key {x : HeaderItem} (hx : x ∈ d.items) {key : Text} (hkey : x.rule.key = key) :
    ((d.items.map (·.rule.key)).reverse.count key != 1) = false := by
  rw [List.count_reverse, ← hkey,
    List.count_eq_one_of_mem d.items_keys (List.mem_map.mpr ⟨x, hx, rfl⟩)]
  rfl

lemma mem_items {x : HeaderItem} :
    x ∈ d.items ↔ x = ⟨labelRule, d.label.text⟩ ∨ x = ⟨labelIdRule, d.labelId⟩ ∨
    x = ⟨deviceRule, d.device⟩ ∨ x = ⟨unitRule, "sectors".toList⟩ ∨
    (0 < d.firstLba ∧ x = ⟨firstLbaRule, decimal d.firstLba⟩) ∨
    (0 < d.lastLba ∧ x = ⟨lastLbaRule, decimal d.lastLba⟩) ∨
    x = ⟨sectorSizeRule, decimal d.sectorSize⟩ := by
  simp only [items, innerItems, List.mem_cons, List.mem_append, List.not_mem_nil, or_false,
    mem_numberItem, or_assoc,
    List.cons_append, List.nil_append]

/-- What has been read at the end. -/
lemma readLines_eq : ∃ seen, readLines d.lines =
    { d.start with
      seen := seen
      parts := d.printed.length
      bad := d.entries.any fun e => (e.printed d.label d.stem).isNone
      out := d.items.map HeaderItem.shown ++ d.printed } := by
  obtain ⟨seen, hread⟩ := foldl_lines d.stem_ok d.numbers_pos d.start d.nodup fun _ _ =>
    List.not_mem_nil
  refine ⟨seen, ?_⟩
  unfold readLines lines
  rw [List.foldl_append, d.foldl_headers, hread]
  simp [start, printed]

/-- **What is printed for a dump**, and when. -/
theorem fingerprint_eq : sfdiskLayoutFingerprint d.lines =
    ⟨(d.items.map HeaderItem.shown ++ d.printed).insertionSort (sortsBefore · ·),
      d.allPrinted⟩ := by
  obtain ⟨seen, hlines⟩ := d.readLines_eq
  have hcounts : ∀ key ∈ ["label", "device", "unit", "sector-size"],
      ((d.items.map (·.rule.key)).reverse.count key.toList != 1) = false := by
    intro key hkey
    simp only [List.mem_cons, List.not_mem_nil, or_false] at hkey
    rcases hkey with rfl | rfl | rfl | rfl
    · exact d.once_key (d.mem_items.mpr (.inl rfl)) rfl
    · exact d.once_key (d.mem_items.mpr (.inr (.inr (.inl rfl)))) rfl
    · exact d.once_key (d.mem_items.mpr (.inr (.inr (.inr (.inl rfl))))) rfl
    · exact d.once_key (d.mem_items.mpr (.inr (.inr (.inr (.inr (.inr (.inr rfl))))))) rfl
  have hgpt : d.label.text = "gpt".toList → ∀ key ∈ ["label-id", "first-lba", "last-lba"],
      ((d.items.map (·.rule.key)).reverse.count key.toList != 1) = false := by
    intro hl key hkey
    have hlabel : d.label = .gpt := by
      cases h : d.label with
      | gpt => rfl
      | dos =>
        rw [h] at hl
        exact absurd hl (by decide)
    obtain ⟨h1, h2⟩ := d.lba_ok hlabel
    simp only [List.mem_cons, List.not_mem_nil, or_false] at hkey
    rcases hkey with rfl | rfl | rfl
    · exact d.once_key (d.mem_items.mpr (.inr (.inl rfl))) rfl
    · exact d.once_key (d.mem_items.mpr (.inr (.inr (.inr (.inr (.inl ⟨h1, rfl⟩)))))) rfl
    · exact d.once_key (d.mem_items.mpr (.inr (.inr (.inr (.inr (.inr (.inl ⟨h2, rfl⟩))))))) rfl
  have hrefused : (readLines d.lines).refused = !d.allPrinted := by
    rw [hlines]
    unfold Reading.refused start allPrinted printed
    have h1 : (["label", "device", "unit", "sector-size"].any fun key =>
        (d.items.map (·.rule.key)).reverse.count key.toList != 1) = false := List.any_eq_false.mpr
          fun k hk => by rw [hcounts k hk]; exact Bool.false_ne_true
    have h2 : (d.label.text == "gpt".toList && ["label-id", "first-lba", "last-lba"].any fun key =>
        (d.items.map (·.rule.key)).reverse.count key.toList != 1) = false := by
      by_cases hl : d.label.text = "gpt".toList
      · rw [List.any_eq_false.mpr fun k hk => by rw [hgpt hl k hk]; exact Bool.false_ne_true,
          Bool.and_false]
      · rw [beq_false_of_ne hl, Bool.false_and]
    simp only [h1, h2, Bool.or_false]
    cases hall : d.entries.all fun e => (e.printed d.label d.stem).isSome with
    | false =>
      obtain ⟨e, he, hn⟩ := List.all_eq_false.mp hall
      have hbad : (d.entries.any fun e => (e.printed d.label d.stem).isNone) = true :=
        List.any_eq_true.mpr ⟨e, he, by simpa using hn⟩
      rw [hbad, Bool.true_or, Bool.not_false]
    | true =>
      rw [List.all_eq_true] at hall
      have hbad : (d.entries.any fun e => (e.printed d.label d.stem).isNone) = false := by
        refine List.any_eq_false.mpr fun e he => ?_
        have := hall e he
        simpa [Option.isSome_iff_ne_none] using this
      have hne : d.entries.filterMap (Entry.printed d.label d.stem) ≠ [] := by
        obtain ⟨e, he⟩ := List.exists_mem_of_ne_nil _ d.nonempty
        obtain ⟨t, ht⟩ := Option.isSome_iff_exists.mp (hall e he)
        exact List.ne_nil_of_mem (List.mem_filterMap.mpr ⟨e, he, ht⟩)
      have hlen : ((d.entries.filterMap (Entry.printed d.label d.stem)).length == 0) = false :=
        beq_false_of_ne fun h => hne (List.eq_nil_of_length_eq_zero h)
      rw [hbad, hlen, Bool.false_or, Bool.not_true]
  have hout : (readLines d.lines).out = d.items.map HeaderItem.shown ++ d.printed := by rw [hlines]
  unfold sfdiskLayoutFingerprint
  simp only [hrefused, Bool.not_not, hout]

end LayoutDump

/-! ### Records -/

/-- The line of a partition, cut at its tabs up to the name. -/
def recordText (number start size type uuid name rest : Text) : Text :=
  "partition".toList ++
    '\t' ::
      (tenDigits number ++ '\t' :: ("start=".toList ++ start ++ '\t' :: ("size=".toList ++ size ++
    '\t' ::
      ("type=".toList ++ type ++
        '\t' :: ("uuid=".toList ++ uuid ++ '\t' :: ("name=".toList ++ (name ++ '\t' :: rest)))))))

lemma partitionLine_eq (number start size type uuid name attrs bootable : Text) :
    partitionLine number start size type uuid name attrs bootable =
      recordText number start size (tolower type) (tolower uuid) name
        ("attrs=".toList ++ (attrs ++ '\t' :: ("bootable=".toList ++ tolower bootable))) := by
  have h1 : "partition\t".toList = "partition".toList ++ ['\t'] := rfl
  have h2 : "\tstart=".toList = '\t' :: "start=".toList := rfl
  have h3 : "\tsize=".toList = '\t' :: "size=".toList := rfl
  have h4 : "\ttype=".toList = '\t' :: "type=".toList := rfl
  have h5 : "\tuuid=".toList = '\t' :: "uuid=".toList := rfl
  have h6 : "\tname=".toList = '\t' :: "name=".toList := rfl
  have h7 : "\tattrs=".toList = '\t' :: "attrs=".toList := rfl
  have h8 : "\tbootable=".toList = '\t' :: "bootable=".toList := rfl
  unfold partitionLine recordText
  rw [h1, h2, h3, h4, h5, h6, h7, h8]
  simp only [List.append_assoc, List.cons_append, List.nil_append]

/-- A text that is printed between quotes, or is absent, is found again. -/
lemma shownText_inj {o o' : Option Text} (ho : ∀ t ∈ o, '"' ∉ t) (ho' : ∀ t ∈ o', '"' ∉ t)
    {rest rest' : Text} (h : shownText o ++ rest = shownText o' ++ rest') :
    o = o' ∧ rest = rest' := by
  have hhead : ∀ (t r r' : Text), shownText (some t) ++ r ≠ shownText none ++ r' := by
    intro t r r' h
    exact absurd (List.cons.inj h).1 (by decide)
  cases o with
  | none =>
    cases o' with
    | none => exact ⟨rfl, List.append_cancel_left h⟩
    | some t' => exact absurd h.symm (hhead _ _ _)
  | some t =>
    cases o' with
    | none => exact absurd h (hhead _ _ _)
    | some t' =>
      have h : t ++ '"' :: rest = t' ++ '"' :: rest' := by
        have := (List.cons.inj h).2
        simpa using this
      obtain ⟨rfl, rfl⟩ := cut_inj (ho t rfl) (ho' t' rfl) h
      exact ⟨rfl, rfl⟩

lemma tenDigits_inj {m n : ℕ} (hm : 0 < m) (hn : 0 < n)
    (h : tenDigits (Nat.toDigits 10 m) = tenDigits (Nat.toDigits 10 n)) :
    m = n := by
  -- the zeros in front are no digits of the numbers
  have hstrip : ∀ k : ℕ, 0 < k → (tenDigits (Nat.toDigits 10 k)).dropWhile (· == '0') =
      Nat.toDigits 10 k := by
    intro k hk
    have hpos := isPositive_toDigits hk
    unfold tenDigits List.leftpad
    rw [List.dropWhile_append_of_pos fun c hc => by simp [List.eq_of_mem_replicate hc]]
    cases hd : Nat.toDigits 10 k with
    | nil => exact absurd hd Nat.toDigits_ne_nil
    | cons c t =>
      rw [hd] at hpos
      simp only [isPositive, Bool.and_eq_true, bne_iff_ne] at hpos
      rw [List.dropWhile_cons_of_neg (by simpa using hpos.1.1)]
  have := congrArg (List.dropWhile (· == '0')) h
  rw [hstrip m hm, hstrip n hn] at this
  exact toDigits_injective this

lemma decimal_inj {m n : ℤ} (h : decimal m = decimal n) : m = n := by
  rw [← int_decimal m, h, int_decimal]

lemma tab_decimal (n : ℤ) : '\t' ∉ decimal n := fun h => absurd (isSpace_decimal _ h) (by decide)

lemma tab_tenDigits (n : ℕ) : '\t' ∉ tenDigits (Nat.toDigits 10 n) := by
  intro h
  unfold tenDigits List.leftpad at h
  rcases List.mem_append.mp h with h | h
  · exact absurd (List.eq_of_mem_replicate h) (by decide)
  · exact absurd (isDigit_of_mem_toDigits h) (by decide)

lemma tab_tolower {t : Text} (ht : '\t' ∉ t) : '\t' ∉ tolower t := by
  intro h
  obtain ⟨c, hc, hlow⟩ := List.mem_map.mp h
  unfold Char.toLower at hlow
  split at hlow
  next hu =>
    have hval : c.val + ('a'.val - 'A'.val) = '\t'.val := congrArg Char.val hlow
    have hnat := congrArg UInt32.toNat hval
    have hle := UInt32.le_iff_toNat_le.mp hu.2
    rw [UInt32.toNat_add, show ('a'.val - 'A'.val).toNat = 32 from rfl,
      show '\t'.val.toNat = 9 from rfl] at hnat
    rw [show 'Z'.val.toNat = 90 from rfl] at hle
    omega
  next => exact ht (hlow ▸ hc)

lemma tab_ident {t : Text} (ht : ∀ c ∈ t, isIdent c = true) : '\t' ∉ t :=
  not_mem_of_all ht (by decide)

section Printed

variable {label : Label} {stem : Text} (hs : Stem stem)
include hs

/-- What is printed for a partition, cut at its tabs. -/
lemma printed_eq {e : Entry} (he : e.Valid label) (hpos : 0 < e.size) : e.printed label stem =
    if valueFor (lineText label e) attrsKey = invalid then none
    else some (recordText (Nat.toDigits 10 e.number) (decimal e.start) (decimal e.size)
      (tolower e.type)
      (tolower (uuidShown label e)) (nameShown label e)
        ("attrs=".toList ++ (valueFor (lineText label e) attrsKey ++
        '\t' :: ("bootable=".toList ++ tolower (flagFor (lineText label e) bootableKey))))) := by
  unfold Entry.printed
  rw [readRecord_line hs he hpos, partitionLine_eq]

end Printed

lemma nameShown_eq (label : Label) (e : Entry) :
    nameShown label e = shownText (if label = .gpt then e.name else none) := by
  unfold nameShown
  split <;> rfl

lemma recordText_inj {number number' : ℕ} {start start' size size' : ℤ}
    {type type' uuid uuid' : Text} {name name' : Option Text} {rest rest' : Text} (hn : 0 < number)
    (hn' : 0 < number') (ht : '\t' ∉ type) (ht' : '\t' ∉ type') (hu : '\t' ∉ uuid)
    (hu' : '\t' ∉ uuid') (hname : ∀ t ∈ name, '"' ∉ t) (hname' : ∀ t ∈ name', '"' ∉ t)
    (h : recordText (Nat.toDigits 10 number) (decimal start) (decimal size) type uuid
      (shownText name) rest = recordText (Nat.toDigits 10 number') (decimal start')
        (decimal size') type' uuid' (shownText name') rest') :
    number = number' ∧ start = start' ∧ size = size' ∧ type = type' ∧ uuid = uuid' ∧ name = name' ∧
    rest = rest' := by
  have hkey : ∀ {key : String} {v : Text}, '\t' ∉ key.toList → '\t' ∉ v →
      '\t' ∉ key.toList ++ v := by
    intro key v h1 h2
    rw [List.mem_append, not_or]
    exact ⟨h1, h2⟩
  have h := (List.cons.inj (List.append_cancel_left h)).2
  obtain ⟨h1, h⟩ := cut_inj (tab_tenDigits _) (tab_tenDigits _) h
  obtain ⟨h2, h⟩ := cut_inj (hkey (by decide) (tab_decimal _)) (hkey (by decide) (tab_decimal _)) h
  obtain ⟨h3, h⟩ := cut_inj (hkey (by decide) (tab_decimal _)) (hkey (by decide) (tab_decimal _)) h
  obtain ⟨h4, h⟩ := cut_inj (hkey (by decide) ht) (hkey (by decide) ht') h
  obtain ⟨h5, h⟩ := cut_inj (hkey (by decide) hu) (hkey (by decide) hu') h
  obtain ⟨h6, h⟩ := shownText_inj hname hname' (List.append_cancel_left h)
  exact ⟨tenDigits_inj hn hn' h1, decimal_inj (List.append_cancel_left h2),
    decimal_inj (List.append_cancel_left h3),
    List.append_cancel_left h4, List.append_cancel_left h5, h6, (List.cons.inj h).2⟩

/-- No name shadows attributes. -/
def Clear (label : Label) (e : Entry) : Prop := label = .gpt → ¬ e.Shadowed

lemma tab_uuid {label : Label} {e : Entry} (he : e.Valid label) :
    '\t' ∉ tolower (uuidShown label e) := by
  refine tab_tolower ?_
  unfold uuidShown
  split
  next h => exact tab_ident (he.uuid h).2
  next => decide

lemma quote_name {label : Label} {e : Entry} (he : e.Valid label) :
    ∀ t ∈ (if label = .gpt then e.name else none), '"' ∉ t := by
  intro t ht
  split at ht
  · exact he.name t ht
  · cases ht

lemma quote_attrs {label : Label} {e : Entry} (he : e.Valid label) :
    ∀ t ∈ (if label = .gpt then e.attrs else none), '"' ∉ t := by
  intro t ht
  split at ht
  · exact (he.attrs t ht).1
  · cases ht

lemma valueFor_clear {label : Label} {e : Entry} (he : e.Valid label) (hc : Clear label e) :
    valueFor (lineText label e) attrsKey = shownText (if label = .gpt then e.attrs else none) := by
  rw [valueFor_attrs he hc]
  split <;> rfl

/-- **What is printed tells the record**, unless its name shadows its attributes. -/
lemma record_of_printed {label : Label} {stem stem' : Text} (hs : Stem stem) (hs' : Stem stem')
    {e e' : Entry} (he : e.Proper label) (he' : e'.Proper label) (hc : Clear label e) {t : Text}
    (ht : e.printed label stem = some t) (ht' : e'.printed label stem' = some t) :
    e.record label = e'.record label := by
  rw [printed_eq hs he.1 he.2.2] at ht
  rw [printed_eq hs' he'.1 he'.2.2] at ht'
  split at ht
  · cases ht
  split at ht'
  · cases ht'
  have h := Option.some.inj (ht.trans ht'.symm)
  rw [nameShown_eq, nameShown_eq] at h
  obtain ⟨hnumber, hstart, hsize, htype, huuid, hname, hrest⟩ :=
    recordText_inj he.2.1 he'.2.1 (tab_tolower (tab_ident he.1.type))
    (tab_tolower (tab_ident he'.1.type)) (tab_uuid he.1) (tab_uuid he'.1) (quote_name he.1)
      (quote_name he'.1) h
  have hc' : Clear label e' := by
    intro hl hsh
    rw [if_pos hl, if_pos hl] at hname
    refine hc hl ?_
    unfold Entry.Shadowed at hsh ⊢
    rwa [hname]
  rw [valueFor_clear he.1 hc, valueFor_clear he'.1 hc'] at hrest
  obtain ⟨hattrs, hflag⟩ :=
    shownText_inj (quote_attrs he.1) (quote_attrs he'.1) (List.append_cancel_left hrest)
  unfold Entry.record
  cases label with
  | gpt =>
    rw [if_pos rfl, if_pos rfl] at hname hattrs
    simp only [hnumber, hstart, hsize, htype, hname, hattrs]
    rw [show tolower e.uuid = tolower e'.uuid from huuid]
  | dos =>
    have hflag := List.append_cancel_left (List.cons.inj hflag).2
    have hboot : e.bootable = e'.bootable := by
      unfold flagFor at hflag
      rw [flagField_dos he.1, flagField_dos he'.1] at hflag
      cases h1 : e.bootable <;> cases h2 : e'.bootable <;> simp [h1, h2] at hflag ⊢ <;> exact absurd
        hflag (by decide)
    simp only [hnumber, hstart, hsize, htype, hboot]

/-- The flag a record appears to have: on GPT, one that its name or its attributes show. -/
def LayoutRecord.flag (label : Label) (r : LayoutRecord) : Bool :=
  match label with
  | .dos => r.bootable
  | .gpt => flagComma bootableKey
      (optionalField nameKey ((r.name.map quoted).getD []) ++ optionalField attrsKey
        ((r.attrs.map quoted).getD []))

/-- The line of a record. -/
def LayoutRecord.line (label : Label) (r : LayoutRecord) : Text :=
  recordText (Nat.toDigits 10 r.number) (decimal r.start) (decimal r.size) r.type
    (r.uuid.getD absent) (shownText r.name)
    ("attrs=".toList ++ (shownText r.attrs ++ '\t' :: ("bootable=".toList ++
      tolower (if r.flag label then "true".toList else absent))))

/-- **What is printed depends on the record alone**, unless its name shadows its attributes. -/
lemma printed_clear {label : Label} {stem : Text} (hs : Stem stem) {e : Entry} (he : e.Proper label)
    (hc : Clear label e) :
    e.printed label stem = some ((e.record label).line label) := by
  rw [printed_eq hs he.1 he.2.2, valueFor_clear he.1 hc, if_neg (shownText_ne_invalid _)]
  unfold flagFor LayoutRecord.line
  cases label with
  | gpt =>
    rw [flagField_gpt he.1]
    rfl
  | dos =>
    rw [flagField_dos he.1]
    rfl

/-! ### Shadowed attributes -/

lemma flagField_named {e : Entry} (he : e.Valid .gpt) {n : Text} (hn : e.name = some n) :
    flagField bootableKey (lineText .gpt e) =
      (flagComma bootableKey (n ++ ['"']) ||
        flagComma bootableKey (optionalField attrsKey e.attrsText)) := by
  have hq : quoted n ++ optionalField attrsKey e.attrsText =
      ['"'] ++ (n ++ '"' :: optionalField attrsKey e.attrsText) := by
    simp [quoted]
  rw [flagField_gpt he, optionalField_eq nameKey,
    show e.nameText = quoted n by simp [Entry.nameText, hn],
    if_neg (by simp [quoted]), flagComma_bootable fieldKey_name (by decide), hq,
      flagComma_append (by decide),
    flagComma_barrier (by decide) (by decide) (by decide)]

/-- What is read from a name that does not end in `attrs=` does not depend on what follows it. -/
lemma fieldValue_inside {x : Char} (hx : x ≠ '"') (c : Text) {rest : Text}
    (hrest : NextField rest) :
    fieldValue (x :: c ++ '"' :: rest) = trim ((x :: c ++ ['"']).takeWhile (· != ',')) := by
  have htake : (x :: c ++ '"' :: rest).takeWhile (· != ',') = (x :: c ++ ['"']).takeWhile
      (· != ',') := by
    rw [show x :: c ++ '"' :: rest = (x :: c ++ ['"']) ++ rest by simp]
    rcases hrest with rfl | h
    · rw [List.append_nil]
    · obtain ⟨t, rfl⟩ := List.head?_eq_some_iff.mp h
      rw [List.takeWhile_append]
      split
      next hlen => rw [List.takeWhile_cons_of_neg (by decide), List.append_nil,
        (List.takeWhile_prefix _).eq_of_length hlen]
      next => rfl
  unfold fieldValue
  split
  next heq => exact absurd (List.cons.inj heq).1 hx
  next => rw [htake]

/-- What is read from a name that ends in `attrs=`: what stands before the attributes. -/
lemma fieldValue_end (v : Text) :
    fieldValue ('"' :: fieldText attrsKey (quoted v)) = "\", attrs=\"".toList := by
  have hq : fieldText attrsKey (quoted v) = ", attrs=".toList ++ '"' :: (v ++ ['"']) := rfl
  unfold fieldValue
  simp only [hq, takeWhile_quote (show '"' ∉ ", attrs=".toList by decide)]
  rw [if_pos (by simp)]
  rfl

/-- **A shadowed partition can be changed unnoticed.** -/
lemma exists_unnoticed {stem : Text} (hs : Stem stem) {e : Entry} (he : e.Proper .gpt)
    (hsh : e.Shadowed) :
    ∃ e' : Entry, e'.Proper .gpt ∧ e'.number = e.number ∧
      e'.printed .gpt stem = e.printed .gpt stem ∧
      e'.record .gpt ≠ e.record .gpt := by
  obtain ⟨c, hc⟩ := (shadowed_iff e).mp hsh
  obtain ⟨n, hn, hcn⟩ := Option.bind_eq_some_iff.mp hc
  have hread : ∀ e' : Entry, e'.Valid .gpt → e'.name = some n →
      valueFor (lineText .gpt e') attrsKey =
        fieldValue (c ++ '"' :: optionalField attrsKey e'.attrsText) := by
    intro e' he' hn'
    have h := behindField_attrs he'
    rw [hn', Option.bind_some, hcn] at h
    exact valueFor_eq h
  have hquote : '"' ∉ c := fun h => he.1.name n (by simp [hn]) ((behindComma_suffix hcn).subset h)
  -- the change is not noticed when nothing else of what is printed changes
  have hprinted : ∀ e' : Entry, e'.Proper .gpt → e'.number = e.number → e'.start = e.start →
      e'.size = e.size →
      e'.type = e.type → e'.uuid = e.uuid → e'.name = e.name →
      valueFor (lineText .gpt e') attrsKey = valueFor (lineText .gpt e) attrsKey →
      flagComma bootableKey (optionalField attrsKey e'.attrsText) =
        flagComma bootableKey (optionalField attrsKey e.attrsText) →
      e'.printed .gpt stem = e.printed .gpt stem := by
    intro e' he' h1 h2 h3 h4 h5 h6 hv hf
    rw [printed_eq hs he.1 he.2.2, printed_eq hs he'.1 he'.2.2, hv]
    unfold flagFor uuidShown nameShown
    rw [flagField_named he.1 hn, flagField_named he'.1 (h6.trans hn), hf, h1, h2, h3, h4, h5, h6]
  cases ha : e.attrs with
  | some a =>
    obtain ⟨hq, heq, hb⟩ := he.1.attrs a (by simp [ha])
    have hvalid : ({ e with attrs := some ('x' :: a) } : Entry).Proper .gpt := by
      refine ⟨{ he.1 with attrs := ?_ }, he.2⟩
      intro a' ha'
      rw [← Option.some.inj ha']
      simp [hq, heq, hb]
    have htext : ∀ b, optionalField attrsKey ({ e with attrs := some b } : Entry).attrsText =
      fieldText attrsKey (quoted b) :=
      fun b => if_neg (by simp [Entry.attrsText, quoted])
    have hold : optionalField attrsKey e.attrsText = fieldText attrsKey (quoted a) := by
      rw [show e.attrsText = quoted a by simp [Entry.attrsText, ha]]
      exact if_neg (by simp [quoted])
    refine ⟨{ e with attrs := some ('x' :: a) }, hvalid, rfl,
      hprinted _ hvalid rfl rfl rfl rfl rfl rfl ?_ ?_, ?_⟩
    · rw [hread _ hvalid.1 hn, hread e he.1 hn, htext, hold]
      cases c with
      | nil => rw [List.nil_append, List.nil_append, fieldValue_end, fieldValue_end]
      | cons x c =>
        have hx : x ≠ '"' := fun h => hquote (by rw [h]; simp)
        rw [fieldValue_inside hx c (.inr rfl), fieldValue_inside hx c (.inr rfl)]
    · have hflag : ∀ v : Text, flagComma bootableKey (fieldText attrsKey v) =
        flagComma bootableKey v := by
        intro v
        have := flagComma_bootable fieldKey_attrs (by decide) v []
        rwa [List.append_nil, List.append_nil] at this
      rw [htext, hold, hflag, hflag]
      rfl
    · intro h
      have : some ('x' :: a) = e.attrs := congrArg LayoutRecord.attrs h
      rw [ha] at this
      exact absurd (Option.some.inj this) (List.cons_ne_self _ _)
  | none =>
    have hold : optionalField attrsKey e.attrsText = [] := by
      simp [Entry.attrsText, ha, optionalField]
    cases c with
    | cons x c =>
      have hx : x ≠ '"' := fun h => hquote (by rw [h]; simp)
      have hvalid : ({ e with attrs := some [] } : Entry).Proper .gpt := by
        refine ⟨{ he.1 with attrs := ?_ }, he.2⟩
        intro a' ha'
        rw [← Option.some.inj ha']
        simp
      refine ⟨{ e with attrs := some [] }, hvalid, rfl,
        hprinted _ hvalid rfl rfl rfl rfl rfl rfl ?_ ?_, ?_⟩
      · rw [hread _ hvalid.1 hn, hread e he.1 hn, hold, fieldValue_inside hx c (.inl rfl),
          fieldValue_inside hx c (.inr rfl)]
      · rw [hold]
        rfl
      · intro h
        have : some [] = e.attrs := congrArg LayoutRecord.attrs h
        rw [ha] at this
        cases this
    | nil =>
      -- the partition is refused whatever its size is
      have hvalid : ({ e with size := e.size + 1 } : Entry).Proper .gpt := by
        have hnn := he.1.nonneg
        have hpos := he.2.2
        exact ⟨{ he.1 with nonneg := ⟨hnn.1, by show 0 ≤ e.size + 1; omega⟩ }, he.2.1,
          by show 0 < e.size + 1; omega⟩
      have hnone : ∀ e' : Entry, e'.Proper .gpt → e'.name = some n → e'.attrs = none →
          e'.printed .gpt stem = none := by
        intro e' he' hn' ha'
        have htext : optionalField attrsKey e'.attrsText = [] := by
          simp [Entry.attrsText, ha', optionalField]
        rw [printed_eq hs he'.1 he'.2.2, hread e' he'.1 hn', htext, if_pos]
        rfl
      refine ⟨{ e with size := e.size + 1 }, hvalid, rfl, ?_, ?_⟩
      · rw [hnone _ hvalid hn ha, hnone e he hn ha]
      · intro h
        have : e.size + 1 = e.size := congrArg LayoutRecord.size h
        omega

/-! ### Comparing two dumps -/

lemma headerLine_inj {k k' v v' : Text} (hk : '\t' ∉ k) (hk' : '\t' ∉ k')
    (h : headerLine k v = headerLine k' v') : k = k' ∧ v = v' := by
  unfold headerLine at h
  rw [List.append_assoc, List.append_assoc] at h
  exact cut_inj hk hk' (List.append_cancel_left h)

lemma tab_key {rule : HeaderRule} (h : rule ∈ fingerprintRules) : '\t' ∉ rule.key :=
  not_mem_of_all (rule_key h) (by decide)

/-- A line for a header. -/
def isHeaderLine (t : Text) : Bool := t.head? == some 'h'

lemma partition_head {label : Label} {stem : Text} {e : Entry} {t : Text}
    (h : e.printed label stem = some t) :
    t.head? = some 'p' := by
  unfold Entry.printed readRecord at h
  simp only at h
  split at h
  · cases h
  · rw [← Option.some.inj h, partitionLine_eq]
    rfl

namespace LayoutDump

variable {d d' : LayoutDump}

lemma items_rule {x : HeaderItem} (hx : x ∈ d.items) : x.rule ∈ fingerprintRules := by
  rw [mem_items] at hx
  rcases hx with rfl | rfl | rfl | rfl | ⟨-, rfl⟩ | ⟨-, rfl⟩ | rfl <;> simp [fingerprintRules]

lemma printed_head {t : Text} (ht : t ∈ d.printed) : t.head? = some 'p' := by
  obtain ⟨e, -, h⟩ := List.mem_filterMap.mp ht
  exact partition_head h

/-- The lines for headers and the lines for partitions are told apart. -/
lemma perm_split
    (h : (d.items.map HeaderItem.shown ++ d.printed).Perm
      (d'.items.map HeaderItem.shown ++ d'.printed)) :
    (d.items.map HeaderItem.shown).Perm (d'.items.map HeaderItem.shown) ∧
    d.printed.Perm d'.printed := by
  have hheader : ∀ d : LayoutDump, (d.items.map HeaderItem.shown ++ d.printed).filter isHeaderLine =
      d.items.map HeaderItem.shown := by
    intro d
    rw [List.filter_append, List.filter_eq_self.mpr, List.filter_eq_nil_iff.mpr, List.append_nil]
    · intro t ht
      rw [isHeaderLine, printed_head ht]
      decide
    · intro t ht
      obtain ⟨x, -, rfl⟩ := List.mem_map.mp ht
      rfl
  have hpart : ∀ d : LayoutDump, (d.items.map HeaderItem.shown ++ d.printed).filter
      (!isHeaderLine ·) = d.printed := by
    intro d
    rw [List.filter_append, List.filter_eq_nil_iff.mpr, List.nil_append, List.filter_eq_self.mpr]
    · intro t ht
      rw [isHeaderLine, printed_head ht]
      decide
    · intro t ht
      obtain ⟨x, -, rfl⟩ := List.mem_map.mp ht
      rw [show isHeaderLine x.shown = true from rfl]
      decide
  have h1 := h.filter isHeaderLine
  have h2 := h.filter (!isHeaderLine ·)
  rw [hheader, hheader] at h1
  rw [hpart, hpart] at h2
  exact ⟨h1, h2⟩

/-- A header of the one dump is a header of the other. -/
lemma exists_item (h : (d.items.map HeaderItem.shown).Perm (d'.items.map HeaderItem.shown))
    {x : HeaderItem} (hx : x ∈ d.items) :
    ∃ y ∈ d'.items, y.rule = x.rule ∧ x.rule.shown x.value = x.rule.shown y.value := by
  obtain ⟨y, hy, hshown⟩ := List.mem_map.mp (h.subset (List.mem_map_of_mem hx))
  have hrule := items_rule hx
  have hrule' := items_rule hy
  obtain ⟨hkey, hvalue⟩ := headerLine_inj (tab_key hrule') (tab_key hrule) hshown
  have heq : y.rule = x.rule := List.inj_on_of_nodup_map rule_keys_nodup hrule' hrule hkey
  rw [heq] at hvalue
  exact ⟨y, hy, heq, hvalue.symm⟩

/-- The value of a header is the value of the same header in the other dump. -/
lemma value_eq (h : (d.items.map HeaderItem.shown).Perm (d'.items.map HeaderItem.shown))
    {rule : HeaderRule} {v v' : Text} (hx : ⟨rule, v⟩ ∈ d.items) (hy : ⟨rule, v'⟩ ∈ d'.items) :
    rule.shown v = rule.shown v' := by
  obtain ⟨y, hmem, hrule, hvalue⟩ := exists_item h hx
  have hyeq : y = ⟨rule, v'⟩ :=
    List.inj_on_of_nodup_map d'.items_keys hmem hy (congrArg HeaderRule.key hrule)
  rw [hyeq] at hvalue
  exact hvalue

/-- The headers that need not be there. -/
lemma key_cases {x : HeaderItem} (hx : x ∈ d.items) :
    x.rule.key ∈ ["label".toList, "label-id".toList, "device".toList, "unit".toList,
      "sector-size".toList] ∨
      (0 < d.firstLba ∧ x.rule.key = "first-lba".toList) ∨
      (0 < d.lastLba ∧ x.rule.key = "last-lba".toList) := by
  rw [mem_items] at hx
  rcases hx with rfl | rfl | rfl | rfl | ⟨h, rfl⟩ | ⟨h, rfl⟩ | rfl
  · exact .inl (.head _)
  · exact .inl (.tail _ (.head _))
  · exact .inl (.tail _ (.tail _ (.head _)))
  · exact .inl (.tail _ (.tail _ (.tail _ (.head _))))
  · exact .inr (.inl ⟨h, rfl⟩)
  · exact .inr (.inr ⟨h, rfl⟩)
  · exact .inl (.tail _ (.tail _ (.tail _ (.tail _ (.head _)))))

lemma firstLba_pos_iff : 0 < d.firstLba ↔ ∃ x ∈ d.items, x.rule.key = "first-lba".toList := by
  constructor
  · intro h
    exact ⟨⟨firstLbaRule, decimal d.firstLba⟩,
      d.mem_items.mpr (.inr (.inr (.inr (.inr (.inl ⟨h, rfl⟩))))), rfl⟩
  · rintro ⟨x, hx, hkey⟩
    rcases key_cases hx with h | ⟨h, -⟩ | ⟨-, h⟩
    · rw [hkey] at h
      exact absurd h (by decide)
    · exact h
    · exact absurd (hkey.symm.trans h) (by decide)

lemma lastLba_pos_iff : 0 < d.lastLba ↔ ∃ x ∈ d.items, x.rule.key = "last-lba".toList := by
  constructor
  · intro h
    exact ⟨⟨lastLbaRule, decimal d.lastLba⟩,
      d.mem_items.mpr (.inr (.inr (.inr (.inr (.inr (.inl ⟨h, rfl⟩)))))), rfl⟩
  · rintro ⟨x, hx, hkey⟩
    rcases key_cases hx with h | ⟨-, h⟩ | ⟨h, -⟩
    · rw [hkey] at h
      exact absurd h (by decide)
    · exact absurd (hkey.symm.trans h) (by decide)
    · exact h

lemma exists_key (h : (d.items.map HeaderItem.shown).Perm (d'.items.map HeaderItem.shown))
    {key : Text} :
    (∃ x ∈ d.items, x.rule.key = key) ↔ ∃ x ∈ d'.items, x.rule.key = key := by
  constructor
  · rintro ⟨x, hx, rfl⟩
    obtain ⟨y, hy, hrule, -⟩ := exists_item h hx
    exact ⟨y, hy, by rw [hrule]⟩
  · rintro ⟨x, hx, rfl⟩
    obtain ⟨y, hy, hrule, -⟩ := exists_item h.symm hx
    exact ⟨y, hy, by rw [hrule]⟩

lemma natCast_of_decimal {m n : ℕ} (h : decimal m = decimal n) : m = n := by
  have := decimal_inj h
  omega

/-- **The headers are told from what is printed for them.** -/
lemma headers_of_perm (h : (d.items.map HeaderItem.shown).Perm (d'.items.map HeaderItem.shown)) :
    d.label = d'.label ∧ tolower d.labelId = tolower d'.labelId ∧ d.device = d'.device ∧
    d.firstLba = d'.firstLba ∧
      d.lastLba = d'.lastLba ∧ d.sectorSize = d'.sectorSize := by
  have hlabel : labelRule.shown d.label.text = labelRule.shown d'.label.text :=
    value_eq h (d.mem_items.mpr (.inl rfl)) (d'.mem_items.mpr (.inl rfl))
  have hid : labelIdRule.shown d.labelId = labelIdRule.shown d'.labelId :=
    value_eq h (d.mem_items.mpr (.inr (.inl rfl))) (d'.mem_items.mpr (.inr (.inl rfl)))
  have hdevice : deviceRule.shown d.device = deviceRule.shown d'.device :=
    value_eq h (d.mem_items.mpr (.inr (.inr (.inl rfl))))
      (d'.mem_items.mpr (.inr (.inr (.inl rfl))))
  have hsector : sectorSizeRule.shown (decimal d.sectorSize) =
      sectorSizeRule.shown (decimal d'.sectorSize) :=
    value_eq h (d.mem_items.mpr (.inr (.inr (.inr (.inr (.inr (.inr rfl)))))))
      (d'.mem_items.mpr (.inr (.inr (.inr (.inr (.inr (.inr rfl)))))))
  have hfirst : 0 < d.firstLba ↔ 0 < d'.firstLba := by
    rw [firstLba_pos_iff, exists_key h, ← firstLba_pos_iff]
  have hlast : 0 < d.lastLba ↔ 0 < d'.lastLba := by
    rw [lastLba_pos_iff, exists_key h, ← lastLba_pos_iff]
  refine ⟨?_, hid, hdevice, ?_, ?_, natCast_of_decimal hsector⟩
  · cases h1 : d.label <;> cases h2 : d'.label <;> rw [h1, h2] at hlabel <;>
      first | rfl | exact absurd hlabel (by decide)
  · by_cases h0 : 0 < d.firstLba
    · have : firstLbaRule.shown (decimal d.firstLba) = firstLbaRule.shown (decimal d'.firstLba) :=
        value_eq h (d.mem_items.mpr (.inr (.inr (.inr (.inr (.inl ⟨h0, rfl⟩))))))
          (d'.mem_items.mpr (.inr (.inr (.inr (.inr (.inl ⟨hfirst.mp h0, rfl⟩))))))
      exact natCast_of_decimal this
    · have := mt hfirst.mpr h0
      omega
  · by_cases h0 : 0 < d.lastLba
    · have : lastLbaRule.shown (decimal d.lastLba) = lastLbaRule.shown (decimal d'.lastLba) :=
        value_eq h (d.mem_items.mpr (.inr (.inr (.inr (.inr (.inr (.inl ⟨h0, rfl⟩)))))))
          (d'.mem_items.mpr (.inr (.inr (.inr (.inr (.inr (.inl ⟨hlast.mp h0, rfl⟩)))))))
      exact natCast_of_decimal this
    · have := mt hlast.mpr h0
      omega

/-- Dumps of one layout have the same lines printed for their headers. -/
lemma shown_of_same (h : d.Same d') :
    d.items.map HeaderItem.shown = d'.items.map HeaderItem.shown := by
  have hid : HeaderItem.shown ⟨labelIdRule, d.labelId⟩ =
      HeaderItem.shown ⟨labelIdRule, d'.labelId⟩ :=
    congrArg (headerLine labelIdRule.key) h.labelId
  unfold items innerItems
  rw [h.label, h.device, h.firstLba, h.lastLba, h.sectorSize]
  simp only [List.map_cons, List.map_append, List.cons_append, hid]

lemma records_nodup : d.records.Nodup := by
  refine List.Nodup.of_map (fun r : LayoutRecord => r.number) ?_
  unfold records
  rw [List.map_map]
  have : (fun r : LayoutRecord => r.number) ∘ Entry.record d.label = fun e => e.number := by
    funext e
    cases d.label <;> rfl
  rw [this]
  exact d.nodup

/-- What is printed for the partitions, when no attributes are shadowed. -/
lemma printed_records (hc : ∀ e ∈ d.entries, Clear d.label e) :
    d.printed = d.records.map (LayoutRecord.line d.label) := by
  have hall : ∀ e ∈ d.entries, e.printed d.label d.stem = some ((e.record d.label).line d.label) :=
    fun e he =>
    printed_clear d.stem_ok (d.valid e he) (hc e he)
  unfold printed records
  rw [List.filterMap_congr hall, List.map_map]
  exact congrFun List.filterMap_eq_map' d.entries

lemma allPrinted_clear (hc : ∀ e ∈ d.entries, Clear d.label e) : d.allPrinted = true := by
  refine List.all_eq_true.mpr fun e he => ?_
  rw [printed_clear d.stem_ok (d.valid e he) (hc e he)]
  rfl

lemma Same.clear (h : d.Same d') (hc : ∀ e ∈ d.entries, Clear d.label e) :
    ∀ e ∈ d'.entries, Clear d'.label e := by
  intro e he hl hsh
  rw [← h.label] at hl
  obtain ⟨x, hx, hrec⟩ := List.mem_map.mp ((h.records _).mpr (List.mem_map_of_mem he))
  rw [← h.label, hl] at hrec
  have hname : x.name = e.name := congrArg LayoutRecord.name hrec
  refine hc x hx hl ?_
  unfold Entry.Shadowed at hsh ⊢
  rwa [hname]

/-- Dumps of one layout have one fingerprint. -/
lemma fingerprint_of_same (hc : ∀ e ∈ d.entries, Clear d.label e) (h : d.Same d') :
    sfdiskLayoutFingerprint d.lines = sfdiskLayoutFingerprint d'.lines := by
  have hrecords : d.records.Perm d'.records :=
    (List.perm_ext_iff_of_nodup records_nodup records_nodup).mpr h.records
  rw [fingerprint_eq, fingerprint_eq, allPrinted_clear hc, allPrinted_clear (h.clear hc),
    Fingerprint.mk.injEq, sorted_eq_iff,
    shown_of_same h, printed_records hc, printed_records (h.clear hc), ← h.label]
  exact ⟨(hrecords.map _).append_left _, rfl⟩

/-- **Dumps with one fingerprint are dumps of one layout**, when no attributes are shadowed in one
of them. -/
lemma same_of_fingerprint (hc : ∀ e ∈ d.entries, Clear d.label e)
    (h : sfdiskLayoutFingerprint d.lines = sfdiskLayoutFingerprint d'.lines) : d.Same d' := by
  rw [fingerprint_eq, fingerprint_eq, allPrinted_clear hc, Fingerprint.mk.injEq, sorted_eq_iff] at h
  obtain ⟨hperm, hall⟩ := h
  obtain ⟨hheaders, hprinted⟩ := perm_split hperm
  obtain ⟨hlabel, hid, hdevice, hfirst, hlast, hsector⟩ := headers_of_perm hheaders
  have hproper : ∀ e ∈ d'.entries, e.Proper d.label := by
    rw [hlabel]
    exact d'.valid
  refine ⟨hlabel, hid, hdevice, hfirst, hlast, hsector, fun r => ⟨fun hr => ?_, fun hr => ?_⟩⟩
  · obtain ⟨e, he, rfl⟩ := List.mem_map.mp hr
    have ht := printed_clear d.stem_ok (d.valid e he) (hc e he)
    obtain ⟨e', he', ht'⟩ :=
      List.mem_filterMap.mp (hprinted.subset (List.mem_filterMap.mpr ⟨e, he, ht⟩))
    rw [← hlabel] at ht'
    rw [record_of_printed d.stem_ok d'.stem_ok (d.valid e he) (hproper e' he') (hc e he) ht ht',
      hlabel]
    exact List.mem_map_of_mem he'
  · obtain ⟨e', he', rfl⟩ := List.mem_map.mp hr
    obtain ⟨t, ht'⟩ := Option.isSome_iff_exists.mp (List.all_eq_true.mp hall.symm e' he')
    obtain ⟨e, he, ht⟩ :=
      List.mem_filterMap.mp (hprinted.symm.subset (List.mem_filterMap.mpr ⟨e', he', ht'⟩))
    rw [← hlabel] at ht' ⊢
    rw [← record_of_printed d.stem_ok d'.stem_ok (d.valid e he) (hproper e' he') (hc e he) ht ht']
    exact List.mem_map_of_mem he

/-- The dump with one partition changed. -/
def change (d : LayoutDump) (e' : Entry) (he' : e'.Proper d.label) : LayoutDump :=
  { d with
    entries := d.entries.map fun x => if x.number = e'.number then e' else x
    nonempty := by simpa using d.nonempty
    nodup := by
      have hnumbers : (fun e : Entry => e.number) ∘ (fun x => if x.number = e'.number then
        e' else x) = fun x => x.number := by
        funext x
        by_cases h : x.number = e'.number
        · simp [h]
        · simp [h]
      rw [List.map_map, hnumbers]
      exact d.nodup
    valid := by
      intro e he
      obtain ⟨x, hx, rfl⟩ := List.mem_map.mp he
      split
      · exact he'
      · exact d.valid x hx }

/-- A change that is not printed is not noticed. -/
lemma fingerprint_change {e e' : Entry} (he : e ∈ d.entries) (he' : e'.Proper d.label)
    (hn : e'.number = e.number) (hp : e'.printed d.label d.stem = e.printed d.label d.stem) :
    sfdiskLayoutFingerprint (d.change e' he').lines = sfdiskLayoutFingerprint d.lines := by
  have hsame : ∀ x ∈ d.entries, (if x.number = e'.number then e' else x).printed d.label d.stem =
      x.printed d.label d.stem := by
    intro x hx
    split
    next h =>
      rw [hp, List.inj_on_of_nodup_map d.nodup hx he (h.trans hn)]
    next => rfl
  have hprinted : (d.change e' he').printed = d.printed := by
    show (d.entries.map _).filterMap _ = d.entries.filterMap _
    rw [List.filterMap_map]
    exact List.filterMap_congr hsame
  have hall : (d.change e' he').allPrinted = d.allPrinted := by
    have hmap :
        (d.entries.map
          fun x => ((if x.number = e'.number then e' else x).printed d.label d.stem).isSome) =
        d.entries.map fun x => (x.printed d.label d.stem).isSome :=
      List.map_congr_left fun x hx => congrArg Option.isSome (hsame x hx)
    have := congrArg (List.all · id) hmap
    simp only [List.all_map] at this
    show (d.entries.map _).all _ = d.entries.all _
    rw [List.all_map]
    exact this
  rw [fingerprint_eq, fingerprint_eq, hprinted, hall]
  rfl

lemma not_same_change {e e' : Entry} (he : e ∈ d.entries) (he' : e'.Proper d.label)
    (hn : e'.number = e.number) (hr : e'.record d.label ≠ e.record d.label) :
    ¬ d.Same (d.change e' he') := by
  intro h
  obtain ⟨y, hy, hrec⟩ := List.mem_map.mp ((h.records _).mp (List.mem_map_of_mem he))
  obtain ⟨x, -, rfl⟩ := List.mem_map.mp hy
  have hrec : (if x.number = e'.number then e' else x).record d.label = e.record d.label := hrec
  split at hrec
  · exact hr hrec
  next hx =>
    have hnumber : x.number = e.number := by
      have := congrArg LayoutRecord.number hrec
      cases hl : d.label <;> rw [hl] at this <;> exact this
    exact hx (hnumber.trans hn.symm)

end LayoutDump

/-- **When a fingerprint tells a layout from every other**: when no name of a GPT partition shadows
its attributes. -/
theorem fingerprint_exact_iff (d : LayoutDump) :
    (∀ d' : LayoutDump,
      sfdiskLayoutFingerprint d.lines = sfdiskLayoutFingerprint d'.lines ↔ d.Same d') ↔
      (d.label = .gpt → ∀ e ∈ d.entries, ¬ e.Shadowed) := by
  constructor
  · intro h hl e he hsh
    obtain ⟨e', hproper, hn, hp, hr⟩ := exists_unnoticed d.stem_ok (hl ▸ d.valid e he) hsh
    rw [← hl] at hproper hp hr
    have hsame := (h (d.change e' hproper)).mp (LayoutDump.fingerprint_change he hproper hn hp).symm
    exact LayoutDump.not_same_change he hproper hn hr hsame
  · intro h d'
    have hc : ∀ e ∈ d.entries, Clear d.label e := fun e he hl => h hl e he
    exact ⟨LayoutDump.same_of_fingerprint hc, LayoutDump.fingerprint_of_same hc⟩

/-- A partition whose name shows attributes. -/
def shadowedEntry (attrs : Text) : Entry :=
  ⟨1, 2048, 4096, "0FC63DAF".toList, "A1".toList, some "data, attrs=none".toList, some attrs, false⟩

lemma shadowedEntry_proper {attrs : Text} (h : '"' ∉ attrs ∧ '=' ∉ attrs ∧ '\\' ∉ attrs) :
    (shadowedEntry attrs).Proper .gpt := by
  have hname : ∀ n ∈ some "data, attrs=none".toList, '"' ∉ n := by decide
  refine ⟨⟨⟨?_, ?_⟩, List.all_eq_true.mp rfl,
    fun _ => ⟨List.cons_ne_nil _ _, List.all_eq_true.mp rfl⟩, hname, ?_⟩, ?_, ?_⟩
  · exact Int.natCast_nonneg 2048
  · exact Int.natCast_nonneg 4096
  · intro a ha
    rw [← Option.some.inj ha]
    exact h
  · exact Nat.one_pos
  · exact Int.natCast_pos.mpr (by decide : 0 < 4096)

/-- A dump of `/dev/sda` with that partition. -/
def shadowedDump (attrs : Text) (h : '"' ∉ attrs ∧ '=' ∉ attrs ∧ '\\' ∉ attrs) : LayoutDump :=
  { label := .gpt
    labelId := "6F1A3B5C-01".toList
    device := "/dev/sda".toList
    firstLba := 2048
    lastLba := 99966
    sectorSize := 512
    other := []
    stem := "/dev/sda".toList
    entries := [shadowedEntry attrs]
    labelId_ok := isLabelId_sample
    device_ok := device_sda
    lba_ok := fun _ => lba_sample
    sector_ok := sector_sample
    other_ok := no_headers
    stem_ok := stem_sda
    nonempty := by simp
    nodup := by simp
    valid := by
      intro e he
      rw [List.mem_singleton.mp he]
      exact shadowedEntry_proper h }

lemma records_shadowedDump {attrs : Text} (h : '"' ∉ attrs ∧ '=' ∉ attrs ∧ '\\' ∉ attrs) :
    (shadowedDump attrs h).records = [(shadowedEntry attrs).record .gpt] := rfl

/-- The partition is required. -/
def requiredDump : LayoutDump := shadowedDump "RequiredPartition".toList (by decide)

/-- The partition is bootable instead. -/
def legacyDump : LayoutDump := shadowedDump "LegacyBIOSBootable".toList (by decide)

lemma printed_shadowedEntry :
    (shadowedEntry "RequiredPartition".toList).printed .gpt "/dev/sda".toList =
    (shadowedEntry "LegacyBIOSBootable".toList).printed .gpt "/dev/sda".toList := by decide +kernel

lemma fingerprint_legacyDump :
    sfdiskLayoutFingerprint requiredDump.lines = sfdiskLayoutFingerprint legacyDump.lines := by
  have hitems : requiredDump.items = legacyDump.items := rfl
  have hprinted : requiredDump.printed = legacyDump.printed := by
    show [shadowedEntry "RequiredPartition".toList].filterMap _ =
      [shadowedEntry "LegacyBIOSBootable".toList].filterMap _
    rw [List.filterMap_cons, List.filterMap_cons]
    exact congrArg (fun o : Option Text => o.elim [] fun t => [t]) printed_shadowedEntry
  have hall : requiredDump.allPrinted = legacyDump.allPrinted := by
    show [shadowedEntry "RequiredPartition".toList].all _ =
      [shadowedEntry "LegacyBIOSBootable".toList].all _
    rw [List.all_cons, List.all_cons, List.all_nil]
    exact congrArg (fun o : Option Text => o.isSome && true) printed_shadowedEntry
  rw [LayoutDump.fingerprint_eq, LayoutDump.fingerprint_eq, hitems, hprinted, hall]

/-- **Changed attributes are not always noticed.** -/
theorem fingerprint_not_exact :
    ¬ (sfdiskLayoutFingerprint requiredDump.lines = sfdiskLayoutFingerprint legacyDump.lines ↔
      requiredDump.Same legacyDump) := by
  intro h
  have hrecords :=
    (h.mp fingerprint_legacyDump).records ((shadowedEntry "RequiredPartition".toList).record .gpt)
  unfold requiredDump legacyDump at hrecords
  rw [records_shadowedDump, records_shadowedDump, List.mem_singleton,
    List.mem_singleton] at hrecords
  have hattrs := congrArg LayoutRecord.attrs (hrecords.mp rfl)
  exact absurd hattrs (by decide)

end Pxeos.Sfdisk
