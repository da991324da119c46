import Pxeos.Sfdisk.Fingerprint

/-!
# The fingerprint of one partition

What `value_for` finds in a partition line: the fields of the partition, except that the attributes
are looked for in the name as well, which stands before them (`readRecord_line`, `attrs_of_shadow`).
-/

namespace Pxeos.Sfdisk

open Pxeos.Lib

/-! ### Keys -/

lemma fieldKey_start : FieldKey startKey :=
  ⟨"start".toList, rfl, by decide, List.all_eq_true.mp rfl⟩
lemma fieldKey_size : FieldKey sizeKey := ⟨"size".toList, rfl, by decide, List.all_eq_true.mp rfl⟩
lemma fieldKey_type : FieldKey typeKey := ⟨"type".toList, rfl, by decide, List.all_eq_true.mp rfl⟩
lemma fieldKey_uuid : FieldKey uuidKey := ⟨"uuid".toList, rfl, by decide, List.all_eq_true.mp rfl⟩
lemma fieldKey_name : FieldKey nameKey := ⟨"name".toList, rfl, by decide, List.all_eq_true.mp rfl⟩
lemma fieldKey_attrs : FieldKey attrsKey :=
  ⟨"attrs".toList, rfl, by decide, List.all_eq_true.mp rfl⟩

/-! ### Values -/

lemma isSpace_of_isPathChar {c : Char} (h : isPathChar c = true) : isSpace c = false := by
  by_contra hs
  have hs : isSpace c = true := by simpa using hs
  have hle : c.toNat ≤ 32 := by
    simp only [isSpace, Bool.or_eq_true, Bool.and_eq_true, beq_iff_eq,
      decide_eq_true_eq, Char.le_def,
      UInt32.le_iff_toNat_le] at hs
    rcases hs with rfl | ⟨-, hs⟩
    · decide
    · exact hs.trans (by decide)
  simp only [isPathChar, isIdent, Char.isAlphanum, isAlpha_eq, isUpper_eq, isLower_eq, Char.isDigit,
    Bool.or_eq_true,
    Bool.and_eq_true, decide_eq_true_eq, ge_iff_le, UInt32.le_iff_toNat_le, beq_iff_eq] at h
  have hval : c.val.toNat = c.toNat := rfl
  rcases h with (((((h | h) | h) | rfl) | rfl) | rfl) | rfl
  · exact absurd (h.1.trans (hval ▸ hle)) (by decide)
  · exact absurd (h.1.trans (hval ▸ hle)) (by decide)
  · exact absurd (h.1.trans (hval ▸ hle)) (by decide)
  all_goals exact absurd hle (by decide)

lemma isPathChar_of_isIdent {c : Char} (h : isIdent c = true) :
    isPathChar c = true := by simp [isPathChar, h]

lemma isPathChar_of_isDigit {c : Char} (h : c.isDigit = true) : isPathChar c = true := by
  simp [isPathChar, isIdent, Char.isAlphanum, h]

lemma trim_eq_self {t : Text} (h : ∀ c ∈ t, isSpace c = false) : trim t = t := by
  have hfilter : t.filter (· != '\r') = t := by
    refine List.filter_eq_self.mpr fun c hc => ?_
    rw [bne_iff_ne]
    rintro rfl
    exact absurd (h _ hc) (by decide)
  have hdrop : t.dropWhile isSpace = t := List.dropWhile_eq_self_iff.mpr fun hlt => by
    simp [h _ (List.getElem_mem hlt)]
  unfold trim
  rw [hfilter, hdrop, List.rdropWhile_eq_self_iff]
  intro hne
  simp [h _ (List.getLast_mem hne)]

lemma isSpace_decimal {n : ℤ} : ∀ c ∈ decimal n, isSpace c = false := by
  intro c hc
  rcases mem_decimal hc with rfl | h
  · decide
  · exact isSpace_of_isPathChar (isPathChar_of_isDigit h)

lemma trim_padded (n : ℤ) : trim (padded n) = decimal n := by
  have hfilter : (padded n).filter (· != '\r') = padded n := by
    refine List.filter_eq_self.mpr fun c hc => ?_
    rw [bne_iff_ne]
    rintro rfl
    exact not_mem_padded (by decide) (by decide) (by decide) hc
  have hdrop : (padded n).dropWhile isSpace = decimal n := by
    unfold padded List.leftpad
    rw [List.dropWhile_append_of_pos fun c hc => by rw [List.eq_of_mem_replicate hc]; decide]
    exact List.dropWhile_eq_self_iff.mpr fun hlt => by
      simp [isSpace_decimal _ (List.getElem_mem hlt)]
  unfold trim
  rw [hfilter, hdrop, List.rdropWhile_eq_self_iff]
  intro hne
  simp [isSpace_decimal _ (List.getLast_mem hne)]

/-- What stands before the next field, or at the end of the line. -/
def NextField (rest : Text) : Prop := rest = [] ∨ rest.head? = some ','

/-- A value without quotes ends at the next field. -/
lemma fieldValue_plain {v rest : Text} (hv : ∀ c ∈ v, c ≠ ',' ∧ c ≠ '"') (hrest : NextField rest) :
    fieldValue (v ++ rest) = trim v := by
  have htake : (v ++ rest).takeWhile (· != ',') = v := by
    rw [List.takeWhile_append_of_pos fun c hc => by simpa using (hv c hc).1]
    rcases hrest with rfl | h
    · simp
    · obtain ⟨t, rfl⟩ := List.head?_eq_some_iff.mp h
      simp
  have hhead : (v ++ rest).head? ≠ some '"' := by
    cases v with
    | nil =>
      rcases hrest with rfl | h
      · simp
      · rw [List.nil_append, h]
        decide
    | cons c v =>
      intro h
      exact (hv c (by simp)).2 (by simpa using h)
  unfold fieldValue
  split
  next heq =>
    rw [heq] at hhead
    exact absurd rfl hhead
  next => rw [htake]

lemma takeWhile_quote {n : Text} (hn : '"' ∉ n) (rest : Text) :
    (n ++ '"' :: rest).takeWhile (· != '"') = n := by
  have hpos : ∀ c ∈ n, (c != '"') = true := by
    intro c hc
    rw [bne_iff_ne]
    rintro rfl
    exact hn hc
  rw [List.takeWhile_append_of_pos hpos, List.takeWhile_cons_of_neg (by decide), List.append_nil]

/-- A value in quotes ends at the next quote. -/
lemma fieldValue_quoted {n : Text} (hn : '"' ∉ n) (rest : Text) :
    fieldValue (quoted n ++ rest) = quoted n := by
  have hq : quoted n ++ rest = '"' :: (n ++ '"' :: rest) := by simp [quoted]
  rw [hq]
  unfold fieldValue
  simp only [takeWhile_quote hn]
  rw [if_pos (by simp)]
  rfl

/-! ### The text of a line -/

/-- The fields behind the type. -/
def lineTail (label : Label) (e : Entry) : Text :=
  match label with
  | .gpt =>
    fieldText uuidKey e.uuid ++
      (optionalField nameKey e.nameText ++ optionalField attrsKey e.attrsText)
  | .dos => if e.bootable then ", bootable".toList else []

/-- What stands behind the colon of a line. -/
def lineText (label : Label) (e : Entry) : Text :=
  startKey ++
    (padded e.start ++
      (fieldText sizeKey (padded e.size) ++ (fieldText typeKey e.type ++ lineTail label e)))

lemma sfdiskLine_text (label : Label) (stem : Text) (e : Entry) :
    sfdiskLine label stem e = (stem ++ Nat.toDigits 10 e.number) ++
      (" : ".toList ++ lineText label e) := by
  have hstart : " : start=".toList = " : ".toList ++ startKey := rfl
  have hsize : ", size=".toList = ',' :: ' ' :: sizeKey := rfl
  have htype : ", type=".toList = ',' :: ' ' :: typeKey := rfl
  have huuid : ", uuid=".toList = ',' :: ' ' :: uuidKey := rfl
  unfold sfdiskLine lineText lineTail fieldText
  rw [hstart, hsize, htype]
  cases label with
  | gpt =>
    rw [huuid]
    simp only [List.append_assoc, List.cons_append]
  | dos => simp only [List.append_assoc, List.cons_append]

lemma afterColon_line {label : Label} {stem : Text} (hs : Stem stem) (e : Entry) :
    afterColon (sfdiskLine label stem e) = lineText label e := by
  have hcolon : ':' ∉ stem ++ Nat.toDigits 10 e.number := not_mem_device hs _ (by decide)
  have hpos : ∀ c ∈ (stem ++ Nat.toDigits 10 e.number) ++ [' '], (c != ':') = true := by
    intro c hc
    rw [bne_iff_ne]
    rintro rfl
    rcases List.mem_append.mp hc with h | h
    · exact hcolon h
    · simp at h
  have hdrop : (sfdiskLine label stem e).dropWhile (· != ':') = ':' :: ' ' :: lineText label e := by
    have hline : sfdiskLine label stem e = ((stem ++ Nat.toDigits 10 e.number) ++ [' ']) ++
        ':' :: ' ' :: lineText label e := by
      rw [sfdiskLine_text]
      simp
    rw [hline, List.dropWhile_append_of_pos hpos, List.dropWhile_cons_of_neg (by decide)]
  unfold afterColon
  rw [hdrop]
  show (' ' :: lineText label e).dropWhile isSpace = lineText label e
  rw [List.dropWhile_cons_of_pos (by decide)]
  exact fieldKey_start.dropWhile _

lemma optionalField_eq (key value : Text) :
    optionalField key value = if value = [] then [] else fieldText key value := by
  unfold optionalField fieldText
  rfl

lemma nextField_fieldText (key value rest : Text) : NextField (fieldText key value ++ rest) :=
  .inr rfl

lemma nextField_attrs (e : Entry) : NextField (optionalField attrsKey e.attrsText) := by
  rw [optionalField_eq]
  split
  · exact .inl rfl
  · exact .inr rfl

lemma nextField_name (e : Entry) :
    NextField (optionalField nameKey e.nameText ++ optionalField attrsKey e.attrsText) := by
  rw [optionalField_eq nameKey]
  split
  · exact nextField_attrs e
  · exact .inr rfl

lemma nextField_tail (label : Label) (e : Entry) : NextField (lineTail label e) := by
  cases label with
  | gpt => exact .inr rfl
  | dos =>
    unfold lineTail
    cases e.bootable with
    | false => exact .inl rfl
    | true => exact .inr rfl

lemma plain_padded (n : ℤ) : ∀ c ∈ padded n, c ≠ ',' ∧ c ≠ '"' := by
  intro c hc
  constructor
  · rintro rfl
    exact not_mem_padded (by decide) (by decide) (by decide) hc
  · rintro rfl
    exact not_mem_padded (by decide) (by decide) (by decide) hc

lemma plain_ident {t : Text} (ht : ∀ c ∈ t, isIdent c = true) : ∀ c ∈ t, c ≠ ',' ∧ c ≠ '"' :=
  fun c hc =>
  ⟨fun h => absurd (ht c hc) (by rw [h]; decide), fun h => absurd (ht c hc) (by rw [h]; decide)⟩

lemma comma_ident {t : Text} (ht : ∀ c ∈ t, isIdent c = true) : ',' ∉ t :=
  not_mem_of_all ht (by decide)

lemma trim_ident {t : Text} (ht : ∀ c ∈ t, isIdent c = true) : trim t = t :=
  trim_eq_self fun c hc => isSpace_of_isPathChar (isPathChar_of_isIdent (ht c hc))

/-! ### The fields of a line -/

lemma behindField_start (label : Label) (e : Entry) :
    behindField startKey (lineText label e) =
      some (padded e.start ++ (fieldText sizeKey (padded e.size) ++ (fieldText typeKey e.type ++ lineTail label e))) := by
  unfold behindField lineText
  rw [behindKey_self fieldKey_start, Option.some_or]

/-- A field other than the start is looked for behind the commas. -/
lemma behindField_line {key : Text} (hk : FieldKey key) (hne : key ≠ startKey) (label : Label)
    (e : Entry) :
    behindField key (lineText label e) =
      behindComma key
        (fieldText sizeKey (padded e.size) ++ (fieldText typeKey e.type ++ lineTail label e)) := by
  have hcomma : ',' ∉ startKey ++ padded e.start := by
    rw [List.mem_append, not_or]
    exact ⟨by decide, not_mem_padded (by decide) (by decide) (by decide)⟩
  unfold behindField lineText
  rw [behindKey_other hk fieldKey_start hne, Option.none_or, ← List.append_assoc,
    behindComma_append hcomma]

lemma behindComma_size {key : Text} (hk : FieldKey key) (hne : key ≠ sizeKey) (n : ℤ)
    (rest : Text) :
    behindComma key (fieldText sizeKey (padded n) ++ rest) = behindComma key rest := by
  rw [behindComma_field_other hk fieldKey_size hne,
    behindComma_append (not_mem_padded (by decide) (by decide) (by decide))]

/-- An identifier has no fields in it. -/
lemma behindComma_ident {key key' v : Text} (hk : FieldKey key) (hk' : FieldKey key')
    (hne : key ≠ key') (hv : ∀ c ∈ v, isIdent c = true) (rest : Text) :
    behindComma key (fieldText key' v ++ rest) = behindComma key rest := by
  rw [behindComma_field_other hk hk' hne, behindComma_append (comma_ident hv)]

/-- The fields behind the type, looked for in the whole line. -/
lemma behindField_tail {key : Text} (hk : FieldKey key) (h1 : key ≠ startKey) (h2 : key ≠ sizeKey)
    (h3 : key ≠ typeKey) {label : Label} {e : Entry} (he : e.Valid label) :
    behindField key (lineText label e) = behindComma key (lineTail label e) := by
  rw [behindField_line hk h1, behindComma_size hk h2, behindComma_ident hk fieldKey_type h3 he.type]

lemma valueFor_eq {text key v : Text} (h : behindField key text = some v) :
    valueFor text key = fieldValue v := by
  unfold valueFor
  rw [h]
  rfl

lemma valueFor_absent {text key : Text} (h : behindField key text = none) :
    valueFor text key = absent := by
  unfold valueFor
  rw [h]
  rfl

lemma valueFor_start (label : Label) (e : Entry) :
    valueFor (lineText label e) startKey = decimal e.start := by
  rw [valueFor_eq (behindField_start label e),
    fieldValue_plain (plain_padded _) (nextField_fieldText _ _ _), trim_padded]

lemma valueFor_size (label : Label) (e : Entry) :
    valueFor (lineText label e) sizeKey = decimal e.size := by
  have h := behindField_line fieldKey_size (by decide) label e
  rw [behindComma_field fieldKey_size] at h
  rw [valueFor_eq h, fieldValue_plain (plain_padded _) (nextField_fieldText _ _ _), trim_padded]

lemma valueFor_type {label : Label} {e : Entry} (he : e.Valid label) :
    valueFor (lineText label e) typeKey = e.type := by
  have h := behindField_line fieldKey_type (by decide) label e
  rw [behindComma_size fieldKey_type (by decide), behindComma_field fieldKey_type] at h
  rw [valueFor_eq h, fieldValue_plain (plain_ident he.type) (nextField_tail _ _),
    trim_ident he.type]

/-- A name or attributes as they are printed. -/
def shownText (o : Option Text) : Text := (o.map quoted).getD absent

/-- The identifier as it is printed. -/
def uuidShown (label : Label) (e : Entry) : Text := if label = .gpt then e.uuid else absent

/-- The name as it is printed. -/
def nameShown (label : Label) (e : Entry) : Text :=
  if label = .gpt then shownText e.name else absent

/-- The fields of a DOS partition are its start, its size and its type. -/
lemma behindComma_dos {key : Text} (hk : FieldKey key) (e : Entry) :
    behindComma key (lineTail .dos e) = none := by
  unfold lineTail
  cases e.bootable with
  | false => rfl
  | true =>
    have hkey : behindKey key " bootable".toList = none := by
      unfold behindKey
      rw [if_neg]
      intro h
      obtain ⟨k, rfl, -, -⟩ := hk
      have hmem : '=' ∈ " bootable".toList.dropWhile isSpace := h.subset (by simp)
      exact absurd hmem (by decide)
    show behindComma key (',' :: " bootable".toList) = none
    rw [behindComma, if_pos rfl, hkey, Option.none_or]
    exact behindComma_of_notMem (by decide)

lemma valueFor_uuid {label : Label} {e : Entry} (he : e.Valid label) :
    valueFor (lineText label e) uuidKey = uuidShown label e := by
  have h := behindField_tail fieldKey_uuid (by decide) (by decide) (by decide) he
  cases label with
  | dos =>
    rw [behindComma_dos fieldKey_uuid] at h
    rw [valueFor_absent h]
    rfl
  | gpt =>
    have hu := (he.uuid rfl).2
    unfold lineTail at h
    rw [behindComma_field fieldKey_uuid] at h
    rw [valueFor_eq h, fieldValue_plain (plain_ident hu) (nextField_name e), trim_ident hu]
    rfl

/-- What is looked for behind the identifier of a GPT partition. -/
lemma behindField_gpt {key : Text} (hk : FieldKey key) (h1 : key ≠ startKey) (h2 : key ≠ sizeKey)
    (h3 : key ≠ typeKey) (h4 : key ≠ uuidKey) {e : Entry} (he : e.Valid .gpt) :
    behindField key (lineText .gpt e) =
      behindComma key (optionalField nameKey e.nameText ++ optionalField attrsKey e.attrsText) := by
  rw [behindField_tail hk h1 h2 h3 he]
  unfold lineTail
  rw [behindComma_ident hk fieldKey_uuid h4 (he.uuid rfl).2]

lemma quote_notMem {key : Text} (hk : FieldKey key) : '"' ∉ key := hk.notMem (by decide) (by decide)

/-- Nothing is found in attributes, which have no equals sign in them. -/
lemma behindComma_attrs {key : Text} (hk : FieldKey key) (hne : key ≠ attrsKey) {label : Label}
    {e : Entry} (he : e.Valid label) :
    behindComma key (optionalField attrsKey e.attrsText) = none := by
  rw [optionalField_eq]
  unfold Entry.attrsText
  cases ha : e.attrs with
  | none => rfl
  | some a =>
    have heq : '=' ∉ quoted a := by
      have := (he.attrs a (by simp [ha])).2.1
      simp [quoted, this]
    have hsome : (behindComma key (quoted a)).isSome = false := by
      by_contra h
      rw [Bool.not_eq_false, behindComma_isSome] at h
      obtain ⟨x, y, z, h, -, hp, -⟩ := h
      obtain ⟨k, rfl, -, -⟩ := hk
      refine heq ?_
      rw [h]
      have : '=' ∈ z := hp.subset (by simp)
      simp [this]
    rw [Option.map_some, Option.getD_some, if_neg (by simp [quoted]),
      ← List.append_nil (fieldText attrsKey (quoted a)),
      behindComma_field_other hk fieldKey_attrs hne, List.append_nil]
    simpa using hsome

lemma valueFor_name {label : Label} {e : Entry} (he : e.Valid label) :
    valueFor (lineText label e) nameKey = nameShown label e := by
  cases label with
  | dos =>
    have h := behindField_tail fieldKey_name (by decide) (by decide) (by decide) he
    rw [behindComma_dos fieldKey_name] at h
    rw [valueFor_absent h]
    rfl
  | gpt =>
    have h := behindField_gpt fieldKey_name (by decide) (by decide) (by decide) (by decide) he
    have hattrs := behindComma_attrs fieldKey_name (by decide) he
    unfold nameShown shownText
    rw [if_pos rfl]
    rw [optionalField_eq nameKey] at h
    unfold Entry.nameText at h
    cases hn : e.name with
    | none =>
      rw [hn] at h
      exact valueFor_absent (h.trans hattrs)
    | some n =>
      have hq : '"' ∉ n := he.name n (by simp [hn])
      rw [hn, Option.map_some, Option.getD_some, if_neg (by simp [quoted]),
        behindComma_field fieldKey_name] at h
      rw [valueFor_eq h, fieldValue_quoted hq]
      rfl

/-! ### The attributes -/

/-- What is found for the attributes of a GPT partition: what a name shows of them, or else what
they are. -/
lemma behindField_attrs {e : Entry} (he : e.Valid .gpt) : behindField attrsKey (lineText .gpt e) =
    match e.name.bind (behindComma attrsKey) with
    | some c => some (c ++ '"' :: optionalField attrsKey e.attrsText)
    | none => e.attrs.map quoted := by
  have hattrs : behindComma attrsKey (optionalField attrsKey e.attrsText) = e.attrs.map quoted := by
    rw [optionalField_eq]
    unfold Entry.attrsText
    cases e.attrs with
    | none => rfl
    | some a =>
      rw [Option.map_some, Option.getD_some, if_neg (by simp [quoted]),
        ← List.append_nil (fieldText attrsKey (quoted a)),
        behindComma_field fieldKey_attrs, List.append_nil]
  rw [behindField_gpt fieldKey_attrs (by decide) (by decide) (by decide) (by decide) he,
    optionalField_eq nameKey]
  cases hn : e.name with
  | none =>
    simp only [Entry.nameText, hn]
    exact hattrs
  | some n =>
    have htext : e.nameText = quoted n := by simp [Entry.nameText, hn]
    have hq : quoted n ++ optionalField attrsKey e.attrsText =
        '"' :: (n ++ '"' :: optionalField attrsKey e.attrsText) := by
      simp [quoted]
    rw [htext, if_neg (by simp [quoted]),
      behindComma_field_other fieldKey_attrs fieldKey_name (by decide), hq,
      behindComma_cons_of_ne (by decide),
        behindComma_barrier (by decide) (quote_notMem fieldKey_attrs),
      behindComma_cons_of_ne (by decide), hattrs, Option.bind_some]
    cases behindComma attrsKey n with
    | none => rfl
    | some c => rfl

/-- **The name shadows the attributes** when `attrs=` is found in it. -/
lemma shadowed_iff (e : Entry) : e.Shadowed ↔ ∃ c, e.name.bind (behindComma attrsKey) = some c := by
  rw [← Option.isSome_iff_exists]
  unfold Entry.Shadowed
  cases hn : e.name with
  | none => simp
  | some n =>
    rw [Option.bind_some, behindComma_isSome]
    constructor
    · rintro ⟨a, b, c, h, hb⟩
      exact ⟨a, b, attrsKey ++ c, Option.some.inj h, hb, List.prefix_append _ _,
        fieldKey_attrs.dropWhile c⟩
    · rintro ⟨a, b, c, h, hb, ⟨c, rfl⟩, -⟩
      exact ⟨a, b, c, by rw [h], hb⟩

/-- The attributes as they are printed, when no name shadows them. -/
lemma valueFor_attrs {label : Label} {e : Entry} (he : e.Valid label)
    (hsh : label = .gpt → ¬ e.Shadowed) :
    valueFor (lineText label e) attrsKey = if label = .gpt then shownText e.attrs else absent := by
  cases label with
  | dos =>
    have h := behindField_tail fieldKey_attrs (by decide) (by decide) (by decide) he
    rw [behindComma_dos fieldKey_attrs] at h
    rw [valueFor_absent h]
    rfl
  | gpt =>
    have h := behindField_attrs he
    have hnone : e.name.bind (behindComma attrsKey) = none := by
      by_contra hne
      exact hsh rfl ((shadowed_iff e).mpr (Option.ne_none_iff_exists'.mp hne))
    rw [hnone] at h
    simp only at h
    rw [if_pos rfl]
    unfold shownText
    cases ha : e.attrs with
    | none =>
      rw [ha] at h
      exact valueFor_absent h
    | some a =>
      have hq : '"' ∉ a := (he.attrs a (by simp [ha])).1
      rw [ha, Option.map_some] at h
      have := fieldValue_quoted hq []
      rw [List.append_nil] at this
      rw [valueFor_eq h, this]
      rfl

/-! ### The boot flag -/

lemma flagHere_start (t : Text) : flagHere bootableKey (startKey ++ t) = false := by
  have hno : ¬ bootableKey <+: startKey ++ t :=
    fun h => absurd (List.cons_prefix_cons.mp h).1 (by decide)
  unfold flagHere behindKey
  rw [fieldKey_start.dropWhile, if_neg hno]
  rfl

lemma flagComma_bootable {key : Text} (hk : FieldKey key) (hne : ¬ bootableKey <+: key)
    (v rest : Text) :
    flagComma bootableKey (fieldText key v ++ rest) = flagComma bootableKey (v ++ rest) :=
  flagComma_field (by decide) hk hne v rest

/-- The flag is looked for behind the type. -/
lemma flagField_tail {label : Label} {e : Entry} (he : e.Valid label) :
    flagField bootableKey (lineText label e) = flagComma bootableKey (lineTail label e) := by
  have hpad : ∀ n, ',' ∉ padded n := fun n => not_mem_padded (by decide) (by decide) (by decide)
  have hcomma : ',' ∉ startKey ++ padded e.start := by
    rw [List.mem_append, not_or]
    exact ⟨by decide, hpad _⟩
  unfold flagField lineText
  rw [flagHere_start, Bool.false_or, ← List.append_assoc, flagComma_append hcomma,
    flagComma_bootable fieldKey_size (by decide), flagComma_append (hpad _),
    flagComma_bootable fieldKey_type (by decide), flagComma_append (comma_ident he.type)]

lemma flagField_dos {e : Entry} (he : e.Valid .dos) :
    flagField bootableKey (lineText .dos e) = e.bootable := by
  rw [flagField_tail he]
  unfold lineTail
  cases e.bootable with
  | false => rfl
  | true =>
    show flagComma bootableKey ", bootable".toList = true
    decide

/-- The flag a GPT partition appears to have: one that its name or its attributes show. -/
lemma flagField_gpt {e : Entry} (he : e.Valid .gpt) : flagField bootableKey (lineText .gpt e) =
    flagComma bootableKey
      (optionalField nameKey e.nameText ++ optionalField attrsKey e.attrsText) := by
  rw [flagField_tail he]
  unfold lineTail
  rw [flagComma_bootable fieldKey_uuid (by decide), flagComma_append (comma_ident (he.uuid rfl).2)]

/-! ### The record of a line -/

lemma isPositive_decimal {n : ℤ} (h : 0 < n) : isPositive (decimal n) = true := by
  cases n with
  | ofNat n => exact isPositive_toDigits (Int.ofNat_lt.mp h)
  | negSucc n => omega

lemma isNatural_decimal {n : ℤ} (h : 0 ≤ n) : isNatural (decimal n) = true := by
  unfold isNatural
  rcases h.lt_or_eq with h | rfl
  · rw [isPositive_decimal h, Bool.or_true]
  · rfl

lemma ident_ne_invalid {t : Text} (ht : ∀ c ∈ t, isIdent c = true) : t ≠ invalid := by
  rintro rfl
  exact absurd (ht '<' (by decide)) (by decide)

lemma shownText_ne_invalid (o : Option Text) : shownText o ≠ invalid := by
  cases o with
  | none => decide
  | some t => exact fun h => absurd (List.cons.inj h).1 (by decide)

/-- **What is printed for a partition**: its fields, with what is found for its attributes. -/
theorem readRecord_line {label : Label} {stem : Text} (hs : Stem stem) {e : Entry}
    (he : e.Valid label) (hpos : 0 < e.size) (number : Text) :
    readRecord number (sfdiskLine label stem e) =
      if valueFor (lineText label e) attrsKey = invalid then none
      else some (partitionLine number (decimal e.start) (decimal e.size) e.type (uuidShown label e)
        (nameShown label e)
        (valueFor (lineText label e) attrsKey) (flagFor (lineText label e) bootableKey)) := by
  have huuid : uuidShown label e ≠ invalid := by
    unfold uuidShown
    split
    next h => exact ident_ne_invalid (he.uuid h).2
    next => decide
  have hname : nameShown label e ≠ invalid := by
    unfold nameShown
    split
    · exact shownText_ne_invalid _
    · decide
  have hflag : flagFor (lineText label e) bootableKey ≠ invalid := by
    unfold flagFor
    split <;> decide
  unfold readRecord
  simp only [afterColon_line hs, valueFor_start, valueFor_size, valueFor_type he, valueFor_uuid he,
    valueFor_name he]
  simp only [isNatural_decimal he.nonneg.1, isPositive_decimal hpos,
    beq_false_of_ne (ident_ne_invalid he.type),
    beq_false_of_ne huuid, beq_false_of_ne hname, beq_false_of_ne hflag, Bool.not_true,
      Bool.false_or, Bool.or_false, beq_iff_eq]

end Pxeos.Sfdisk
