import Pxeos.Sfdisk.Dump
import Mathlib.Data.List.TakeWhile

/-!
# Reading a printed line

`readPart_shaped`: the line that `display_output` prints for a record with no commas in its fields
is read as that record again, up to the name and the attributes, which are recognised by the keys
that occur in them.  A `Printable` record has none of the keys there and keeps both.
-/

namespace Pxeos.Sfdisk

open Pxeos.Lib

/-! ### Keys and numbers -/

lemma tight_startKey : Tight startKey := ⟨"start".toList, '=', rfl, by decide⟩
lemma tight_sizeKey : Tight sizeKey := ⟨"size".toList, '=', rfl, by decide⟩
lemma tight_typeKey : Tight typeKey := ⟨"type".toList, '=', rfl, by decide⟩
lemma tight_uuidKey : Tight uuidKey := ⟨"uuid".toList, '=', rfl, by decide⟩
lemma tight_nameKey : Tight nameKey := ⟨"name".toList, '=', rfl, by decide⟩
lemma tight_attrsKey : Tight attrsKey := ⟨"attrs".toList, '=', rfl, by decide⟩

/-- A key does not occur where one of its characters is missing. -/
lemma not_infix_of_not_mem {key t : Text} {c : Char} (hc : c ∈ key) (h : c ∉ t) : ¬ key <:+: t :=
  fun hi => h (hi.subset hc)

lemma gsubKey_eq_none {key t : Text} (hkey : key ≠ []) : gsubKey key t = none ↔ ¬ key <:+: t := by
  unfold gsubKey
  rw [Option.map_eq_none_iff, afterLast_eq_none hkey]

/-- A key with its value behind it. -/
lemma gsubKey_value {key : Text} (hkey : Tight key) (pre : Text) {t : Text} (ht : ¬ key <:+: t) :
    gsubKey key (pre ++ (key ++ t)) = some (t.dropWhile (· == ' ')) := by
  unfold gsubKey
  rw [afterLast_key hkey ht pre, Option.map_some]

lemma dropWhile_blank {t : Text} (h : t.head? ≠ some ' ') : t.dropWhile (· == ' ') = t := by
  cases t with
  | nil => rfl
  | cons c t =>
    have hc : c ≠ ' ' := fun he => h (by rw [he]; rfl)
    rw [List.dropWhile_cons_of_neg (by simpa using hc)]

lemma stripKey_value {key : Text} (hkey : Tight key) (pre : Text) {t : Text} (ht : ¬ key <:+: t)
    (hb : t.head? ≠ some ' ') : stripKey key (pre ++ (key ++ t)) = t := by
  unfold stripKey
  rw [gsubKey_value hkey pre ht, Option.getD_some, dropWhile_blank hb]

lemma mem_decimal {n : ℤ} {c : Char} (h : c ∈ decimal n) : c = '-' ∨ c.isDigit = true := by
  cases n with
  | ofNat n => exact .inr (isDigit_of_mem_toDigits h)
  | negSucc n =>
    rcases List.mem_cons.mp h with rfl | h
    · exact .inl rfl
    · exact .inr (isDigit_of_mem_toDigits h)

lemma mem_padded {n : ℤ} {c : Char} (h : c ∈ padded n) : c = ' ' ∨ c = '-' ∨ c.isDigit = true := by
  unfold padded List.leftpad at h
  rcases List.mem_append.mp h with h | h
  · exact .inl (List.eq_of_mem_replicate h)
  · exact .inr (mem_decimal h)

lemma not_mem_padded {n : ℤ} {c : Char} (h1 : c ≠ ' ') (h2 : c ≠ '-') (h3 : c.isDigit = false) :
    c ∉ padded n := by
  intro h
  rcases mem_padded h with h | h | h
  · exact h1 h
  · exact h2 h
  · rw [h3] at h
    cases h

lemma decimal_head_ne {n : ℤ} : (decimal n).head? ≠ some ' ' := by
  intro h
  rcases mem_decimal (List.mem_of_mem_head? h) with h | h
  · exact absurd h (by decide)
  · exact absurd h (by decide)

lemma dropWhile_padded (n : ℤ) : (padded n).dropWhile (· == ' ') = decimal n := by
  unfold padded List.leftpad
  rw [List.dropWhile_append_of_pos (by simp)]
  exact dropWhile_blank decimal_head_ne

lemma intOfDigits_toDigits (n : ℕ) : intOfDigits (Nat.toDigits 10 n) = n := by
  have hall : ∀ c ∈ Nat.toDigits 10 n, c.isDigit = true := fun c hc => isDigit_of_mem_toDigits hc
  unfold intOfDigits
  rw [List.takeWhile_eq_self_iff.mpr hall, List.dropWhile_eq_nil_iff.mpr hall]
  have hv : digitsValue (Nat.toDigits 10 n) = n := Nat.ofDigitChars_ten_toDigits
  simp [exponentOf, hv]

/-- A printed number is read again. -/
lemma int_decimal (n : ℤ) : int (decimal n) = n := by
  cases n with
  | ofNat n =>
    have hall : ∀ c ∈ Nat.toDigits 10 n, c.isDigit = true := fun c hc => isDigit_of_mem_toDigits hc
    obtain ⟨c, t, ht⟩ := List.exists_cons_of_ne_nil (Nat.toDigits_ne_nil (n := n) (b := 10))
    have hc : c.isDigit = true := hall c (by simp [ht])
    have h := intOfDigits_toDigits n
    unfold int
    simp only [decimal, ht] at h ⊢
    rw [List.dropWhile_cons_of_neg]
    · split
      · rename_i heq
        rw [(List.cons.inj heq).1] at hc
        exact absurd hc (by decide)
      · rename_i heq
        rw [(List.cons.inj heq).1] at hc
        exact absurd hc (by decide)
      · rw [h]
        rfl
    · intro hb
      rcases Bool.or_eq_true_iff.mp hb with hb | hb
      · rw [of_decide_eq_true hb] at hc
        exact absurd hc (by decide)
      · rw [of_decide_eq_true hb] at hc
        exact absurd hc (by decide)
  | negSucc n =>
    unfold int
    simp only [decimal]
    rw [List.dropWhile_cons_of_neg (by decide)]
    simp only
    rw [intOfDigits_toDigits]
    rfl

/-! ### Devices -/

/-- A letter, a digit or a dash: the characters of types and identifiers. -/
def isIdent (c : Char) : Bool := c.isAlphanum || c == '-'

/-- The characters of device paths. -/
def isPathChar (c : Char) : Bool := isIdent c || c == '/' || c == '_' || c == '.'

/-- A character that a text does not have. -/
lemma not_mem_of_all {f : Char → Bool} {t : Text} (ht : ∀ c ∈ t, f c = true) {c : Char}
    (hc : f c = false) : c ∉ t := by
  intro h
  have := ht c h
  rw [hc] at this
  cases this

/-- The path of a disk as it stands before the number of a partition. -/
structure Stem (stem : Text) : Prop where
  path : ∀ c ∈ stem, isPathChar c = true
  slash : stem.head? = some '/'
  /-- A disk whose name ends in a digit has a `p` there. -/
  last : ∃ pre c, stem = pre ++ [c] ∧ c.isDigit = false

lemma stem_sda : Stem "/dev/sda".toList :=
  ⟨List.all_eq_true.mp rfl, rfl, "/dev/sd".toList, 'a', rfl, by decide⟩

lemma not_mem_device {stem : Text} (hs : Stem stem) (n : ℕ) {c : Char} (hc : isPathChar c = false) :
    c ∉ stem ++ Nat.toDigits 10 n := by
  rw [List.mem_append, not_or]
  refine ⟨not_mem_of_all hs.path hc, fun h => ?_⟩
  have hd := isDigit_of_mem_toDigits h
  simp [isPathChar, isIdent, Char.isAlphanum, hd] at hc

/-- The number at the end of a device path. -/
lemma partNumber_device {stem : Text} (hs : Stem stem) (n : ℕ) :
    partNumber (stem ++ Nat.toDigits 10 n) = Nat.toDigits 10 n := by
  obtain ⟨pre, c, rfl, hc⟩ := hs.last
  have hall : ∀ d ∈ (Nat.toDigits 10 n).reverse, d.isDigit = true := fun d hd =>
    isDigit_of_mem_toDigits (List.mem_reverse.mp hd)
  have hne : Nat.toDigits 10 n ≠ [] := Nat.toDigits_ne_nil
  have hrev : (pre ++ [c] ++ Nat.toDigits 10 n).reverse = (Nat.toDigits 10 n).reverse ++
      c :: pre.reverse := by simp
  have hafter : ((Nat.toDigits 10 n).reverse ++ c :: pre.reverse).takeWhile (fun d => !d.isDigit) =
      [] := by
    obtain ⟨d, t, hd⟩ := List.exists_cons_of_ne_nil (List.reverse_ne_nil_iff.mpr hne)
    rw [hd, List.cons_append, List.takeWhile_cons_of_neg]
    rw [hall d (by simp [hd])]
    decide
  have htake : ((Nat.toDigits 10 n).reverse ++ c :: pre.reverse).takeWhile Char.isDigit =
      (Nat.toDigits 10 n).reverse := by
    rw [List.takeWhile_append_of_pos hall, List.takeWhile_cons_of_neg (by rw [hc]; decide),
      List.append_nil]
  have hdrop : ((Nat.toDigits 10 n).reverse ++ c :: pre.reverse).dropWhile Char.isDigit =
      c :: pre.reverse := by
    rw [List.dropWhile_append_of_pos hall, List.dropWhile_cons_of_neg (by rw [hc]; decide)]
  unfold partNumber
  simp only [hrev, hafter, List.length_nil, List.drop_zero, htake, hdrop]
  rw [if_neg (by simp [hne])]
  simp

/-- The first word of a line. -/
lemma words_head {w : Text} (hne : w ≠ []) (hw : ∀ c ∈ w, c ≠ ' ' ∧ c ≠ '\t') (rest : Text) :
    words (w ++ ' ' :: rest) = w :: words rest := by
  unfold words
  rw [List.splitOnP_append_cons_of_forall_mem (by simpa using hw) ' ' (by decide),
    List.filter_cons_of_pos (by simpa using hne)]

lemma words_single {w : Text} (hne : w ≠ []) (hw : ∀ c ∈ w, c ≠ ' ' ∧ c ≠ '\t') :
    words w = [w] := by
  unfold words
  rw [List.splitOnP_eq_singleton (by simpa using hw), List.filter_cons_of_pos (by simpa using hne)]
  rfl

/-! ### Printed records -/

/-- The text of a label. -/
def Label.text : Label → Text
  | .dos => "dos".toList
  | .gpt => "gpt".toList

/-- A name as it is printed: in quotes, in one field, and with no key in it. -/
structure NameText (t : Text) : Prop where
  quote : t.head? = some '"'
  comma : ',' ∉ t
  name : ¬ nameKey <:+: t
  attrs : ¬ attrsKey <:+: t

/-- Attributes as they are printed: in one field that begins with no blank, with no key and no
escaped quote in it. -/
structure AttrsText (t : Text) : Prop where
  ne_nil : t ≠ []
  blank : t.head? ≠ some ' '
  comma : ',' ∉ t
  attrs : ¬ attrsKey <:+: t
  escape : ¬ "\\x22".toList <:+: t

/-- A record whose fields have no commas in them. -/
structure Shaped (label : Label) (stem : Text) (p : Part) : Prop where
  device : p.device = stem ++ Nat.toDigits 10 p.number
  type : ∀ c ∈ p.type, isIdent c = true
  dos : label = .dos → p.uuid = [] ∧ p.name = [] ∧ p.attrs = [] ∧
    (p.flags = [] ∨ p.flags = ", bootable".toList)
  gpt : label = .gpt → p.flags = [] ∧ (p.uuid ≠ [] ∧ ∀ c ∈ p.uuid, isIdent c = true) ∧
    ',' ∉ p.name ∧ ',' ∉ p.attrs

/-- A record that is read as it is printed. -/
structure Printable (label : Label) (stem : Text) (p : Part) : Prop
    extends Shaped label stem p where
  name : p.name = [] ∨ NameText p.name
  attrs : p.attrs = [] ∨ AttrsText p.attrs

/-- A field that is printed when it is set, as a piece between commas. -/
def optionalPiece (key value : Text) : List Text :=
  if value = [] then [] else [' ' :: (key ++ value)]

/-- The pieces of a printed line. -/
def linePieces (label : Label) (p : Part) : List Text :=
  [p.device ++ " : ".toList ++ (startKey ++ padded p.start), ' ' :: (sizeKey ++ padded p.size),
    ' ' :: (typeKey ++ p.type)] ++
    match label with
    | .gpt =>
      optionalPiece uuidKey p.uuid ++ optionalPiece nameKey p.name ++ optionalPiece attrsKey p.attrs
    | .dos => if p.flags = [] then [] else [" bootable".toList]

/-- Appending pieces to a line. -/
lemma intercalate_append (ps qs : List Text) (hps : ps ≠ []) :
    [','].intercalate (ps ++ qs) = [','].intercalate ps ++ (qs.flatMap fun q => ',' :: q) := by
  induction ps with
  | nil => exact absurd rfl hps
  | cons p ps ih =>
    cases ps with
    | nil =>
      clear ih hps
      induction qs generalizing p with
      | nil => simp
      | cons q qs ih =>
        have := ih q
        simp only [List.singleton_append, List.intercalate_cons_cons, List.intercalate_singleton,
          List.flatMap_cons] at this ⊢
        rw [this]
        simp
    | cons p' ps =>
      have := ih (by simp)
      simp only [List.cons_append, List.intercalate_cons_cons] at this ⊢
      rw [this]
      simp

lemma optionalPiece_flat (key value : Text) :
    (optionalPiece key value).flatMap (fun q => ',' :: q) = optionalField key value := by
  unfold optionalPiece optionalField
  split
  · rfl
  · rw [List.flatMap_singleton]
    rfl

lemma displayLine_eq {label : Label} {stem : Text} {p : Part} (hp : Shaped label stem p) :
    displayLine label.text p = [','].intercalate (linePieces label p) := by
  unfold linePieces
  rw [intercalate_append _ _ (by simp)]
  unfold displayLine
  cases label with
  | gpt =>
    simp only [List.flatMap_append, optionalPiece_flat]
    rw [if_neg (by decide), if_pos (by decide)]
    simp [List.intercalate, startKey, sizeKey, typeKey]
  | dos =>
    rw [if_neg (by decide), if_neg (by decide)]
    obtain ⟨-, -, -, h | h⟩ := hp.dos rfl
    · simp [h, List.intercalate, startKey, sizeKey, typeKey]
    · simp [h, List.intercalate, startKey, sizeKey, typeKey]

/-- The commas of a printed line are those between its pieces. -/
lemma linePieces_comma {label : Label} {stem : Text} (hs : Stem stem) {p : Part}
    (hp : Shaped label stem p) :
    ∀ piece ∈ linePieces label p, ',' ∉ piece := by
  have hdev : ',' ∉ p.device := by
    rw [hp.device]
    exact not_mem_device hs _ (by decide)
  have hpad : ∀ n, ',' ∉ padded n := fun n => not_mem_padded (by decide) (by decide) (by decide)
  have htype : ',' ∉ p.type := not_mem_of_all hp.type (by decide)
  have hopt : ∀ key value : Text, ',' ∉ key → ',' ∉ value → ∀ piece ∈ optionalPiece key value,
      ',' ∉ piece := by
    intro key value hk hv piece hpiece
    unfold optionalPiece at hpiece
    split at hpiece
    · simp at hpiece
    · rw [List.mem_singleton.mp hpiece]
      simp [hk, hv]
  intro piece hpiece
  unfold linePieces at hpiece
  rcases List.mem_append.mp hpiece with h | h
  · simp only [List.mem_cons, List.not_mem_nil, or_false] at h
    rcases h with rfl | rfl | rfl
    · simp [hdev, hpad, startKey]
    · simp [hpad, sizeKey]
    · simp [htype, typeKey]
  · cases label with
    | dos =>
      simp only at h
      split at h
      · simp at h
      · rw [List.mem_singleton.mp h]
        decide
    | gpt =>
      obtain ⟨-, ⟨-, hu⟩, hname, hattrs⟩ := hp.gpt rfl
      rcases List.mem_append.mp h with h | h
      · rcases List.mem_append.mp h with h | h
        · exact hopt _ _ (by decide) (not_mem_of_all hu (by decide)) _ h
        · exact hopt _ _ (by decide) hname _ h
      · exact hopt _ _ (by decide) hattrs _ h

/-- **The fields of a printed line are its pieces.** -/
lemma splitOn_displayLine {label : Label} {stem : Text} (hs : Stem stem) {p : Part}
    (hp : Shaped label stem p) :
    (displayLine label.text p).splitOn ',' = linePieces label p := by
  have hne : linePieces label p ≠ [] := by
    unfold linePieces
    rw [List.cons_append]
    exact List.cons_ne_nil _ _
  rw [displayLine_eq hp, List.splitOn_intercalate ',' (linePieces_comma hs hp) hne]

lemma words_displayLine {label : Label} {stem : Text} (hs : Stem stem) {p : Part}
    (hp : Shaped label stem p) :
    (words (displayLine label.text p))[0]? = some p.device := by
  have hdev : ∀ c ∈ p.device, c ≠ ' ' ∧ c ≠ '\t' := by
    intro c hc
    rw [hp.device] at hc
    exact ⟨fun h => not_mem_device hs _ (by decide) (h ▸ hc),
      fun h => not_mem_device hs _ (by decide) (h ▸ hc)⟩
  have hne : p.device ≠ [] := by
    rw [hp.device]
    exact List.append_ne_nil_of_right_ne_nil _ Nat.toDigits_ne_nil
  unfold displayLine
  simp only [List.append_assoc]
  rw [show " : start=".toList = ' ' :: ": start=".toList from rfl, List.cons_append,
    words_head hne hdev]
  rfl

/-! ### Reading a printed record -/

lemma int_stripKey {key : Text} (hkey : Tight key) (heq : '=' ∈ key) (pre : Text) (n : ℤ) :
    int (stripKey key (pre ++ (key ++ padded n))) = n := by
  have hin : ¬ key <:+: padded n :=
    not_infix_of_not_mem heq (not_mem_padded (by decide) (by decide) (by decide))
  unfold stripKey
  rw [gsubKey_value hkey pre hin, Option.getD_some, dropWhile_padded, int_decimal]

lemma ident_head {t : Text} (ht : ∀ c ∈ t, isIdent c = true) : t.head? ≠ some ' ' := by
  intro h
  exact absurd (ht ' ' (List.mem_of_mem_head? h)) (by decide)

lemma stripType_value {t : Text} (ht : ∀ c ∈ t, isIdent c = true) :
    stripType (' ' :: (typeKey ++ t)) = t := by
  have heq : '=' ∉ t := not_mem_of_all ht (by decide)
  have h1 : gsubKey typeKey ([' '] ++ (typeKey ++ t)) = some t := by
    rw [gsubKey_value tight_typeKey _ (not_infix_of_not_mem (by decide) heq),
      dropWhile_blank (ident_head ht)]
  have h2 : gsubKey idKey (' ' :: (typeKey ++ t)) = none := by
    rw [gsubKey_eq_none (by decide)]
    have hid : ¬ idKey <:+: t := not_infix_of_not_mem (by decide) heq
    simp [typeKey, idKey, List.infix_cons_iff, List.cons_prefix_cons] at hid ⊢
    exact hid
  unfold stripType
  rw [List.singleton_append] at h1
  rw [h1, h2]

lemma unescapeQuote_eq_self {t : Text} (h : ¬ "\\x22".toList <:+: t) : unescapeQuote t = t := by
  unfold unescapeQuote
  rw [(gsubKey_eq_none (by decide)).mpr h]

lemma truthy_attrs (t : Text) : truthy (' ' :: (attrsKey ++ t)) = true := by
  simp [truthy, attrsKey]

lemma nameAttrs_name {t : Text} (ht : NameText t) :
    nameAttrs ([], []) (' ' :: (nameKey ++ t)) [] = (t, []) := by
  have h1 : gsubKey nameKey ([' '] ++ (nameKey ++ t)) = some t := by
    rw [gsubKey_value tight_nameKey _ ht.name, dropWhile_blank (by rw [ht.quote]; decide)]
  have h2 : gsubKey attrsKey (' ' :: (nameKey ++ t)) = none := by
    rw [gsubKey_eq_none (by decide)]
    have := ht.attrs
    simp [nameKey, attrsKey, List.infix_cons_iff, List.cons_prefix_cons] at this ⊢
    exact this
  rw [List.singleton_append] at h1
  unfold nameAttrs
  rw [h1, h2]
  rfl

/-- Attributes in the fifth field, behind no name. -/
lemma nameAttrs_attrs {t : Text} (ht : AttrsText t) :
    nameAttrs ([], []) (' ' :: (attrsKey ++ t)) [] = ([], t) := by
  have h1 : gsubKey attrsKey ([' '] ++ (attrsKey ++ t)) = some t := by
    rw [gsubKey_value tight_attrsKey _ ht.attrs, dropWhile_blank ht.blank]
  rw [List.singleton_append] at h1
  unfold nameAttrs
  rw [h1]
  cases gsubKey nameKey (' ' :: (attrsKey ++ t)) with
  | none => rfl
  | some _ =>
    simp only [unescapeQuote_eq_self ht.escape]
    rfl

/-- Attributes in the sixth field win. -/
lemma nameAttrs_both (old : Text × Text) (field5 : Text) {t : Text} (ht : AttrsText t) :
    nameAttrs old field5 (' ' :: (attrsKey ++ t)) = ((nameAttrs old field5 []).1, t) := by
  have h1 : stripKey attrsKey ([' '] ++ (attrsKey ++ t)) = t :=
    stripKey_value tight_attrsKey _ ht.attrs ht.blank
  rw [List.singleton_append] at h1
  unfold nameAttrs
  simp only [truthy_attrs, if_true, h1]
  rfl

lemma nameAttrs_nil : nameAttrs ([], []) [] [] = ([], []) := by decide

/-- The type is the first thing called so in a printed line. -/
lemma typeKey_first {stem : Text} (hs : Stem stem) (n : ℕ) (a b : ℤ) :
    ¬ typeKey <:+: stem ++ Nat.toDigits 10 n ++ " : start".toList ++
      '=' :: (padded a ++ ", size".toList ++ '=' :: (padded b ++ ", type".toList)) := by
  have hpad : ∀ m, '=' ∉ padded m := fun m => not_mem_padded (by decide) (by decide) (by decide)
  have hdev := not_mem_device hs n (show isPathChar '=' = false by decide)
  intro h
  have h : "type".toList ++ ['='] <:+: _ := h
  rcases infix_split (by decide) (by simpa using hdev) h with h | h
  · rw [← List.reverse_prefix] at h
    simp [List.cons_prefix_cons] at h
  rcases infix_split (by decide) (by simp [hpad]) h with h | h
  · rw [← List.reverse_prefix] at h
    simp [List.cons_prefix_cons] at h
  · exact not_infix_of_not_mem (c := '=') (by decide) (by simp [hpad]) h

lemma flagsOf_displayLine {stem : Text} (hs : Stem stem) {p : Part} (hp : Shaped .dos stem p) :
    flagsOf typeKey (displayLine Label.dos.text p) = p.flags := by
  have heq : '=' ∉ p.type ++ p.flags := by
    rw [List.mem_append, not_or]
    refine ⟨not_mem_of_all hp.type (by decide), ?_⟩
    obtain ⟨-, -, -, h | h⟩ := hp.dos rfl <;> rw [h] <;> decide
  have hline : displayLine Label.dos.text p = (p.device ++ " : start".toList ++
      '=' :: (padded p.start ++ ", size".toList ++ '=' :: (padded p.size ++ ", ".toList))) ++
      ("type".toList ++ ['='] ++ (p.type ++ p.flags)) := by
    unfold displayLine
    rw [if_neg (by decide), if_neg (by decide)]
    simp [typeKey]
  have hfirst := typeKey_first hs p.number p.start p.size
  have hdrop : ∀ c ∈ p.type, (c != ',' && c != '$') = true := by
    intro c hc
    have h1 : c ≠ ',' :=
      fun h => not_mem_of_all hp.type (show isIdent ',' = false by decide) (h ▸ hc)
    have h2 : c ≠ '$' :=
      fun h => not_mem_of_all hp.type (show isIdent '$' = false by decide) (h ▸ hc)
    simp [h1, h2]
  unfold flagsOf
  rw [hline, show typeKey = "type".toList ++ ['='] from rfl, afterFirst_key, Option.getD_some,
    beforeFirst_eq_self,
    List.dropWhile_append_of_pos hdrop]
  · obtain ⟨-, -, -, h | h⟩ := hp.dos rfl <;> rw [h]
    · rfl
    · decide
  · exact not_infix_of_not_mem (by decide) heq
  · rw [hp.device]
    simpa [typeKey] using hfirst

/-- The pieces of a GPT line. -/
lemma linePieces_gpt {stem : Text} {p : Part} (hp : Shaped .gpt stem p) :
    linePieces .gpt p = [p.device ++ " : ".toList ++ (startKey ++ padded p.start),
      ' ' :: (sizeKey ++ padded p.size),
      ' ' :: (typeKey ++ p.type), ' ' :: (uuidKey ++ p.uuid)] ++
      (optionalPiece nameKey p.name ++ optionalPiece attrsKey p.attrs) := by
  have : optionalPiece uuidKey p.uuid = [' ' :: (uuidKey ++ p.uuid)] := if_neg (hp.gpt rfl).2.1.1
  simp [linePieces, this]

/-- The name and the attributes that are read from the pieces of a GPT line. -/
def readNameAttrs (p : Part) : Text × Text :=
  let pieces := optionalPiece nameKey p.name ++ optionalPiece attrsKey p.attrs
  nameAttrs ([], []) ((pieces[0]?).getD []) ((pieces[1]?).getD [])

/-- **What is read from a printed line**: the record, with its size for its minimum. -/
theorem readPart_shaped {label : Label} {stem : Text} (hs : Stem stem) {p : Part}
    (hp : Shaped label stem p) :
    readPart label.text blankPart (displayLine label.text p) = { p with
      minsize := p.size, name := (readNameAttrs p).1, attrs := (readNameAttrs p).2 } := by
  have hnum : (int (partNumber p.device)).toNat = p.number := by
    rw [hp.device, partNumber_device hs]
    have := int_decimal p.number
    rw [show decimal p.number = Nat.toDigits 10 p.number from rfl] at this
    rw [this, Int.toNat_natCast]
  have hstart := int_stripKey tight_startKey (by decide) (p.device ++ " : ".toList) p.start
  have hsize : int (stripKey sizeKey (' ' :: (sizeKey ++ padded p.size))) = p.size :=
    int_stripKey tight_sizeKey (by decide) [' '] p.size
  have htype := stripType_value hp.type
  have h1 : ((linePieces label p)[1 - 1]?).getD [] = p.device ++ " : ".toList ++
      (startKey ++ padded p.start) := rfl
  have h2 : ((linePieces label p)[2 - 1]?).getD [] = ' ' :: (sizeKey ++ padded p.size) := rfl
  have h3 : ((linePieces label p)[3 - 1]?).getD [] = ' ' :: (typeKey ++ p.type) := rfl
  unfold readPart
  simp only [splitOn_displayLine hs hp, words_displayLine hs hp, Option.getD_some, h1, h2, h3,
    hstart, hsize, htype, hnum]
  cases label with
  | dos =>
    obtain ⟨hu, hn, ha, -⟩ := hp.dos rfl
    have hread : readNameAttrs p = ([], []) := by
      unfold readNameAttrs
      rw [hn, ha]
      exact nameAttrs_nil
    rw [if_pos (by decide), flagsOf_displayLine hs hp, hread]
    simp [blankPart, hu]
  | gpt =>
    obtain ⟨hf, ⟨-, hui⟩, -, -⟩ := hp.gpt rfl
    have heq : '=' ∉ p.uuid := not_mem_of_all hui (by decide)
    have huuid : stripKey uuidKey ([' '] ++ (uuidKey ++ p.uuid)) = p.uuid :=
      stripKey_value tight_uuidKey _ (not_infix_of_not_mem (by decide) heq) (ident_head hui)
    rw [List.singleton_append] at huuid
    have h4 : ((linePieces .gpt p)[4 - 1]?).getD [] = ' ' :: (uuidKey ++ p.uuid) := by
      rw [linePieces_gpt hp]
      rfl
    have h56 : nameAttrs ([], []) (((linePieces .gpt p)[5 - 1]?).getD [])
        (((linePieces .gpt p)[6 - 1]?).getD []) =
        readNameAttrs p := by
      rw [linePieces_gpt hp]
      rfl
    rw [if_neg (by decide), if_pos (by decide)]
    simp only [show blankPart.name = [] from rfl, show blankPart.attrs = [] from rfl,
      h4, h56, huuid]
    simp [blankPart, hf]

lemma optionalPiece_some {key value : Text} (h : value ≠ []) :
    optionalPiece key value = [' ' :: (key ++ value)] := if_neg h

lemma NameText.ne_nil {t : Text} (h : NameText t) : t ≠ [] := by
  rintro rfl
  simpa using h.quote

/-- The name and the attributes of a printable record. -/
lemma Printable.readNameAttrs_eq {label : Label} {stem : Text} {p : Part}
    (hp : Printable label stem p) :
    readNameAttrs p = (p.name, p.attrs) := by
  unfold readNameAttrs
  rcases hp.name with hn | hn <;> rcases hp.attrs with ha | ha
  · rw [hn, ha]
    exact nameAttrs_nil
  · rw [hn, optionalPiece_some ha.ne_nil]
    exact nameAttrs_attrs ha
  · rw [ha, optionalPiece_some hn.ne_nil]
    exact nameAttrs_name hn
  · have h := nameAttrs_both ([], []) (' ' :: (nameKey ++ p.name)) ha
    rw [nameAttrs_name hn] at h
    rw [optionalPiece_some hn.ne_nil, optionalPiece_some ha.ne_nil]
    exact h

end Pxeos.Sfdisk
