import Pxeos.Sfdisk.Printed

/-!
# Reading a dump

A `Dump` is what `sfdisk -d` prints for a disk with a DOS or GPT label.  Its headers set the
variables of the script, and each of its partition lines is read as what the script keeps of the
partition (`readPart_sfdiskLine`): all of it, but for a name that is taken for a corrupted one.
This is so when no text in quotes has a comma in it.
-/

namespace Pxeos.Sfdisk

open Pxeos.Lib

/-! ### Dumps -/

/-- A partition of a dump. -/
structure Entry where
  number : ℕ
  start : ℤ
  size : ℤ
  type : Text
  uuid : Text
  /-- What stands between the quotes; `sfdisk` escapes a quote in it. -/
  name : Option Text
  attrs : Option Text
  bootable : Bool
  deriving DecidableEq, Repr

/-- A text in quotes. -/
def quoted (t : Text) : Text := '"' :: (t ++ ['"'])

/-- The name as it stands in the dump. -/
def Entry.nameText (e : Entry) : Text := (e.name.map quoted).getD []

/-- The attributes as they stand in the dump. -/
def Entry.attrsText (e : Entry) : Text := (e.attrs.map quoted).getD []

/-- A partition line as `sfdisk -d` prints it. -/
def sfdiskLine (label : Label) (stem : Text) (e : Entry) : Text :=
  stem ++ Nat.toDigits 10 e.number ++ " : start=".toList ++ padded e.start ++ ", size=".toList ++
    padded e.size ++
    ", type=".toList ++ e.type ++
    match label with
    | .gpt =>
      ", uuid=".toList ++ e.uuid ++ optionalField nameKey e.nameText ++
        optionalField attrsKey e.attrsText
    | .dos => if e.bootable then ", bootable".toList else []

/-- What `sfdisk` prints in the fields of a partition.  Attributes are words, and bits behind
`GUID:`. -/
structure Entry.Valid (label : Label) (e : Entry) : Prop where
  nonneg : 0 ≤ e.start ∧ 0 ≤ e.size
  type : ∀ c ∈ e.type, isIdent c = true
  uuid : label = .gpt → e.uuid ≠ [] ∧ ∀ c ∈ e.uuid, isIdent c = true
  name : ∀ n ∈ e.name, '"' ∉ n
  attrs : ∀ a ∈ e.attrs, '"' ∉ a ∧ '=' ∉ a ∧ '\\' ∉ a

/-- A line that matches no pattern. -/
def Ignored (line : Text) : Prop := (∀ rule ∈ headerRules, ¬ rule.1 <+: line) ∧ ¬ startKey <:+: line

/-- A word of a header. -/
def HeaderWord (t : Text) : Prop := t ≠ [] ∧ ∀ c ∈ t, isPathChar c = true

/-- A dump of a disk with a DOS or GPT label; a header that is not there is `0`. -/
structure Dump where
  label : Label
  labelId : Text
  device : Text
  firstLba : ℕ
  lastLba : ℕ
  sectorSize : ℕ
  /-- Further headers, such as `grain` and `table-length`. -/
  other : List Text
  stem : Text
  entries : List Entry
  words_ok : HeaderWord labelId ∧ HeaderWord device
  other_ok : ∀ line ∈ other, Ignored line
  stem_ok : Stem stem
  sorted : (entries.map (·.number)).Pairwise (· < ·)
  valid : ∀ e ∈ entries, e.Valid label

/-- The headers of a dump. -/
def headerLines (label labelId device unit : Text) (firstLba lastLba sectorSize : ℤ)
    (other : List Text) : List Text :=
  ["label: ".toList ++ label, "label-id: ".toList ++ labelId, "device: ".toList ++ device,
    "unit: ".toList ++ unit] ++
    numberHeader "first-lba: " firstLba ++ numberHeader "last-lba: " lastLba ++ other ++
    numberHeader "sector-size: " sectorSize ++ [[]]

/-- The lines of a dump. -/
def Dump.lines (d : Dump) : List Text :=
  headerLines d.label.text d.labelId d.device "sectors".toList d.firstLba d.lastLba
    d.sectorSize d.other ++
    d.entries.map (sfdiskLine d.label d.stem)

/-! ### The headers -/

lemma no_headers : ∀ line ∈ ([] : List Text), Ignored line := nofun

lemma headerWord_sda : HeaderWord "/dev/sda".toList := ⟨by decide, List.all_eq_true.mp rfl⟩

lemma HeaderWord.blank {t : Text} (h : HeaderWord t) : ∀ c ∈ t, c ≠ ' ' ∧ c ≠ '\t' := fun c hc =>
  ⟨fun he => not_mem_of_all h.2 (show isPathChar ' ' = false by decide) (he ▸ hc),
    fun he => not_mem_of_all h.2 (show isPathChar '\t' = false by decide) (he ▸ hc)⟩

lemma headerWord_decimal (n : ℤ) : HeaderWord (decimal n) := by
  refine ⟨?_, fun c hc => ?_⟩
  · cases n with
    | ofNat n => exact Nat.toDigits_ne_nil
    | negSucc n => exact List.cons_ne_nil _ _
  · rcases mem_decimal hc with rfl | h
    · decide
    · simp [isPathChar, isIdent, Char.isAlphanum, h]

/-- The value of a header. -/
lemma words_header {key v : Text} (hkey : key ≠ [] ∧ ∀ c ∈ key, c ≠ ' ' ∧ c ≠ '\t')
    (hv : HeaderWord v) :
    words (key ++ ' ' :: v) = [key, v] := by
  rw [words_head hkey.1 hkey.2, words_single hv.1 hv.blank]

/-- A key ends in its colon, and has no blank and no equals sign. -/
lemma headerRules_key {rule : Text × (Scan → Text → Scan)} (h : rule ∈ headerRules) :
    ∃ k : Text, rule.1 = k ++ [':'] ∧ ∀ c ∈ k, isPathChar c = true := by
  simp only [headerRules, List.mem_cons, List.not_mem_nil, or_false] at h
  rcases h with rfl | rfl | rfl | rfl | rfl | rfl | rfl
  · exact ⟨"label".toList, rfl, List.all_eq_true.mp rfl⟩
  · exact ⟨"label-id".toList, rfl, List.all_eq_true.mp rfl⟩
  · exact ⟨"device".toList, rfl, List.all_eq_true.mp rfl⟩
  · exact ⟨"unit".toList, rfl, List.all_eq_true.mp rfl⟩
  · exact ⟨"first-lba".toList, rfl, List.all_eq_true.mp rfl⟩
  · exact ⟨"last-lba".toList, rfl, List.all_eq_true.mp rfl⟩
  · exact ⟨"sector-size".toList, rfl, List.all_eq_true.mp rfl⟩

/-- Rules of which no other matches. -/
lemma foldl_rules (s : Scan) (line value : Text) (rules : List (Text × (Scan → Text → Scan)))
    (h : ∀ rule ∈ rules, ¬ rule.1 <+: line) :
    rules.foldl (fun s rule => if rule.1 <+: line then rule.2 s value else s) s = s := by
  induction rules with
  | nil => rfl
  | cons rule rules ih =>
    rw [List.foldl_cons, if_neg (h rule (by simp))]
    exact ih fun r hr => h r (by simp [hr])

/-- **A header sets its variable.** -/
lemma scanLine_header (s : Scan) {rule : Text × (Scan → Text → Scan)} (hrule : rule ∈ headerRules)
    {v : Text} (hv : HeaderWord v) : scanLine s (rule.1 ++ ' ' :: v) = rule.2 s v := by
  obtain ⟨k, hk, hpath⟩ := headerRules_key hrule
  have hcolon : ':' ∉ k := not_mem_of_all hpath (by decide)
  have hword : (words (rule.1 ++ ' ' :: v))[1]? = some v := by
    rw [words_header ?_ hv]
    · rfl
    · rw [hk]
      refine ⟨by simp, fun c hc => ?_⟩
      rcases List.mem_append.mp hc with hc | hc
      · exact ⟨fun h => not_mem_of_all hpath (show isPathChar ' ' = false by decide) (h ▸ hc),
          fun h => not_mem_of_all hpath (show isPathChar '\t' = false by decide) (h ▸ hc)⟩
      · rw [List.mem_singleton.mp hc]
        decide
  have hstart : ¬ startKey <:+: rule.1 ++ ' ' :: v := by
    have heq : '=' ∉ v := not_mem_of_all hv.2 (by decide)
    have heq' : '=' ∉ k := not_mem_of_all hpath (by decide)
    exact not_infix_of_not_mem (c := '=') (by decide) (by simp [hk, heq, heq'])
  have hother : ∀ rule' ∈ headerRules, rule'.1 <+: rule.1 ++ ' ' :: v → rule'.1 = rule.1 := by
    intro rule' hrule' hp
    obtain ⟨k', hk', hpath'⟩ := headerRules_key hrule'
    rw [hk'] at hp ⊢
    rw [hk, tight_prefix_eq hcolon (not_mem_of_all hpath' (by decide))
      (hk ▸ List.prefix_append rule.1 (' ' :: v)) hp]
  have hnd : (headerRules.map Prod.fst).Nodup := by decide
  unfold scanLine
  simp only [hword, if_neg hstart, Option.getD_some]
  -- the rule stands between rules that do not match
  obtain ⟨before, after, hsplit⟩ := List.append_of_mem hrule
  rw [hsplit] at hother hnd ⊢
  rw [List.map_append, List.map_cons, List.nodup_append, List.nodup_cons] at hnd
  rw [List.foldl_append, List.foldl_cons, foldl_rules s,
    if_pos (List.prefix_append _ _), foldl_rules]
  · intro r hr hp
    exact hnd.2.1.1 (hother r (by simp [hr]) hp ▸ List.mem_map_of_mem hr)
  · intro r hr hp
    exact hnd.2.2 _ (List.mem_map_of_mem hr) _ (by simp) (hother r (by simp [hr]) hp)

lemma scanLine_ignored (s : Scan) {line : Text} (h : Ignored line) : scanLine s line = s := by
  unfold scanLine
  simp only [if_neg h.2]
  exact foldl_rules s line _ _ h.1

lemma ignored_nil : Ignored [] := by
  refine ⟨?_, ?_⟩ <;> decide

lemma foldl_ignored (s : Scan) {lines : List Text} (h : ∀ line ∈ lines, Ignored line) :
    lines.foldl scanLine s = s := by
  induction lines with
  | nil => rfl
  | cons line lines ih =>
    rw [List.foldl_cons, scanLine_ignored s (h line (by simp))]
    exact ih fun l hl => h l (by simp [hl])

lemma foldl_numberHeader (s : Scan) {key : String} {rule : Text × (Scan → Text → Scan)}
    (hrule : rule ∈ headerRules) (hkey : key.toList = rule.1 ++ [' ']) (n : ℤ) :
    (numberHeader key n).foldl scanLine s = if n = 0 then s else rule.2 s (decimal n) := by
  unfold numberHeader
  split
  · rfl
  · rw [List.foldl_cons, List.foldl_nil, hkey, List.append_assoc, List.singleton_append,
      scanLine_header s hrule (headerWord_decimal n)]

/-- **The headers are read.** -/
lemma foldl_headerLines {label labelId device unit : Text} (first last sector : ℤ)
    {other : List Text} (h1 : HeaderWord label) (h2 : HeaderWord labelId) (h3 : HeaderWord device)
    (h4 : HeaderWord unit) (hother : ∀ line ∈ other, Ignored line) :
    (headerLines label labelId device unit first last sector other).foldl scanLine
      ⟨[], [], [], [], 0, 0, 0, []⟩ =
      ⟨label, labelId, device, unit, first, last, sector, []⟩ := by
  have hl : ∀ s, scanLine s ("label: ".toList ++ label) = { s with label := label } := fun s =>
    scanLine_header s
      (show ("label:".toList, fun (s : Scan) v => { s with label := v }) ∈ headerRules from .head _)
        h1
  have hi : ∀ s, scanLine s ("label-id: ".toList ++ labelId) = { s with labelid := labelId } :=
    fun s =>
    scanLine_header s (show ("label-id:".toList, fun (s : Scan) v => { s with labelid := v }) ∈
      headerRules from
      .tail _ (.head _)) h2
  have hd : ∀ s, scanLine s ("device: ".toList ++ device) = { s with device := device } := fun s =>
    scanLine_header s
      (show ("device:".toList, fun (s : Scan) v => { s with device := v }) ∈ headerRules from
      .tail _ (.tail _ (.head _))) h3
  have hu : ∀ s, scanLine s ("unit: ".toList ++ unit) = { s with unit := unit } := fun s =>
    scanLine_header s
      (show ("unit:".toList, fun (s : Scan) v => { s with unit := v }) ∈ headerRules from
      .tail _ (.tail _ (.tail _ (.head _)))) h4
  have hf :=
    fun s =>
      foldl_numberHeader s
        (show ("first-lba:".toList, fun (s : Scan) v => { s with firstlba := int v }) ∈
    headerRules from .tail _ (.tail _ (.tail _ (.tail _ (.head _))))) (show "first-lba: ".toList =
      _ from rfl) first
  have hla :=
    fun s =>
      foldl_numberHeader s
        (show ("last-lba:".toList, fun (s : Scan) v => { s with lastlba := int v }) ∈
    headerRules from .tail _ (.tail _ (.tail _ (.tail _ (.tail _ (.head _))))))
      (show "last-lba: ".toList = _ from rfl) last
  have hse :=
    fun s =>
      foldl_numberHeader s
        (show ("sector-size:".toList, fun (s : Scan) v => { s with sectorsize := int v }) ∈
    headerRules from .tail _ (.tail _ (.tail _ (.tail _ (.tail _ (.tail _ (.head _)))))))
    (show "sector-size: ".toList = _ from rfl) sector
  unfold headerLines
  simp only [List.foldl_append, List.foldl_cons, List.foldl_nil, hl, hi, hd, hu, hf, hla, hse,
    foldl_ignored _ hother,
    scanLine_ignored _ ignored_nil, int_decimal]
  split_ifs <;> simp_all

/-! ### The partition lines -/

/-- A partition line and the record that is read from it. -/
structure Reads (label line : Text) (q : Part) : Prop where
  slash : line.head? = some '/'
  start : startKey <:+: line
  device : (words line)[0]? = some q.device
  record : readPart label blankPart line = q

lemma Reads.scanLine_eq {s : Scan} {line : Text} {q : Part} (h : Reads s.label line q)
    (hnew : q.device ∉ s.parts.map (·.device)) :
    scanLine s line = { s with parts := s.parts ++ [q] } := by
  have hno : ∀ rule ∈ headerRules, ¬ rule.1 <+: line := by
    intro rule hrule hp
    obtain ⟨t, ht⟩ : ∃ t, line = '/' :: t := List.head?_eq_some_iff.mp h.slash
    simp only [headerRules, List.mem_cons, List.not_mem_nil, or_false] at hrule
    rw [ht] at hp
    rcases hrule with rfl | rfl | rfl | rfl | rfl | rfl | rfl <;> simp [List.cons_prefix_cons] at hp
  unfold scanLine
  simp only [if_pos h.start]
  rw [foldl_rules s line _ _ hno]
  unfold scanPart
  simp only [h.device, Option.getD_some, h.record]
  rw [if_neg]
  intro hany
  obtain ⟨p, hp, hpd⟩ := List.any_eq_true.mp hany
  exact hnew (List.mem_map.mpr ⟨p, hp, by simpa using hpd⟩)

/-- **The partition lines are read one after another.** -/
lemma foldl_reads {lines : List Text} {qs : List Part} {label : Text}
    (h : List.Forall₂ (Reads label) lines qs) :
    ∀ {s : Scan}, s.label = label → (s.parts.map (·.device) ++ qs.map (·.device)).Nodup →
      lines.foldl scanLine s = { s with parts := s.parts ++ qs } := by
  induction h with
  | nil =>
    intro s _ _
    simp
  | @cons line q lines qs hr _ ih =>
    intro s hs hnd
    subst hs
    have hnew : q.device ∉ s.parts.map (·.device) := by
      rw [List.map_cons] at hnd
      intro h
      exact (List.nodup_append.mp hnd).2.2 _ h _ (by simp) rfl
    rw [List.foldl_cons, hr.scanLine_eq hnew]
    refine (ih (s := { s with parts := s.parts ++ [q] }) rfl ?_).trans ?_
    · simpa using hnd
    · simp

/-! ### What the script keeps of a partition -/

/-- The fields of a partition as they stand in the dump. -/
def Entry.part (label : Label) (stem : Text) (e : Entry) : Part :=
  { device := stem ++ Nat.toDigits 10 e.number
    number := e.number
    start := e.start
    size := e.size
    minsize := e.size
    type := e.type
    uuid := if label = .gpt then e.uuid else []
    name := if label = .gpt then e.nameText else []
    attrs := if label = .gpt then e.attrsText else []
    flags := if label = .dos ∧ e.bootable then ", bootable".toList else [] }

/-- A name with `attrs=` in it, which the script takes for a corrupted one. -/
def Entry.corrupted (e : Entry) : Bool := (e.name.map fun n => decide (attrsKey <:+: n)).getD false

/-- The attributes rescued from a corrupted name: what follows `attrs=`, from the escaped quote
on. -/
def Entry.rescued (e : Entry) : Text := unescapeQuote ((gsubKey attrsKey e.nameText).getD [])

/-- **What the script keeps**: the fields as they stand in the dump; a corrupted name is dropped,
and its attributes are kept when the dump has no others. -/
def Entry.kept (label : Label) (stem : Text) (e : Entry) : Part :=
  if label = .gpt ∧ e.corrupted = true then
    { e.part label stem with name := [], attrs := if e.attrs = none then
      e.rescued else e.attrsText }
  else e.part label stem

/-- No quoted text has a comma in it, and no name has `name=` in it unless it is taken for a
corrupted one. -/
structure Entry.Plain (e : Entry) : Prop where
  name : ∀ n ∈ e.name, ',' ∉ n ∧ (nameKey <:+: n → attrsKey <:+: n)
  attrs : ∀ a ∈ e.attrs, ',' ∉ a

/-- `sfdisk` and the script print a partition alike. -/
lemma sfdiskLine_eq {label : Label} {stem : Text} {e : Entry} (he : label = .gpt → e.uuid ≠ []) :
    sfdiskLine label stem e = displayLine label.text (e.part label stem) := by
  have hdev : (e.part label stem).device = stem ++ Nat.toDigits 10 e.number := rfl
  unfold sfdiskLine displayLine
  cases label with
  | gpt =>
    have hu : optionalField uuidKey e.uuid = ", uuid=".toList ++ e.uuid := if_neg (he rfl)
    rw [if_neg (show Label.gpt.text ≠ [] by decide),
      if_pos (show Label.gpt.text = "gpt".toList from rfl)]
    show _ = _ ++ (optionalField uuidKey e.uuid ++ optionalField nameKey e.nameText ++ optionalField attrsKey e.attrsText)
    rw [hu, hdev, show ", type=".toList = ", ".toList ++ typeKey from rfl]
    simp only [List.append_assoc]
    rfl
  | dos =>
    have hf : (if e.bootable then ", bootable".toList else []) = (e.part .dos stem).flags := by
      unfold Entry.part
      cases e.bootable <;> rfl
    rw [if_neg (show Label.dos.text ≠ [] by decide),
      if_neg (show Label.dos.text ≠ "gpt".toList by decide), ← hf, hdev,
      show ", type=".toList = ", ".toList ++ typeKey from rfl]
    simp only [List.append_assoc]
    rfl

lemma quoted_contains {key t : Text} (hne : key ≠ []) (hq : '"' ∉ key) :
    key <:+: quoted t ↔ key <:+: t := by
  constructor
  · intro h
    unfold quoted at h
    rw [List.infix_cons_iff] at h
    rcases h with h | h
    · obtain ⟨c, key, rfl⟩ := List.exists_cons_of_ne_nil hne
      rw [List.cons_prefix_cons] at h
      exact absurd (h.1 ▸ List.mem_cons_self) hq
    · rw [List.infix_concat_iff] at h
      rcases h with h | h
      · obtain ⟨s, hs⟩ := h
        have hlast := congrArg List.getLast? hs
        rw [List.getLast?_append_of_ne_nil _ hne, List.getLast?_concat] at hlast
        exact absurd (List.mem_of_getLast? hlast) hq
      · exact h
  · intro h
    exact h.trans ((List.prefix_append t ['"']).isInfix.trans (List.suffix_cons _ _).isInfix)

lemma not_mem_quoted {c : Char} {t : Text} (hq : c ≠ '"') (h : c ∉ t) : c ∉ quoted t := by
  unfold quoted
  simp [h, hq]

section Plain

variable {label : Label} {stem : Text} {e : Entry} (he : e.Valid label) (hp : e.Plain)
include he hp

lemma attrsText_ok : e.attrsText = [] ∨ AttrsText e.attrsText := by
  unfold Entry.attrsText
  cases ha : e.attrs with
  | none => exact .inl rfl
  | some a =>
    obtain ⟨h1, h2, h3⟩ := he.attrs a ha
    right
    rw [Option.map_some, Option.getD_some]
    exact ⟨List.cons_ne_nil _ _, by simp [quoted], not_mem_quoted (by decide) (hp.attrs a ha),
      not_infix_of_not_mem (c := '=') (by decide) (not_mem_quoted (by decide) h2),
      not_infix_of_not_mem (c := '\\') (by decide) (not_mem_quoted (by decide) h3)⟩

omit he in
lemma nameText_ok (hc : e.corrupted = false) : e.nameText = [] ∨ NameText e.nameText := by
  unfold Entry.nameText
  unfold Entry.corrupted at hc
  cases hn : e.name with
  | none => exact .inl rfl
  | some n =>
    rw [hn] at hc
    have hattrs : ¬ attrsKey <:+: n := by simpa using hc
    obtain ⟨h1, h2⟩ := hp.name n hn
    right
    rw [Option.map_some, Option.getD_some]
    refine ⟨rfl, not_mem_quoted (by decide) h1, ?_, ?_⟩
    · rw [quoted_contains (by decide) (by decide)]
      exact fun h => hattrs (h2 h)
    · rwa [quoted_contains (by decide) (by decide)]

omit he in
lemma comma_nameText : ',' ∉ e.nameText := by
  unfold Entry.nameText
  cases hn : e.name with
  | none => simp
  | some n => exact not_mem_quoted (by decide) (hp.name n hn).1

lemma part_shaped : Shaped label stem (e.part label stem) := by
  refine ⟨rfl, he.type, ?_, ?_⟩
  · rintro rfl
    refine ⟨rfl, rfl, rfl, ?_⟩
    unfold Entry.part
    cases e.bootable
    · exact .inl rfl
    · exact .inr rfl
  · rintro rfl
    refine ⟨rfl, he.uuid rfl, comma_nameText hp, ?_⟩
    show ',' ∉ e.attrsText
    rcases attrsText_ok he hp with h | h
    · simp [h]
    · exact h.comma

end Plain

/-- What a rule leaves of a text: its end, with the key and blanks before it. -/
lemma gsubKey_spec {key t r : Text} (hkey : key ≠ []) (h : gsubKey key t = some r) :
    (∃ s b, t = s ++ (key ++ (b ++ r)) ∧ ∀ c ∈ b, c = ' ') ∧ ¬ key <:+: r ∧ r.head? ≠ some ' ' := by
  unfold gsubKey at h
  obtain ⟨r', hr', rfl⟩ := Option.map_eq_some_iff.mp h
  obtain ⟨s, hs⟩ := exists_of_afterLast hr'
  refine ⟨⟨s, r'.takeWhile (· == ' '), ?_, ?_⟩, ?_, ?_⟩
  · rw [List.takeWhile_append_dropWhile]
    exact hs
  · intro c hc
    simpa using List.mem_takeWhile_imp hc
  · exact fun hi => not_infix_of_afterLast hkey hr' (hi.trans (List.dropWhile_suffix _).isInfix)
  · intro hh
    have := List.head?_dropWhile_not (fun c => c == ' ') r'
    rw [hh] at this
    simp at this

/-- The end of a text in quotes is not lost. -/
lemma gsubKey_ne_nil {key t r : Text} (hkey : key ≠ []) (hq : '"' ∉ key)
    (h : gsubKey key t = some r) (ht : t.getLast? = some '"') : r ≠ [] := by
  rintro rfl
  obtain ⟨⟨s, b, rfl, hb⟩, -, -⟩ := gsubKey_spec hkey h
  rw [List.append_nil, List.getLast?_append_of_ne_nil _ (List.append_ne_nil_of_left_ne_nil hkey b)]
    at ht
  rcases List.mem_append.mp (List.mem_of_getLast? ht) with hm | hm
  · exact hq hm
  · exact absurd (hb _ hm) (by decide)

/-- An escaped quote is taken away with what stands before it. -/
lemma unescapeQuote_attrs {t : Text} (h1 : t ≠ []) (h2 : t.head? ≠ some ' ') (h3 : ',' ∉ t)
    (h4 : ¬ attrsKey <:+: t) :
    AttrsText (unescapeQuote t) := by
  unfold unescapeQuote
  cases hg : gsubKey "\\x22".toList t with
  | none => exact ⟨h1, h2, h3, h4, (gsubKey_eq_none (by decide)).mp hg⟩
  | some r =>
    obtain ⟨⟨s, b, rfl, -⟩, hesc, -⟩ := gsubKey_spec (by decide) hg
    have hsub : r <:+: s ++ ("\\x22".toList ++ (b ++ r)) :=
      ((List.suffix_append _ _).trans
        ((List.suffix_append _ _).trans (List.suffix_append _ _))).isInfix
    refine ⟨List.cons_ne_nil _ _, by simp, ?_, ?_, ?_⟩
    · rw [List.mem_cons, not_or]
      exact ⟨by decide, fun hc => h3 (hsub.subset hc)⟩
    · rw [List.infix_cons_iff, not_or]
      refine ⟨fun hp => ?_, fun hi => h4 (hi.trans hsub)⟩
      simp [attrsKey, List.cons_prefix_cons] at hp
    · rw [List.infix_cons_iff, not_or]
      refine ⟨fun hp => ?_, hesc⟩
      simp [List.cons_prefix_cons] at hp

/-- A corrupted name, with what follows its last `attrs=`. -/
lemma corrupted_spec {e : Entry} (hc : e.corrupted = true) :
    ∃ n r, e.name = some n ∧ e.nameText = quoted n ∧ afterLast attrsKey (quoted n) = some r := by
  unfold Entry.corrupted at hc
  cases hn : e.name with
  | none =>
    rw [hn] at hc
    cases hc
  | some n =>
    rw [hn] at hc
    have hin : attrsKey <:+: n := by simpa using hc
    cases hr : afterLast attrsKey (quoted n) with
    | none =>
      exact absurd ((quoted_contains (by decide) (by decide)).mpr hin)
        ((afterLast_eq_none (by decide)).mp hr)
    | some r => exact ⟨n, r, rfl, by simp [Entry.nameText, hn], hr⟩

/-- The rescued attributes are printed as attributes. -/
lemma rescued_ok {e : Entry} (hp : e.Plain) (hc : e.corrupted = true) : AttrsText e.rescued := by
  obtain ⟨n, r, hn, htext, hr⟩ := corrupted_spec hc
  have hg : gsubKey attrsKey e.nameText = some (r.dropWhile (· == ' ')) := by
    rw [htext]
    unfold gsubKey
    rw [hr, Option.map_some]
  obtain ⟨⟨s, b, hs, -⟩, h4, h2⟩ := gsubKey_spec (by decide) hg
  unfold Entry.rescued
  rw [hg, Option.getD_some]
  refine unescapeQuote_attrs (gsubKey_ne_nil (by decide) (by decide) hg ?_) h2
    (fun hm => comma_nameText hp ?_) h4
  · rw [htext]
    show (('"' :: n) ++ ['"']).getLast? = some '"'
    exact List.getLast?_concat
  · rw [hs]
    simp [hm]

/-- The name and the attributes that are read from the line of a corrupted name. -/
lemma nameAttrs_corrupted {e : Entry} (hc : e.corrupted = true) :
    nameAttrs ([], []) (' ' :: (nameKey ++ e.nameText)) [] = ([], e.rescued) := by
  obtain ⟨n, r, hn, htext, hr⟩ := corrupted_spec hc
  have hattrs : gsubKey attrsKey (' ' :: (nameKey ++ e.nameText)) =
      gsubKey attrsKey e.nameText := by
    have := afterLast_append hr (' ' :: nameKey)
    unfold gsubKey
    rw [htext, hr, ← List.cons_append, this]
  obtain ⟨a, ha⟩ : ∃ a, gsubKey attrsKey e.nameText = some a := by
    unfold gsubKey
    rw [htext, hr]
    exact ⟨_, rfl⟩
  obtain ⟨x, hx⟩ : ∃ x, gsubKey nameKey (' ' :: (nameKey ++ e.nameText)) = some x := by
    cases hx : gsubKey nameKey (' ' :: (nameKey ++ e.nameText)) with
    | none =>
      refine absurd ?_ ((gsubKey_eq_none (by decide)).mp hx)
      exact (List.prefix_append _ _).isInfix.trans (List.suffix_cons _ _).isInfix
    | some x => exact ⟨x, rfl⟩
  unfold Entry.rescued nameAttrs
  rw [hattrs, ha, hx]
  rfl

section Kept

variable {label : Label} {stem : Text} {e : Entry} (he : e.Valid label) (hp : e.Plain)
include he hp

/-- What the script keeps is printed and read as it is. -/
lemma kept_printable : Printable label stem (e.kept label stem) := by
  have hshape : Shaped label stem (e.part label stem) := part_shaped he hp
  unfold Entry.kept
  split
  next h =>
    obtain ⟨rfl, hc⟩ := h
    obtain ⟨hf, hu, -, ha⟩ := hshape.gpt rfl
    have hattrs : AttrsText (if e.attrs = none then e.rescued else e.attrsText) := by
      split
      · exact rescued_ok hp hc
      next hne =>
        refine (attrsText_ok he hp).resolve_left fun h => ?_
        obtain ⟨a, ha⟩ := Option.ne_none_iff_exists'.mp hne
        simp [Entry.attrsText, ha, quoted] at h
    exact
      { device := hshape.device
        type := hshape.type
        dos := fun h => by cases h
        gpt := fun _ => ⟨hf, hu, by simp, hattrs.comma⟩
        name := .inl rfl
        attrs := .inr hattrs }
  next h =>
    refine { hshape with name := ?_, attrs := ?_ }
    · cases label with
      | dos => exact .inl rfl
      | gpt => exact nameText_ok hp (by simpa using h)
    · cases label with
      | dos => exact .inl rfl
      | gpt => exact attrsText_ok he hp

/-- **The line of a partition in the dump is read as what the script keeps.** -/
lemma readPart_sfdiskLine (hs : Stem stem) :
    readPart label.text blankPart (sfdiskLine label stem e) = e.kept label stem := by
  have hprint : Printable label stem (e.kept label stem) := kept_printable he hp
  rw [sfdiskLine_eq fun h => (he.uuid h).1, readPart_shaped hs (part_shaped he hp)]
  unfold Entry.kept at hprint ⊢
  split
  next h =>
    rw [if_pos h] at hprint
    obtain ⟨rfl, hc⟩ := h
    obtain ⟨n, r, hn, htext, -⟩ := corrupted_spec hc
    have hread : readNameAttrs (e.part .gpt stem) =
        ([], if e.attrs = none then e.rescued else e.attrsText) := by
      have hname : optionalPiece nameKey (e.part .gpt stem).name =
          [' ' :: (nameKey ++ e.nameText)] := by
        refine optionalPiece_some ?_
        show e.nameText ≠ []
        rw [htext]
        exact List.cons_ne_nil _ _
      unfold readNameAttrs
      rw [hname, show (e.part .gpt stem).attrs = e.attrsText from rfl]
      cases ha : e.attrs with
      | none =>
        rw [show e.attrsText = [] by simp [Entry.attrsText, ha]]
        exact nameAttrs_corrupted hc
      | some a =>
        have hat : AttrsText e.attrsText :=
          (attrsText_ok he hp).resolve_left (by simp [Entry.attrsText, ha, quoted])
        have hboth := nameAttrs_both ([], []) (' ' :: (nameKey ++ e.nameText)) hat
        rw [nameAttrs_corrupted hc] at hboth
        rw [optionalPiece_some hat.ne_nil]
        exact hboth
    rw [hread]
    rfl
  next h =>
    rw [if_neg h] at hprint
    rw [hprint.readNameAttrs_eq]
    rfl

end Kept

end Pxeos.Sfdisk
