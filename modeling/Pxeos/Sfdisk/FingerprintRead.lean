import Pxeos.Sfdisk.FingerprintLines
import Pxeos.Sfdisk.RoundTrip

/-!
# Reading a dump for its fingerprint

The headers of a dump are counted and printed (`LayoutDump.foldl_headers`), and what is printed for
a partition depends on its line alone (`foldl_lines`).
-/

namespace Pxeos.Sfdisk

open Pxeos.Lib

/-! ### Headers -/

lemma rule_key {rule : HeaderRule} (h : rule ∈ fingerprintRules) :
    ∀ c ∈ rule.key, isPathChar c = true := by
  simp only [fingerprintRules, List.mem_cons, List.not_mem_nil, or_false] at h
  rcases h with rfl | rfl | rfl | rfl | rfl | rfl | rfl <;> exact List.all_eq_true.mp rfl

lemma rule_keys_nodup : (fingerprintRules.map HeaderRule.key).Nodup := by decide

/-- A header is read by its own rule. -/
lemma find_rule {rule : HeaderRule} (h : rule ∈ fingerprintRules) (rest : Text) :
    fingerprintRules.find? (fun r => (r.key ++ [':']).isPrefixOf (rule.key ++ ':' :: rest)) =
      some rule := by
  have hmatch : (rule.key ++ [':']).isPrefixOf (rule.key ++ ':' :: rest) = true :=
    List.isPrefixOf_iff_prefix.mpr ⟨rest, by simp⟩
  have hcolon : ∀ r ∈ fingerprintRules, ':' ∉ r.key :=
    fun r hr => not_mem_of_all (rule_key hr) (by decide)
  cases hf :
      fingerprintRules.find? (fun r => (r.key ++ [':']).isPrefixOf (rule.key ++ ':' :: rest)) with
  | none =>
    rw [List.find?_eq_none] at hf
    exact absurd hmatch (hf rule h)
  | some r =>
    have hr := List.mem_of_find?_eq_some hf
    have hp := List.find?_some hf
    rw [List.isPrefixOf_iff_prefix] at hp
    have hkey :=
      tight_prefix_eq (hcolon r hr) (hcolon rule h) hp (List.isPrefixOf_iff_prefix.mp hmatch)
    rw [List.inj_on_of_nodup_map rule_keys_nodup hr h hkey]

lemma HeaderWord.trim {v : Text} (hv : HeaderWord v) : trim v = v :=
  trim_eq_self fun c hc => isSpace_of_isPathChar (hv.2 c hc)

/-- **A header is counted and printed.** -/
lemma readLine_header (s : Reading) {rule : HeaderRule} (h : rule ∈ fingerprintRules) {v : Text}
    (hv : HeaderWord v) (hnew : rule.key ∉ s.headers) (hok : rule.accepts v = true) :
    readLine s (rule.key ++ ':' :: ' ' :: v) =
      { s with
        headers := rule.key :: s.headers
        table := if rule.key = "label".toList then tolower v else s.table
        out := s.out ++ [headerLine rule.key (rule.shown v)] } := by
  have hword : (words (rule.key ++ ':' :: ' ' :: v))[1]? = some v := by
    have hkey : ∀ c ∈ rule.key ++ [':'], c ≠ ' ' ∧ c ≠ '\t' := by
      intro c hc
      rcases List.mem_append.mp hc with hc | hc
      · exact ⟨fun he => not_mem_of_all (rule_key h)
          (show isPathChar ' ' = false by decide) (he ▸ hc),
          fun he => not_mem_of_all (rule_key h) (show isPathChar '\t' = false by decide) (he ▸ hc)⟩
      · rw [List.mem_singleton.mp hc]
        decide
    have := words_header ⟨by simp, hkey⟩ hv
    rw [List.append_assoc, List.singleton_append] at this
    rw [this]
    rfl
  have hcontains : s.headers.contains rule.key = false := by simpa using hnew
  unfold readLine
  rw [find_rule h]
  unfold readHeader
  simp only [hword, Option.getD_some, hv.trim, hcontains, hok, Bool.not_true, Bool.or_false]

/-- A line that matches no pattern. -/
lemma readLine_ignored (s : Reading) {line : Text} (h : Ignored line) : readLine s line = s := by
  have hno : fingerprintRules.find? (fun r => (r.key ++ [':']).isPrefixOf line) = none := by
    rw [List.find?_eq_none]
    intro rule hrule hp
    have hp := List.isPrefixOf_iff_prefix.mp hp
    simp only [fingerprintRules, List.mem_cons, List.not_mem_nil, or_false] at hrule
    have hmem : ∀ key : Text, key ∈ headerRules.map Prod.fst → ¬ key <+: line := by
      intro key hkey
      obtain ⟨rule, hrule, rfl⟩ := List.mem_map.mp hkey
      exact h.1 rule hrule
    rcases hrule with rfl | rfl | rfl | rfl | rfl | rfl | rfl <;> exact hmem _ (by decide) hp
  unfold readLine
  rw [hno]
  exact if_neg h.2

lemma foldl_readLine_ignored (s : Reading) {lines : List Text} (h : ∀ line ∈ lines, Ignored line) : lines.foldl readLine s = s := by
  induction lines with
  | nil => rfl
  | cons line lines ih =>
    rw [List.foldl_cons, readLine_ignored s (h line (by simp))]
    exact ih fun l hl => h l (by simp [hl])

/-- A header and its value. -/
structure HeaderItem where
  rule : HeaderRule
  value : Text

/-- A header that is accepted. -/
structure HeaderItem.Ok (x : HeaderItem) : Prop where
  rule : x.rule ∈ fingerprintRules
  word : HeaderWord x.value
  accepts : x.rule.accepts x.value = true

/-- The line of a header. -/
def HeaderItem.line (x : HeaderItem) : Text := x.rule.key ++ ':' :: ' ' :: x.value

/-- What is printed for a header. -/
def HeaderItem.shown (x : HeaderItem) : Text := headerLine x.rule.key (x.rule.shown x.value)

/-- **Headers behind the label are counted and printed one after another.** -/
lemma foldl_items {xs : List HeaderItem} (hok : ∀ x ∈ xs, x.Ok ∧ x.rule.key ≠ "label".toList) :
    ∀ s : Reading, (xs.map (·.rule.key)).Nodup → (∀ x ∈ xs, x.rule.key ∉ s.headers) → (xs.map HeaderItem.line).foldl readLine s =
      { s with
        headers := (xs.map (·.rule.key)).reverse ++ s.headers,
        out := s.out ++ xs.map HeaderItem.shown } := by
  induction xs with
  | nil =>
    intro s _ _
    simp
  | cons x xs ih =>
    intro s hnd hnew
    obtain ⟨hx, hlabel⟩ := hok x (by simp)
    rw [List.map_cons, List.nodup_cons] at hnd
    have hstep : readLine s x.line = { s with
        headers := x.rule.key :: s.headers, out := s.out ++ [x.shown] } := by
      refine (readLine_header s hx.rule hx.word (hnew x (by simp)) hx.accepts).trans ?_
      rw [if_neg hlabel]
      rfl
    rw [List.map_cons, List.foldl_cons, hstep, ih (fun y hy => hok y (by simp [hy])) _ hnd.2]
    · simp
    · intro y hy hmem
      rcases List.mem_cons.mp hmem with h | h
      · exact hnd.1 (List.mem_map.mpr ⟨y, hy, h⟩)
      · exact hnew y (by simp [hy]) h

/-- A header with a number, when it is there. -/
def numberItem (rule : HeaderRule) (n : ℕ) : List HeaderItem :=
  if n = 0 then [] else [⟨rule, decimal n⟩]

lemma mem_numberItem {rule : HeaderRule} {n : ℕ} {x : HeaderItem} :
    x ∈ numberItem rule n ↔ 0 < n ∧ x = ⟨rule, decimal n⟩ := by
  unfold numberItem
  split
  next h => simp [h]
  next h => simp [Nat.pos_of_ne_zero h]

lemma numberItem_lines (rule : HeaderRule) (key : String) (h : key.toList = rule.key ++ [':', ' '])
    (n : ℕ) :
    numberHeader key n = (numberItem rule n).map HeaderItem.line := by
  unfold numberHeader numberItem
  split
  next h0 => rw [if_pos (by omega), List.map_nil]
  next h0 =>
    rw [if_neg (by omega), List.map_singleton, h]
    simp [HeaderItem.line]

lemma isPathChar_of_isHex {c : Char} (h : isHex c = true) : isPathChar c = true := by
  unfold isHex at h
  rcases Bool.or_eq_true_iff.mp h with h | h
  · rcases Bool.or_eq_true_iff.mp h with h | h
    · exact isPathChar_of_isDigit h
    · simp only [Bool.and_eq_true, decide_eq_true_eq, Char.le_def, UInt32.le_iff_toNat_le] at h
      have hup : c.isUpper = true := by
        simp only [isUpper_eq, ge_iff_le, decide_eq_true_eq, UInt32.le_iff_toNat_le]
        exact ⟨h.1, h.2.trans (by decide)⟩
      simp [isPathChar, isIdent, Char.isAlphanum, isAlpha_eq, hup]
  · simp only [Bool.and_eq_true, decide_eq_true_eq, Char.le_def, UInt32.le_iff_toNat_le] at h
    have hlow : c.isLower = true := by
      simp only [isLower_eq, ge_iff_le, Bool.and_eq_true, decide_eq_true_eq, UInt32.le_iff_toNat_le]
      exact ⟨h.1, h.2.trans (by decide)⟩
    simp [isPathChar, isIdent, Char.isAlphanum, isAlpha_eq, hlow]

lemma headerWord_labelId {t : Text} (h : isLabelId t = true) : HeaderWord t := by
  unfold isLabelId at h
  rcases Bool.or_eq_true_iff.mp h with h | h
  · simp only [Bool.and_eq_true, Bool.not_eq_true', List.isEmpty_eq_false_iff, List.all_eq_true,
      Bool.or_eq_true,
      beq_iff_eq] at h
    refine ⟨h.1, fun c hc => ?_⟩
    rcases h.2 c hc with h | rfl
    · exact isPathChar_of_isHex h
    · decide
  · split at h
    next t =>
      simp only [Bool.and_eq_true, List.all_eq_true] at h
      refine ⟨List.cons_ne_nil _ _, fun c hc => ?_⟩
      rcases List.mem_cons.mp hc with rfl | hc
      · decide
      · rcases List.mem_cons.mp hc with rfl | hc
        · decide
        · exact isPathChar_of_isHex (h.2 c hc)
    next => cases h

namespace LayoutDump

variable (d : LayoutDump)

/-- The headers between the label and the further ones. -/
def innerItems : List HeaderItem :=
  [⟨labelIdRule, d.labelId⟩, ⟨deviceRule, d.device⟩, ⟨unitRule, "sectors".toList⟩] ++
    numberItem firstLbaRule d.firstLba ++
    numberItem lastLbaRule d.lastLba

/-- The headers of a dump. -/
def items : List HeaderItem :=
  ⟨labelRule, d.label.text⟩ :: d.innerItems ++ [⟨sectorSizeRule, decimal d.sectorSize⟩]

lemma ok_number {rule : HeaderRule} (hr : rule ∈ fingerprintRules)
    (hacc : rule.accepts = isPositive) {n : ℕ} (hn : 0 < n) :
    HeaderItem.Ok ⟨rule, decimal n⟩ :=
  ⟨hr, headerWord_decimal n, by rw [hacc]; exact isPositive_decimal (Int.natCast_pos.mpr hn)⟩

lemma ok_innerItems : ∀ x ∈ d.innerItems, x.Ok ∧ x.rule.key ≠ "label".toList := by
  intro x hx
  simp only [innerItems, List.mem_append, List.mem_cons, List.not_mem_nil, or_false,
    mem_numberItem] at hx
  rcases hx with ((rfl | rfl | rfl) | ⟨hn, rfl⟩) | ⟨hn, rfl⟩
  · exact ⟨⟨by simp [fingerprintRules], headerWord_labelId d.labelId_ok, d.labelId_ok⟩,
      show labelIdRule.key ≠ _ by decide⟩
  · exact ⟨⟨by simp [fingerprintRules], d.device_ok.1,
      List.isPrefixOf_iff_prefix.mpr d.device_ok.2⟩, show deviceRule.key ≠ _ by decide⟩
  · exact ⟨⟨by simp [fingerprintRules], headerWord_sectors, by decide⟩, by decide⟩
  · exact ⟨ok_number (by simp [fingerprintRules]) rfl hn, show firstLbaRule.key ≠ _ by decide⟩
  · exact ⟨ok_number (by simp [fingerprintRules]) rfl hn, show lastLbaRule.key ≠ _ by decide⟩

/-- The keys of the headers are those of the rules, in their order. -/
lemma items_keys : (d.items.map (·.rule.key)).Nodup := by
  have hsub : (d.items.map (·.rule)).Sublist fingerprintRules := by
    have hopt : ∀ rule n, ((numberItem rule n).map (·.rule)).Sublist [rule] := by
      intro rule n
      unfold numberItem
      split
      · exact List.nil_sublist _
      · exact List.Sublist.refl _
    unfold items innerItems
    simp only [List.map_cons, List.map_append, List.map_nil]
    exact ((((List.Sublist.refl [labelRule, labelIdRule, deviceRule, unitRule]).append
      (hopt _ _)).append (hopt _ _)).append
      (List.Sublist.refl [sectorSizeRule]))
  have := (hsub.map HeaderRule.key).nodup rule_keys_nodup
  rwa [List.map_map] at this

/-- What has been read when the partition lines begin. -/
def start : Reading :=
  ⟨(d.items.map (·.rule.key)).reverse, d.label.text, [], 0, false, d.items.map HeaderItem.shown⟩

/-- **The headers are read.** -/
lemma foldl_headers :
    (headerLines d.label.text d.labelId d.device "sectors".toList d.firstLba d.lastLba d.sectorSize
      d.other).foldl readLine
      ⟨[], [], [], 0, false, []⟩ = d.start := by
  have hlines : headerLines d.label.text d.labelId d.device "sectors".toList d.firstLba d.lastLba
      d.sectorSize d.other =
      HeaderItem.line ⟨labelRule, d.label.text⟩ :: (d.innerItems.map HeaderItem.line ++ (d.other ++
        ([⟨sectorSizeRule, decimal d.sectorSize⟩].map HeaderItem.line ++ [[]]))) := by
    have hsector : (d.sectorSize : ℤ) ≠ 0 := by
      have := d.sector_ok
      omega
    have hfirst := numberItem_lines firstLbaRule "first-lba: " rfl d.firstLba
    have hlast := numberItem_lines lastLbaRule "last-lba: " rfl d.lastLba
    have hsize : numberHeader "sector-size: " d.sectorSize =
        [HeaderItem.line ⟨sectorSizeRule, decimal d.sectorSize⟩] := if_neg hsector
    have hfour : ["label: ".toList ++ d.label.text, "label-id: ".toList ++ d.labelId,
        "device: ".toList ++ d.device,
        "unit: ".toList ++ "sectors".toList] = HeaderItem.line ⟨labelRule, d.label.text⟩ ::
          [⟨labelIdRule, d.labelId⟩, ⟨deviceRule, d.device⟩, ⟨unitRule, "sectors".toList⟩].map
            HeaderItem.line := rfl
    unfold headerLines innerItems
    rw [hfirst, hlast, hsize, hfour]
    simp only [List.map_append, List.append_assoc, List.cons_append, List.map_cons, List.map_nil,
      List.nil_append]
  have hlabel : readLine ⟨[], [], [], 0, false, []⟩ (HeaderItem.line ⟨labelRule, d.label.text⟩) =
      ⟨["label".toList], d.label.text, [], 0, false,
        [HeaderItem.shown ⟨labelRule, d.label.text⟩]⟩ := by
    refine (readLine_header _ (by simp [fingerprintRules]) d.label.headerWord (by simp) ?_).trans ?_
    · cases d.label <;> decide
    · cases d.label <;> rfl
  have hkeys := d.items_keys
  unfold items at hkeys
  simp only [List.map_cons, List.cons_append, List.map_append, List.map_nil, List.nodup_cons,
    List.nodup_append,
    List.mem_append] at hkeys
  obtain ⟨hnot, hinner, -, hlast⟩ := hkeys
  have hsector : ∀ x ∈ [(⟨sectorSizeRule, decimal d.sectorSize⟩ : HeaderItem)], x.Ok ∧
      x.rule.key ≠ "label".toList := by
    intro x hx
    rw [List.mem_singleton.mp hx]
    exact ⟨ok_number (by simp [fingerprintRules]) rfl d.sector_ok,
      show sectorSizeRule.key ≠ _ by decide⟩
  rw [hlines, List.foldl_cons, hlabel, List.foldl_append, foldl_items d.ok_innerItems _ hinner, List.foldl_append,
    foldl_readLine_ignored _ d.other_ok, List.foldl_append, foldl_items hsector _ (by simp)]
  · rw [List.foldl_cons, List.foldl_nil, readLine_ignored _ ignored_nil]
    unfold start items
    simp only [List.map_cons, List.map_append, List.map_nil, List.cons_append, List.reverse_cons, List.reverse_append,
      List.reverse_nil, List.nil_append]
    rfl
  · intro x hx hmem
    rw [List.mem_singleton.mp hx] at hmem
    rcases List.mem_append.mp hmem with h | h
    · exact hlast _ (List.mem_reverse.mp h) _ (by simp) rfl
    · exact absurd (List.mem_singleton.mp h) (show sectorSizeRule.key ≠ "label".toList by decide)
  · intro x hx hmem
    rw [List.mem_singleton] at hmem
    exact hnot (.inl (List.mem_map.mpr ⟨x, hx, hmem⟩))

end LayoutDump

/-! ### Partitions -/

lemma pathOf_line {label : Label} {stem : Text} (hs : Stem stem) (e : Entry) :
    pathOf (sfdiskLine label stem e) = stem ++ Nat.toDigits 10 e.number := by
  have hpath : ∀ c ∈ stem ++ Nat.toDigits 10 e.number, c ≠ ' ' ∧ c ≠ '\t' := by
    intro c hc
    exact ⟨fun h => not_mem_device hs e.number (by decide) (h ▸ hc),
      fun h => not_mem_device hs e.number (by decide) (h ▸ hc)⟩
  have hne : stem ++ Nat.toDigits 10 e.number ≠ [] :=
    List.append_ne_nil_of_right_ne_nil _ Nat.toDigits_ne_nil
  unfold pathOf
  rw [sfdiskLine_text, show " : ".toList = ' ' :: ": ".toList from rfl, List.cons_append,
    words_head hne hpath]
  rfl

/-- **The number of a partition is found again** at the end of its path. -/
lemma trailingNumber_device {stem : Text} (hs : Stem stem) (n : ℕ) :
    trailingNumber (stem ++ Nat.toDigits 10 n) = Nat.toDigits 10 n := by
  obtain ⟨pre, c, rfl, hc⟩ := hs.last
  unfold trailingNumber List.rtakeWhile
  have hall : ∀ d ∈ (Nat.toDigits 10 n).reverse, d.isDigit = true := fun d hd =>
    isDigit_of_mem_toDigits (List.mem_reverse.mp hd)
  rw [List.reverse_append, List.reverse_append, List.reverse_singleton, List.singleton_append,
    List.takeWhile_append_of_pos hall, List.takeWhile_cons_of_neg (by simp [hc]), List.append_nil,
      List.reverse_reverse]

/-- What is printed for a partition. -/
def Entry.printed (label : Label) (stem : Text) (e : Entry) : Option Text :=
  readRecord (Nat.toDigits 10 e.number) (sfdiskLine label stem e)

/-- A partition line is no header. -/
lemma readLine_line {label : Label} {stem : Text} (hs : Stem stem) {e : Entry} (hn : 0 < e.number) {s : Reading}
    (hnew : Nat.toDigits 10 e.number ∉ s.seen) : readLine s (sfdiskLine label stem e) =
      match e.printed label stem with
      | none => { s with seen := Nat.toDigits 10 e.number :: s.seen, bad := true }
      | some text => { s with
          seen := Nat.toDigits 10 e.number :: s.seen, parts := s.parts + 1,
          out := s.out ++ [text] } := by
  have hslash : ∃ t, stem = '/' :: t := List.head?_eq_some_iff.mp hs.slash
  have hno :
      fingerprintRules.find? (fun r => (r.key ++ [':']).isPrefixOf (sfdiskLine label stem e)) =
        none := by
    rw [List.find?_eq_none]
    intro rule hrule hp
    have hp := List.isPrefixOf_iff_prefix.mp hp
    obtain ⟨t, rfl⟩ := hslash
    rw [sfdiskLine_text] at hp
    have hfirst : (rule.key ++ [':']).head? = some '/' := by
      obtain ⟨c, k, hk⟩ := List.exists_cons_of_ne_nil (show rule.key ++ [':'] ≠ [] by simp)
      rw [hk] at hp ⊢
      rw [(List.cons_prefix_cons.mp hp).1]
      rfl
    simp only [fingerprintRules, List.mem_cons, List.not_mem_nil, or_false] at hrule
    rcases hrule with rfl | rfl | rfl | rfl | rfl | rfl | rfl <;> exact absurd hfirst (by decide)
  have hstart : startKey <:+: sfdiskLine label stem e := by
    rw [sfdiskLine_text]
    unfold lineText
    exact (List.prefix_append _ _).isInfix.trans
      ((List.suffix_append _ _).isInfix.trans (List.suffix_append _ _).isInfix)
  have hall : (stem ++ Nat.toDigits 10 e.number).all Char.isDigit = false := by
    obtain ⟨t, rfl⟩ := hslash
    rfl
  have hcontains : s.seen.contains (Nat.toDigits 10 e.number) = false := by simpa using hnew
  unfold readLine
  rw [hno]
  simp only [if_pos hstart]
  unfold readPartition
  simp only [pathOf_line hs, trailingNumber_device hs, hall, isPositive_toDigits hn, hcontains]
  rfl

/-- **The partition lines are read one after another.** -/
lemma foldl_lines {label : Label} {stem : Text} (hs : Stem stem) {es : List Entry} (hpos : ∀ e ∈ es, 0 < e.number) :
    ∀ s : Reading, (es.map (·.number)).Nodup → (∀ e ∈ es, Nat.toDigits 10 e.number ∉ s.seen) →
      ∃ seen, (es.map (sfdiskLine label stem)).foldl readLine s =
        { s with
          seen := seen
          parts := s.parts + (es.filterMap (Entry.printed label stem)).length
          bad := s.bad || es.any fun e => (e.printed label stem).isNone
          out := s.out ++ es.filterMap (Entry.printed label stem) } := by
  induction es with
  | nil =>
    intro s _ _
    exact ⟨s.seen, by simp⟩
  | cons e es ih =>
    intro s hnd hnew
    rw [List.map_cons, List.nodup_cons] at hnd
    have hlater : ∀ x ∈ es, Nat.toDigits 10 x.number ∉ Nat.toDigits 10 e.number :: s.seen := by
      intro x hx hmem
      rcases List.mem_cons.mp hmem with h | h
      · exact hnd.1 (List.mem_map.mpr ⟨x, hx, toDigits_injective h⟩)
      · exact hnew x (by simp [hx]) h
    rw [List.map_cons, List.foldl_cons, readLine_line hs (hpos e (by simp)) (hnew e (by simp))]
    cases hp : e.printed label stem with
    | none =>
      obtain ⟨seen, h⟩ := ih (fun x hx => hpos x (by simp [hx]))
        { s with seen := Nat.toDigits 10 e.number :: s.seen, bad := true } hnd.2 hlater
      exact ⟨seen, by simp [h, hp]⟩
    | some text =>
      obtain ⟨seen, h⟩ := ih (fun x hx => hpos x (by simp [hx]))
        { s with
          seen := Nat.toDigits 10 e.number :: s.seen, parts := s.parts + 1,
          out := s.out ++ [text] } hnd.2 hlater
      refine ⟨seen, ?_⟩
      simp only [h, hp, List.filterMap_cons_some hp, List.length_cons, List.any_cons, Option.isNone_some, Bool.false_or,
        List.append_assoc, List.singleton_append]
      congr 1
      omega

end Pxeos.Sfdisk
