import Pxeos.Lib.Forest
import Pxeos.Restore.Metadata

/-!
# The layout of the metadata

Blocks in blocks, one item a line, and what the rules for one record do with each kind of line.
-/

namespace Pxeos.Restore

open Pxeos.Lib

/-! ### Lines -/

/-- A text that is quoted at the beginning of a value. -/
def quoted (value : Str) : Option Str :=
  match value with
  | '"' :: s => if '"' ∈ s then some (s.takeWhile (· ≠ '"')) else none
  | _ => none

/-- The quoted `id` of a field, if it is one. -/
def idOf (field : Str × Str) : Option Str := if field.1 = "id".toList then quoted field.2 else none

/-- An `id` that is not empty. -/
def filledId (field : Str × Str) : Option Str := (idOf field).filter (· ≠ [])

/-- A text without braces. -/
def NoBraces (s : Str) : Prop := '{' ∉ s ∧ '}' ∉ s

def Blank (s : Str) : Prop := ∀ c ∈ s, isSpace c = true

/-- A name of a block or a key. -/
def IsName (s : Str) : Prop := s ≠ [] ∧ ∀ c ∈ s, isNameChar c = true

/-- One line of the layout, and what it is: nothing, or an item. -/
inductive LineOf : Str → Option (Item Str (Str × Str)) → Prop
  | blank {line : Str} (h : Blank line) : LineOf line none
  | comment {before text : Str} (h : Blank before) : LineOf (before ++ '#' :: text) none
  | opens {before name between after : Str} (hb : Blank before) (hname : IsName name)
      (hm : Blank between) (ha : NoBraces after) :
      LineOf (before ++ (name ++ (between ++ '{' :: after))) (some (.opens name))
  | closes {before after : Str} (hb : Blank before) (ha : NoBraces after) :
      LineOf (before ++ '}' :: after) (some .closes)
  | field {before key between space value : Str} (hb : Blank before) (hkey : IsName key)
      (hm : Blank between) (hs : Blank space)
      (hvalue : NoBraces value) (hfirst : value.dropWhile isSpace = value) :
      LineOf (before ++ (key ++ (between ++ '=' :: (space ++ value)))) (some (.leaf (key, value)))
  /-- Another line of a list. -/
  | more {before rest : Str} {c : Char} (hb : Blank before) (hspace : isSpace c = false)
      (hname : isNameChar c = false)
      (hc : c ≠ '#') (h : NoBraces (c :: rest)) : LineOf (before ++ c :: rest) none

/-- A text in the layout, with the items of its lines. -/
structure LvmText where
  content : Str
  lines : List (Option (Item Str (Str × Str)))
  layout : List.Forall₂ (fun record item => LineOf (stripCr record) item) (records content) lines

def LvmText.items (text : LvmText) : List (Item Str (Str × Str)) := text.lines.filterMap id

/-! ### Patterns -/

section Patterns

lemma dropWhile_blank {before : Str} (h : Blank before) (s : Str) :
    (before ++ s).dropWhile isSpace = s.dropWhile isSpace :=
  List.dropWhile_append_of_pos h

lemma isSpace_of_isNameChar {c : Char} (h : isNameChar c = true) : isSpace c = false := by
  simp only [isNameChar, Bool.or_eq_true, beq_iff_eq] at h
  rcases h with (((h | rfl) | rfl) | rfl) | rfl
  · exact isSpace_of_isAlphanum h
  all_goals decide

/-- What stands between a name and a character that ends it. -/
structure Ended (name : Str) (c : Char) (s : Str) : Prop where
  isName : IsName name
  ends : isNameChar c = false ∧ isSpace c = false
  eq : ∃ between after, Blank between ∧ s = name ++ (between ++ c :: after)

variable {name s : Str} {c : Char}

lemma Ended.dropWhile (h : Ended name c s) : s.dropWhile isSpace = s := by
  obtain ⟨between, after, -, rfl⟩ := h.eq
  obtain ⟨hne, hname⟩ := h.isName
  cases name with
  | nil => exact absurd rfl hne
  | cons d name =>
    exact List.dropWhile_cons_of_neg (by simp [isSpace_of_isNameChar (hname d List.mem_cons_self)])

lemma Ended.takeWhile (h : Ended name c s) : s.takeWhile isNameChar = name := by
  obtain ⟨between, after, hbetween, rfl⟩ := h.eq
  rw [List.takeWhile_append_of_pos h.isName.2]
  cases between with
  | nil => rw [List.nil_append, List.takeWhile_cons_of_neg (by simp [h.ends.1]), List.append_nil]
  | cons d between =>
    have hd : isNameChar d = false := by
      by_contra hd
      rw [Bool.not_eq_false] at hd
      have := hbetween d List.mem_cons_self
      rw [isSpace_of_isNameChar hd] at this
      cases this
    rw [List.cons_append, List.takeWhile_cons_of_neg (by simp [hd]), List.append_nil]

lemma Ended.head (h : Ended name c s) :
    ((s.dropWhile isNameChar).dropWhile isSpace).head? = some c := by
  have hdrop : s.dropWhile isNameChar = s.drop name.length := by
    conv_rhs => rw [← List.takeWhile_append_dropWhile (p := isNameChar) (l := s), h.takeWhile,
      List.drop_left]
  obtain ⟨between, after, hbetween, rfl⟩ := h.eq
  rw [hdrop, List.drop_left, dropWhile_blank hbetween,
    List.dropWhile_cons_of_neg (by simp [h.ends.2])]
  rfl

/-- Behind a part of a name stands another letter of it. -/
lemma Ended.drop_prefix (h : Ended name c s) {n : Str} (hn : ∀ d ∈ n, isNameChar d = true)
    (hbegin : n <+: s) :
    (n = name ∧ ∃ after, (s.drop n.length).dropWhile isSpace = c :: after) ∨
      n ≠ name ∧ ∃ d after, isNameChar d = true ∧
        (s.drop n.length).dropWhile isSpace = d :: after := by
  obtain ⟨between, after, hbetween, rfl⟩ := h.eq
  have hends : ∀ d, (between ++ c :: after).head? = some d → isNameChar d = false := by
    intro d hd
    cases between with
    | nil =>
      obtain rfl : c = d := Option.some.inj hd
      exact h.ends.1
    | cons e between =>
      obtain rfl : e = d := Option.some.inj hd
      by_contra hname
      rw [Bool.not_eq_false] at hname
      have := hbetween e List.mem_cons_self
      rw [isSpace_of_isNameChar hname] at this
      cases this
  rcases List.prefix_or_prefix_of_prefix hbegin (List.prefix_append name _) with hp | hp
  · obtain ⟨t, rfl⟩ := hp
    cases t with
    | nil =>
      refine .inl ⟨(List.append_nil n).symm, after, ?_⟩
      rw [List.append_nil, List.drop_left, dropWhile_blank hbetween,
        List.dropWhile_cons_of_neg (by simp [h.ends.2])]
    | cons d t =>
      have hd : isNameChar d = true := h.isName.2 d (by simp)
      refine .inr ⟨by simp, d, t ++ (between ++ c :: after), hd, ?_⟩
      rw [List.append_assoc, List.drop_left, List.cons_append,
        List.dropWhile_cons_of_neg (by simp [isSpace_of_isNameChar hd])]
  · obtain ⟨t, rfl⟩ := hp
    cases t with
    | nil =>
      refine .inl ⟨List.append_nil name, after, ?_⟩
      rw [List.append_nil, List.drop_left, dropWhile_blank hbetween,
        List.dropWhile_cons_of_neg (by simp [h.ends.2])]
    | cons d t =>
      -- a letter cannot stand behind the name
      exfalso
      obtain ⟨u, hu⟩ := hbegin
      rw [List.append_assoc] at hu
      have hhead := hends d (by rw [← List.append_cancel_left hu]; rfl)
      rw [hn d (by simp)] at hhead
      cases hhead

lemma Ended.opensBlock (h : Ended name c s) {before : Str} (hb : Blank before) :
    opensBlock (before ++ s) = decide (c = '{') := by
  unfold Restore.opensBlock
  rw [dropWhile_blank hb, h.dropWhile]
  dsimp only
  rw [h.takeWhile, h.head, bne_iff_ne.mpr h.isName.1, Bool.true_and]
  exact Bool.eq_iff_iff.mpr (by simp)

lemma Ended.isComment (h : Ended name c s) : isComment s = false := by
  unfold Restore.isComment
  rw [h.dropWhile]
  obtain ⟨between, after, -, rfl⟩ := h.eq
  obtain ⟨hne, hname⟩ := h.isName
  cases name with
  | nil => exact absurd rfl hne
  | cons d name =>
    have hd := hname d List.mem_cons_self
    rw [beq_eq_false_iff_ne]
    intro heq
    rw [show d = '#' from Option.some.inj heq] at hd
    exact absurd hd (by decide)

lemma Ended.prefix (h : Ended name c s) : name <+: s := by
  obtain ⟨between, after, -, rfl⟩ := h.eq
  exact List.prefix_append _ _

lemma Ended.opensNamed (h : Ended name c s) {before n : Str} (hb : Blank before)
    (hn : ∀ d ∈ n, isNameChar d = true) :
    opensNamed n (before ++ s) = decide (name = n ∧ c = '{') := by
  unfold Restore.opensNamed
  rw [dropWhile_blank hb, h.dropWhile]
  dsimp only
  by_cases hp : n <+: s
  · rw [List.isPrefixOf_iff_prefix.mpr hp, Bool.true_and]
    rcases h.drop_prefix hn hp with ⟨rfl, after, heq⟩ | ⟨hne, d, after, hd, heq⟩
    · rw [heq]
      exact Bool.eq_iff_iff.mpr (by simp)
    · rw [heq]
      have hbrace : d ≠ '{' := by
        rintro rfl
        revert hd
        decide
      simp [hbrace, hne.symm]
  · have hne : name ≠ n := by
      rintro rfl
      exact hp h.prefix
    rw [Bool.eq_false_iff.mpr fun h => hp (List.isPrefixOf_iff_prefix.mp h)]
    simp [hne]

/-- Only a key is an `id`. -/
lemma Ended.idValue_none (h : Ended name c s) {before : Str} (hb : Blank before)
    (hne : name ≠ "id".toList ∨ c ≠ '=') :
    idValue (before ++ s) = none := by
  unfold idValue
  rw [dropWhile_blank hb, h.dropWhile]
  dsimp only
  split
  · rename_i hp
    rcases h.drop_prefix (forall_mem_of_all (by decide))
      (List.isPrefixOf_iff_prefix.mp hp) with ⟨rfl, after, heq⟩ | ⟨-, d, after, hd, heq⟩
    · have hc : c ≠ '=' := hne.resolve_left fun h => h rfl
      rw [show (s.drop 2).dropWhile isSpace = _ from heq]
      split
      · rename_i heq'
        exact absurd (List.cons.inj heq').1 hc
      · rfl
    · rw [show (s.drop 2).dropWhile isSpace = _ from heq]
      split
      · rename_i heq'
        rw [(List.cons.inj heq').1] at hd
        exact absurd hd (by decide)
      · rfl
  · rfl

/-- What the pattern for an `id` finds behind a key. -/
lemma idValue_field {before key between space value : Str} (hb : Blank before) (hkey : IsName key)
    (hm : Blank between) (hs : Blank space) (hfirst : value.dropWhile isSpace = value) :
    idValue (before ++ (key ++ (between ++ '=' :: (space ++ value)))) = filledId (key, value) := by
  have h : Ended key '=' (key ++ (between ++ '=' :: (space ++ value))) :=
    ⟨hkey, by decide, between, _, hm, rfl⟩
  unfold filledId idOf
  by_cases hid : key = "id".toList
  · have hdrop : ((key ++ (between ++ '=' :: (space ++ value))).drop 2).dropWhile isSpace =
      '=' :: (space ++ value) := by
      rw [hid, show 2 = "id".toList.length from rfl, List.drop_left, dropWhile_blank hm,
        List.dropWhile_cons_of_neg (by decide)]
    unfold idValue
    rw [dropWhile_blank hb, h.dropWhile]
    dsimp only
    rw [if_pos (List.isPrefixOf_iff_prefix.mpr (hid ▸ h.prefix)), hdrop, if_pos hid]
    simp only [dropWhile_blank hs, hfirst]
    unfold quoted
    split
    · rename_i s
      show _ = Option.filter (· ≠ []) (if '"' ∈ s then some (s.takeWhile (· ≠ '"')) else none)
      by_cases hquote : '"' ∈ s
      · rw [if_pos hquote]
        by_cases hempty : s.takeWhile (· ≠ '"') = []
        · rw [if_neg fun h => h.1 hempty, hempty]
          rfl
        · rw [if_pos ⟨hempty, hquote⟩, Option.filter_some, if_pos (decide_eq_true hempty)]
      · rw [if_neg hquote, if_neg fun h => hquote h.2]
        rfl
    · rename_i hno
      split
      · rename_i s
        exact absurd rfl (hno s)
      · rfl
  · rw [h.idValue_none hb (.inl hid)]
    rw [if_neg hid]
    rfl

lemma notMem_of_isName (hname : IsName name) (hc : isNameChar c = false) : c ∉ name := by
  intro hmem
  rw [hname.2 c hmem] at hc
  cases hc

lemma notMem_of_blank (hb : Blank s) (hc : isSpace c = false) : c ∉ s := by
  intro hmem
  rw [hb c hmem] at hc
  cases hc

lemma blockName_opens {before between after : Str} (hb : Blank before) (hname : IsName name)
    (hm : Blank between) :
    blockName (before ++ (name ++ (between ++ '{' :: after))) = name := by
  have h : Ended name '{' (name ++ (between ++ '{' :: after)) :=
    ⟨hname, by decide, between, after, hm, rfl⟩
  have hall : ∀ d ∈ name ++ between, decide (d ≠ '{') = true := by
    intro d hd
    refine decide_eq_true ?_
    rintro rfl
    exact (List.mem_append.mp hd).elim (notMem_of_isName hname (by decide))
      (notMem_of_blank hm (by decide))
  have htake : (name ++ (between ++ '{' :: after)).takeWhile (· ≠ '{') = name ++ between := by
    rw [← List.append_assoc, List.takeWhile_append_of_pos hall,
      List.takeWhile_cons_of_neg (by simp), List.append_nil]
  unfold blockName
  rw [dropWhile_blank hb, h.dropWhile, htake]
  unfold List.rdropWhile
  rw [List.reverse_append, List.dropWhile_append_of_pos fun d hd => hm d (List.mem_reverse.mp hd)]
  obtain ⟨init, d, rfl⟩ := (List.eq_nil_or_concat' name).resolve_left hname.1
  rw [List.reverse_append, List.reverse_singleton, List.singleton_append,
    List.dropWhile_cons_of_neg (by simp [isSpace_of_isNameChar (hname.2 d (by simp))])]
  simp

/-- A character that no name begins with. -/
structure Odd (c : Char) : Prop where
  space : isSpace c = false
  name : isNameChar c = false

lemma Odd.dropWhile (h : Odd c) {before : Str} (hb : Blank before) (s : Str) :
    (before ++ c :: s).dropWhile isSpace = c :: s := by
  rw [dropWhile_blank hb, List.dropWhile_cons_of_neg (by simp [h.space])]

lemma Odd.opensBlock (h : Odd c) {before : Str} (hb : Blank before) (s : Str) :
    opensBlock (before ++ c :: s) = false := by
  unfold Restore.opensBlock
  rw [h.dropWhile hb]
  dsimp only
  rw [List.takeWhile_cons_of_neg (by simp [h.name])]
  rfl

lemma Odd.opensNamed (h : Odd c) {before n : Str} (hb : Blank before) (hne : n ≠ [])
    (hn : ∀ d ∈ n, isNameChar d = true) (s : Str) :
    opensNamed n (before ++ c :: s) = false := by
  unfold Restore.opensNamed
  rw [h.dropWhile hb]
  dsimp only
  rw [Bool.and_eq_false_iff]
  left
  rw [Bool.eq_false_iff]
  intro hp
  obtain ⟨t, ht⟩ := List.isPrefixOf_iff_prefix.mp hp
  cases n with
  | nil => exact hne rfl
  | cons d n =>
    have hd := hn d List.mem_cons_self
    rw [(List.cons.inj ht).1, h.name] at hd
    cases hd

lemma Odd.idValue (h : Odd c) {before : Str} (hb : Blank before) (s : Str) :
    idValue (before ++ c :: s) = none := by
  unfold Restore.idValue
  rw [h.dropWhile hb]
  dsimp only
  rw [if_neg]
  intro hp
  obtain ⟨t, ht⟩ := List.isPrefixOf_iff_prefix.mp hp
  have hname := h.name
  rw [← (List.cons.inj ht).1] at hname
  revert hname
  decide

end Patterns

/-! ### One line of the layout -/

namespace Parser

variable (want : Wanted)

/-- What the line that opens a block does, by the name of the block. -/
def openTop (p : Parser) (name : Str) : Parser :=
  if p.depth = 0 then { p with topCount := p.topCount + 1, topName := some name } else p

def openEntry (p : Parser) (name : Str) : Parser :=
  if p.depth = 1 ∧ name = "physical_volumes".toList then
    { p with marker := some .pv, sectionDepth := p.depth + 1 }
  else if p.depth = 1 ∧ name = "logical_volumes".toList then
    { p with marker := some .lv, sectionDepth := p.depth + 1 }
  else
    match p.marker with
    | none => p
    | some kind =>
      if p.depth = p.sectionDepth then
        let p := { p with entry := name, entryDepth := p.depth + 1 }
        match kind with
        | .pv => { p with pvCount := p.pvCount + 1 }
        | .lv => { p with
            lvCount := p.lvCount + 1, bad := p.bad || !want.seenName p.entry, currentLv := p.entry }
      else p

/-- What a line does, by its item. -/
def item (p : Parser) : Item Str (Str × Str) → Parser
  | .opens name => ((p.openTop name).openEntry want name).leave 1 0
  | .closes => p.leave 0 1
  | .leaf field =>
    match filledId field with
    | some value => p.readId want value
    | none => p

/-- Nothing is left to reset. -/
structure Settled (p : Parser) : Prop where
  depth : p.depth < 0 → p.bad = true
  entry : p.entry ≠ [] → p.entryDepth ≤ p.depth
  marker : p.marker ≠ none → p.sectionDepth ≤ p.depth

lemma settled_leave (p : Parser) (opens closes : ℕ) : (p.leave opens closes).Settled := by
  unfold leave
  dsimp only
  split
  · split
    · exact ⟨fun h => by simp_all, fun h => absurd rfl h, fun h => absurd rfl h⟩
    · rename_i hmarker
      refine ⟨fun h => by simp_all, fun h => absurd rfl h, fun h => ?_⟩
      by_contra hlt
      exact hmarker ⟨h, not_le.mp hlt⟩
  · rename_i hentry
    split
    · exact ⟨fun h => by simp_all, fun h => absurd rfl h, fun h => absurd rfl h⟩
    · rename_i hmarker
      refine ⟨fun h => by simp_all, fun h => ?_, fun h => ?_⟩
      · by_contra hlt
        exact hentry ⟨h, not_le.mp hlt⟩
      · by_contra hlt
        exact hmarker ⟨h, not_le.mp hlt⟩

lemma leave_zero {p : Parser} (h : p.Settled) : p.leave 0 0 = p := by
  have hdepth : p.depth + ((0 : ℕ) - (0 : ℕ)) = p.depth := by simp
  have hbad : (p.bad || decide (p.depth < 0)) = p.bad := by
    by_cases hneg : p.depth < 0
    · rw [h.depth hneg]
      rfl
    · simp [hneg]
  have hentry : ¬ (p.entry ≠ [] ∧ p.depth < p.entryDepth) :=
    fun hentry => absurd (h.entry hentry.1) (not_le.mpr hentry.2)
  have hmarker : ¬ (p.marker ≠ none ∧ p.depth < p.sectionDepth) :=
    fun hmarker => absurd (h.marker hmarker.1) (not_le.mpr hmarker.2)
  unfold leave
  simp only [hdepth, hbad, if_neg hentry, if_neg hmarker]

/-- An `id` does not change where the parser is. -/
lemma readId_place (p : Parser) (value : Str) :
    (p.readId want value).depth = p.depth ∧ (p.readId want value).marker = p.marker ∧
    (p.readId want value).sectionDepth = p.sectionDepth ∧ (p.readId want value).entry = p.entry ∧
    (p.readId want value).entryDepth = p.entryDepth ∧
    (p.bad = true → (p.readId want value).bad = true) := by
  unfold readId
  repeat' split
  all_goals simp_all

lemma settled_readId {p : Parser} (h : p.Settled) (value : Str) :
    (p.readId want value).Settled := by
  obtain ⟨hdepth, hmarker, hsection, hentry, hentryDepth, hbad⟩ := readId_place want p value
  refine ⟨?_, ?_, ?_⟩
  · rw [hdepth]
    exact fun hneg => hbad (h.depth hneg)
  · rw [hdepth, hentry, hentryDepth]
    exact h.entry
  · rw [hdepth, hmarker, hsection]
    exact h.marker

lemma settled_item {p : Parser} (h : p.Settled) (i : Item Str (Str × Str)) :
    (p.item want i).Settled := by
  cases i with
  | opens name => exact settled_leave _ _ _
  | closes => exact settled_leave _ _ _
  | leaf field =>
    unfold item
    dsimp only
    split
    · exact settled_readId want h _
    · exact h

lemma openSection_eq_self (p : Parser) {line : Str} (hblock : opensBlock line = false)
    (hphysical : opensNamed "physical_volumes".toList line = false)
    (hlogical : opensNamed "logical_volumes".toList line = false) :
    p.openSection want line = p := by
  unfold openSection
  simp only [hphysical, hlogical, hblock, Bool.false_eq_true, and_false, if_false]
  split <;> rfl

/-- Lines without a block, an `id` and braces change nothing. -/
lemma line_eq_id {p : Parser} (h : p.Settled) {record : Str}
    (hcomment : isComment (stripCr record) = false) (hblock : opensBlock (stripCr record) = false)
    (hphysical : opensNamed "physical_volumes".toList (stripCr record) = false)
    (hlogical : opensNamed "logical_volumes".toList (stripCr record) = false)
    (hbraces : NoBraces (stripCr record)) :
    p.line want record = match idValue (stripCr record) with
      | some value => p.readId want value
      | none => p := by
  have htop : p.top (stripCr record) = p := by
    unfold top
    simp [hblock]
  have hsection := p.openSection_eq_self want hblock hphysical hlogical
  unfold line
  dsimp only
  rw [hcomment, if_neg Bool.false_ne_true, htop, hsection, List.count_eq_zero.mpr hbraces.1,
    List.count_eq_zero.mpr hbraces.2]
  cases idValue (stripCr record) with
  | some value => exact leave_zero (settled_readId want h value)
  | none => exact leave_zero h

lemma isComment_eq (before : Str) (hb : Blank before) (s : Str) :
    isComment (before ++ s) = isComment s := by
  unfold isComment
  rw [dropWhile_blank hb]

/-- A line of the layout does what its item says. -/
theorem line_eq {p : Parser} (h : p.Settled) {record : Str} {i : Option (Item Str (Str × Str))}
    (hline : LineOf (stripCr record) i) :
    p.line want record = (i.map (p.item want)).getD p := by
  generalize hstrip : stripCr record = line at hline
  cases hline with
  | blank hb =>
    have hdrop : line.dropWhile isSpace = [] := List.dropWhile_eq_nil_iff.mpr hb
    have hbraces : NoBraces line :=
      ⟨fun hmem => absurd (hb _ hmem) (by decide), fun hmem => absurd (hb _ hmem) (by decide)⟩
    rw [line_eq_id want h] <;> rw [hstrip]
    · rw [show idValue line = none by unfold idValue; rw [hdrop]; rfl]
      rfl
    · unfold isComment
      rw [hdrop]
      rfl
    · unfold opensBlock
      rw [hdrop]
      rfl
    · unfold opensNamed
      rw [hdrop]
      rfl
    · unfold opensNamed
      rw [hdrop]
      rfl
    · exact hbraces
  | comment hb =>
    unfold Parser.line
    dsimp only
    rw [hstrip, isComment_eq _ hb]
    rfl
  | @opens before name between after hb hname hm ha =>
    have hended : Ended name '{' (name ++ (between ++ '{' :: after)) :=
      ⟨hname, by decide, between, after, hm, rfl⟩
    have hblock := hended.opensBlock hb
    rw [decide_eq_true rfl] at hblock
    have hopen : (before ++ (name ++ (between ++ '{' :: after))).count '{' = 1 := by
      rw [List.count_append, List.count_append, List.count_append, List.count_cons_self,
        List.count_eq_zero.mpr (notMem_of_blank hb (by decide)),
          List.count_eq_zero.mpr (notMem_of_isName hname (by decide)),
        List.count_eq_zero.mpr (notMem_of_blank hm (by decide)), List.count_eq_zero.mpr ha.1]
    have hclose : (before ++ (name ++ (between ++ '{' :: after))).count '}' = 0 := by
      rw [List.count_append, List.count_append, List.count_append,
        List.count_cons_of_ne (by decide),
        List.count_eq_zero.mpr (notMem_of_blank hb (by decide)),
          List.count_eq_zero.mpr (notMem_of_isName hname (by decide)),
        List.count_eq_zero.mpr (notMem_of_blank hm (by decide)), List.count_eq_zero.mpr ha.2]
    have hcomment : isComment (before ++ (name ++ (between ++ '{' :: after))) = false := by
      rw [isComment_eq _ hb]
      exact hended.isComment
    have htop : p.top (before ++ (name ++ (between ++ '{' :: after))) = p.openTop name := by
      unfold top openTop
      rw [hblock, blockName_opens hb hname hm]
      simp only [and_true]
    have hsection : (p.openTop name).openSection want (before ++ (name ++ (between ++ '{' :: after))) =
        (p.openTop name).openEntry want name := by
      unfold openSection openEntry
      rw [hblock, blockName_opens hb hname hm, hended.opensNamed hb (forall_mem_of_all (by decide)), hended.opensNamed hb (forall_mem_of_all (by decide))]
      cases (p.openTop name).marker with
      | none => simp only [and_true, decide_eq_true_eq]
      | some kind =>
        cases kind with
        | pv => simp only [and_true, decide_eq_true_eq]
        | lv => simp only [and_true, decide_eq_true_eq]
    unfold Parser.line
    dsimp only
    rw [hstrip, hcomment, if_neg Bool.false_ne_true, htop, hsection,
      hended.idValue_none hb (.inr (by decide)), hopen, hclose]
    rfl
  | @closes before after hb ha =>
    have hodd : Odd '}' := ⟨by decide, by decide⟩
    have hopen : (before ++ '}' :: after).count '{' = 0 := by
      rw [List.count_append, List.count_cons_of_ne (by decide),
        List.count_eq_zero.mpr (notMem_of_blank hb (by decide)),
        List.count_eq_zero.mpr ha.1]
    have hclose : (before ++ '}' :: after).count '}' = 1 := by
      rw [List.count_append, List.count_cons_self,
        List.count_eq_zero.mpr (notMem_of_blank hb (by decide)),
        List.count_eq_zero.mpr ha.2]
    have htop : p.top (before ++ '}' :: after) = p := by
      unfold top
      simp [hodd.opensBlock hb]
    have hsection :=
      p.openSection_eq_self want (hodd.opensBlock hb after)
        (hodd.opensNamed hb (by simp) (forall_mem_of_all (by decide)) after)
      (hodd.opensNamed hb (by simp) (forall_mem_of_all (by decide)) after)
    unfold Parser.line
    dsimp only
    rw [hstrip, isComment_eq _ hb, show isComment ('}' :: after) = false from rfl,
      if_neg Bool.false_ne_true, htop, hsection,
      hodd.idValue hb, hopen, hclose]
    rfl
  | @field before key between space value hb hkey hm hs hvalue hfirst =>
    have hended : Ended key '=' (key ++ (between ++ '=' :: (space ++ value))) :=
      ⟨hkey, by decide, between, _, hm, rfl⟩
    have hbraces : NoBraces (before ++ (key ++ (between ++ '=' :: (space ++ value)))) := by
      constructor
      · simp only [List.mem_append, List.mem_cons, not_or]
        exact ⟨notMem_of_blank hb (by decide), notMem_of_isName hkey (by decide),
          notMem_of_blank hm (by decide), by decide,
          notMem_of_blank hs (by decide), hvalue.1⟩
      · simp only [List.mem_append, List.mem_cons, not_or]
        exact ⟨notMem_of_blank hb (by decide), notMem_of_isName hkey (by decide),
          notMem_of_blank hm (by decide), by decide,
          notMem_of_blank hs (by decide), hvalue.2⟩
    rw [line_eq_id want h] <;> rw [hstrip]
    · rw [idValue_field hb hkey hm hs hfirst]
      rfl
    · rw [isComment_eq _ hb]
      exact hended.isComment
    · rw [hended.opensBlock hb]
      decide
    · rw [hended.opensNamed hb (forall_mem_of_all (by decide))]
      simp
    · rw [hended.opensNamed hb (forall_mem_of_all (by decide))]
      simp
    · exact hbraces
  | @more before rest c hb hspace hname hc hbraces =>
    have hodd : Odd c := ⟨hspace, hname⟩
    rw [line_eq_id want h] <;> rw [hstrip]
    · rw [hodd.idValue hb]
      rfl
    · rw [isComment_eq _ hb]
      unfold isComment
      rw [List.dropWhile_cons_of_neg (by simp [hspace])]
      simpa using hc
    · exact hodd.opensBlock hb rest
    · exact hodd.opensNamed hb (by simp) (forall_mem_of_all (by decide)) rest
    · exact hodd.opensNamed hb (by simp) (forall_mem_of_all (by decide)) rest
    · constructor
      · exact fun hmem => (List.mem_append.mp hmem).elim (notMem_of_blank hb (by decide)) hbraces.1
      · exact fun hmem => (List.mem_append.mp hmem).elim (notMem_of_blank hb (by decide)) hbraces.2

end Parser

end Pxeos.Restore
