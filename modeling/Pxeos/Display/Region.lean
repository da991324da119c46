import Mathlib.Data.List.Nodup
import Pxeos.Display.Registry

/-!
# The lines of a section

What the reader takes from the lines behind the header of `MountedDevices`: each drive is a value
there, and no line with the value of a drive is left out.
-/

namespace Pxeos.Display

open Pxeos.Lib

/-! ### What stands in a text -/

def Blank (s : Str) : Prop := ∀ c ∈ s, isSpace c = true

/-- The line of a key. -/
def IsKeyLine (line : Str) : Prop := ∃ name, line = '[' :: (name ++ [']'])

def IsMounted (line : Str) : Prop :=
  ∃ name, line = '[' :: (name ++ [']']) ∧ lower name = mountedName

/-- The lines of a byte list, all of which go on. -/
inductive HexOpen : List Str → Str → Prop
  | one {p h : Str} (hp : regHexFragment p = some (true, h)) : HexOpen [p] h
  | more {ps : List Str} {p h h' : Str} (hps : HexOpen ps h)
      (hp : regHexFragment p = some (true, h')) : HexOpen (ps ++ [p]) (h ++ h')

/-- The lines of a byte list, with its digits. -/
inductive HexData : List Str → Str → Prop
  | one {p h : Str} (hp : regHexFragment p = some (false, h)) : HexData [p] h
  | more {ps : List Str} {p h h' : Str} (hps : HexOpen ps h)
      (hp : regHexFragment p = some (false, h')) : HexData (ps ++ [p]) (h ++ h')

/-- The first line of the value of a drive: its quoted name, an equals sign, `hex:` and the first
bytes. -/
def DriveValue (line : Str) (drive : Char) (data : Str) : Prop :=
  ∃ escaped name before behind tag : Str,
    line = '"' :: (escaped ++ '"' :: (before ++ '=' :: (behind ++ (tag ++ ':' :: data)))) ∧
    Blank before ∧ Blank behind ∧ lower tag = "hex".toList ∧ regUnescapeName escaped = some name ∧
      driveLetter (lower name) = some drive

/-- A drive with its digits is one value in some lines. -/
def Occurs (lines : List Str) (entry : Char × Str) : Prop :=
  ∃ (a : List Str) (first data : Str) (conts b : List Str), lines = a ++ first :: (conts ++ b) ∧
    DriveValue first entry.1 data ∧
    HexData (data :: conts) entry.2

/-! ### Letters -/

/-- A letter that is made a lower one is one. -/
lemma toLower_eq_or (c : Char) : c.toLower = c ∨ ('a' ≤ c.toLower ∧ c.toLower ≤ 'z') := by
  unfold Char.toLower
  split
  · rename_i h
    right
    have h65 : 65 ≤ c.val.toNat := h.1
    have h90 : c.val.toNat ≤ 90 := h.2
    have hval : (c.val + 32).toNat = c.val.toNat + 32 := by
      rw [UInt32.toNat_add, show (32 : UInt32).toNat = 32 from rfl]
      omega
    constructor
    · show 97 ≤ (c.val + 32).toNat
      omega
    · show (c.val + 32).toNat ≤ 122
      omega
  · exact .inl rfl

lemma eq_of_toLower {c x : Char} (h : c.toLower = x) (hx : ¬ ('a' ≤ x ∧ x ≤ 'z')) : c = x := by
  rcases toLower_eq_or c with heq | hle
  · exact heq.symm.trans h
  · exact absurd (h ▸ hle) hx

lemma toNat_le_of_isSpace {c : Char} (h : isSpace c = true) : c.toNat ≤ 32 := by
  simp only [isSpace, Bool.or_eq_true, beq_iff_eq, Bool.and_eq_true, decide_eq_true_eq] at h
  rcases h with rfl | ⟨-, hle⟩
  · decide
  · have h13 : c.toNat ≤ 13 := hle
    omega

lemma isSpace_toLower (c : Char) : isSpace c.toLower = isSpace c := by
  rcases toLower_eq_or c with h | ⟨h, -⟩
  · rw [h]
  · -- neither a letter nor what is made of one is a blank
    have h97 : 97 ≤ c.toLower.toNat := h
    have hlower : isSpace c.toLower = false := by
      by_contra hspace
      have := toNat_le_of_isSpace (Bool.not_eq_false _ ▸ hspace)
      omega
    have hsame : isSpace c = false := by
      by_contra hspace
      have hle := toNat_le_of_isSpace (Bool.not_eq_false _ ▸ hspace)
      have heq : c.toLower = c := by
        unfold Char.toLower
        rw [dif_neg]
        rintro ⟨h65, -⟩
        have : 65 ≤ c.toNat := h65
        omega
      rw [heq] at h97
      omega
    rw [hlower, hsame]

/-! ### The last quote -/

/-- A quote that an equals sign follows. -/
def HasQuoted (s : Str) : Prop :=
  ∃ name before rest : Str, s = name ++ '"' :: (before ++ '=' :: rest) ∧ Blank before

section Quote

lemma dropWhile_blank {before : Str} (h : Blank before) (s : Str) :
    (before ++ s).dropWhile isSpace = s.dropWhile isSpace :=
  List.dropWhile_append_of_pos h

lemma lastQuoted_none {s : Str} (h : ¬ HasQuoted s) : lastQuoted s = none := by
  induction s with
  | nil => rfl
  | cons c s ih =>
    have hs : ¬ HasQuoted s := by
      rintro ⟨name, before, rest, rfl, hb⟩
      exact h ⟨c :: name, before, rest, rfl, hb⟩
    unfold lastQuoted
    rw [ih hs]
    dsimp only
    split
    · rename_i hc
      split
      · rename_i rhs heq
        refine absurd ⟨[], s.takeWhile isSpace, rhs, ?_, fun d hd => List.mem_takeWhile_imp hd⟩ h
        rw [hc, List.nil_append, ← heq, List.takeWhile_append_dropWhile]
      · rfl
    · rfl

lemma lastQuoted_append {s : Str} {p : Str × Str} (h : lastQuoted s = some p) (pre : Str) :
    lastQuoted (pre ++ s) = some (pre ++ p.1, p.2) := by
  induction pre with
  | nil => exact h
  | cons c pre ih =>
    rw [List.cons_append, lastQuoted, ih]
    rfl

/-- The quote behind which there is no other one. -/
lemma lastQuoted_eq {name before rest : Str} (hb : Blank before)
    (hrest : ¬ HasQuoted (before ++ '=' :: rest)) :
    lastQuoted (name ++ '"' :: (before ++ '=' :: rest)) = some (name, rest.dropWhile isSpace) := by
  have hquote : lastQuoted ('"' :: (before ++ '=' :: rest)) =
      some ([], rest.dropWhile isSpace) := by
    unfold lastQuoted
    rw [lastQuoted_none hrest, dropWhile_blank hb, List.dropWhile_cons_of_neg (by decide)]
    rfl
  rw [lastQuoted_append hquote]
  simp

lemma exists_of_lastQuoted {s name rhs : Str} (h : lastQuoted s = some (name, rhs)) :
    ∃ before behind : Str, s = name ++ '"' :: (before ++ '=' :: (behind ++ rhs)) ∧ Blank before ∧
      Blank behind := by
  induction s generalizing name with
  | nil => cases h
  | cons c s ih =>
    unfold lastQuoted at h
    split at h
    · rename_i name' rhs' heq
      obtain ⟨rfl, rfl⟩ := Prod.mk.inj (Option.some.inj h)
      obtain ⟨before, behind, hs, hb, hb'⟩ := ih heq
      exact ⟨before, behind, by rw [hs]; rfl, hb, hb'⟩
    · split at h
      · rename_i hc
        split at h
        · rename_i rest heq
          obtain ⟨rfl, rfl⟩ := Prod.mk.inj (Option.some.inj h)
          refine ⟨s.takeWhile isSpace, rest.takeWhile isSpace, ?_,
            fun d hd => List.mem_takeWhile_imp hd,
            fun d hd => List.mem_takeWhile_imp hd⟩
          rw [hc, List.nil_append, List.takeWhile_append_dropWhile, ← heq,
            List.takeWhile_append_dropWhile]
        · cases h
      · cases h

end Quote

/-! ### Fragments -/

section Fragments

lemma mem_bytesWithCommas {s : Str} (h : bytesWithCommas s = true) :
    ∀ c ∈ s, isXdigit c = true ∨ c = ',' := by
  induction s using bytesWithCommas.induct with
  | case1 a b =>
    simp only [bytesWithCommas, Bool.and_eq_true] at h
    simp [h.1, h.2]
  | case2 a b rest hrest ih =>
    rw [bytesWithCommas.eq_2 _ _ _ hrest, Bool.and_eq_true, Bool.and_eq_true] at h
    simpa [h.1.1, h.1.2] using ih h.2
  | case3 s h1 h2 =>
    rw [bytesWithCommas.eq_3 _ h1 h2] at h
    cases h

lemma mem_bytesBetweenCommas {s : Str} (h : bytesBetweenCommas s = true) :
    ∀ c ∈ s, isXdigit c = true ∨ c = ',' := by
  induction s using bytesBetweenCommas.induct with
  | case1 a b =>
    simp only [bytesBetweenCommas, Bool.and_eq_true] at h
    simp [h.1, h.2]
  | case2 a b rest ih =>
    simp only [bytesBetweenCommas, Bool.and_eq_true] at h
    simpa [h.1.1, h.1.2] using ih h.2
  | case3 s h1 h2 =>
    rw [bytesBetweenCommas.eq_3 _ h1 h2] at h
    cases h

/-- The letters of a fragment, and the digits that it gives. -/
lemma fragment_chars {text h : Str} {b : Bool} (hf : regHexFragment text = some (b, h)) :
    (∀ c ∈ text, isSpace c = true ∨ isXdigit c = true ∨ c = ',' ∨ c = '\\') ∧ ∀ c ∈ h, ∃ d,
      isXdigit d = true ∧ c = d.toLower := by
  have hdigits : ∀ {s : Str}, (∀ c ∈ s, isXdigit c = true ∨ c = ',') →
      ∀ c ∈ lower (s.filter (· ≠ ',')), ∃ d, isXdigit d = true ∧ c = d.toLower := by
    intro s hs c hc
    obtain ⟨d, hd, rfl⟩ := List.mem_map.mp hc
    obtain ⟨hmem, hne⟩ := List.mem_filter.mp hd
    exact ⟨d, (hs d hmem).resolve_right (by simpa using hne), rfl⟩
  have htext : ∀ {s : Str}, text.filter (fun c => !isSpace c) = s → ∀ c ∈ text,
      isSpace c = true ∨ c ∈ s := by
    intro s hs c hc
    by_cases hspace : isSpace c = true
    · exact .inl hspace
    · refine .inr (hs ▸ List.mem_filter.mpr ⟨hc, ?_⟩)
      simpa using hspace
  unfold regHexFragment at hf
  dsimp only at hf
  split at hf
  · cases hf
  · split at hf
    · rename_i hlast
      split at hf
      · rename_i hbytes
        obtain ⟨-, rfl⟩ := Prod.mk.inj (Option.some.inj hf)
        have hmem := mem_bytesWithCommas hbytes
        refine ⟨fun c hc => ?_, hdigits hmem⟩
        have hsplit : text.filter (fun c => !isSpace c) =
            (text.filter fun c => !isSpace c).dropLast ++ ['\\'] := by
          obtain ⟨init, hinit⟩ := List.getLast?_eq_some_iff.mp hlast
          rw [hinit, List.dropLast_concat]
        rcases htext hsplit c hc with hspace | hin
        · exact .inl hspace
        · rcases List.mem_append.mp hin with hin | hin
          · exact .inr ((hmem c hin).imp_right .inl)
          · exact .inr (.inr (.inr (List.mem_singleton.mp hin)))
      · cases hf
    · split at hf
      · rename_i hbytes
        obtain ⟨-, rfl⟩ := Prod.mk.inj (Option.some.inj hf)
        have hmem := mem_bytesBetweenCommas hbytes
        refine ⟨fun c hc => ?_, hdigits hmem⟩
        rcases htext rfl c hc with hspace | hin
        · exact .inl hspace
        · exact .inr ((hmem c hin).imp_right .inl)
      · cases hf

lemma quote_notMem_of_fragment {text h : Str} {b : Bool} (hf : regHexFragment text = some (b, h)) :
    '"' ∉ text ∧ '[' ∉ text := by
  have hchars := (fragment_chars hf).1
  constructor
  · intro hmem
    have := hchars _ hmem
    revert this
    decide
  · intro hmem
    have := hchars _ hmem
    revert this
    decide

end Fragments

/-! ### The lines of drives -/

/-- The drive whose value the reader finds on a line, and the text of the value. -/
def seenDrive (line : Str) : Option (Char × Str) := do
  let (nameEscaped, rhs) ← splitValue line
  let name ← regUnescapeName nameEscaped
  let drive ← driveLetter (lower name)
  some (drive, rhs)

section Drives

variable {s s' : Reader} {line : Str}

lemma value_spec (h : s.value line = some s') : (seenDrive line = none ∧ s' = s) ∨
    ∃ drive rhs, seenDrive line = some (drive, rhs) ∧ "hex:".toList <+: lower rhs ∧
      s.fragment drive [] ((rhs.dropWhile (· ≠ ':')).drop 1) = some s' := by
  unfold Reader.value at h
  unfold seenDrive
  split at h
  · rename_i hsplit
    rw [hsplit]
    exact .inl ⟨rfl, (Option.some.inj h).symm⟩
  · rename_i nameEscaped rhs hsplit
    rw [hsplit]
    split at h
    · cases h
    · rename_i name hname
      split at h
      · rename_i hdrive
        refine .inl ⟨?_, (Option.some.inj h).symm⟩
        simp [hname, hdrive]
      · rename_i drive hdrive
        split at h
        · rename_i hhex
          refine .inr ⟨drive, rhs, ?_, List.isPrefixOf_iff_prefix.mp hhex, h⟩
          simp [hname, hdrive]
        · cases h

lemma fragment_spec {drive : Char} {hex text : Str} (h : s.fragment drive hex text = some s') :
    ∃ compact,
      (regHexFragment text = some (true, compact) ∧
        s' = { s with pending := some (drive, hex ++ compact) }) ∨
      (regHexFragment text = some (false, compact) ∧ drive ∉ s.volumeByDrive.map (·.1) ∧
        s' = { s with
            volumeByDrive := s.volumeByDrive ++ [(drive, hex ++ compact)], pending := none }) := by
  unfold Reader.fragment at h
  split at h
  · cases h
  · rename_i continuation compact hf
    refine ⟨compact, ?_⟩
    cases continuation with
    | true => exact .inl ⟨hf, (Option.some.inj h).symm⟩
    | false =>
      rw [if_neg Bool.false_ne_true] at h
      split at h
      · cases h
      · rename_i hany
        refine .inr ⟨hf, fun hmem => hany ?_, (Option.some.inj h).symm⟩
        obtain ⟨e, he, heq⟩ := List.mem_map.mp hmem
        exact List.any_eq_true.mpr ⟨e, he, beq_iff_eq.mpr heq⟩

/-- What the reader takes for a drive is one. -/
lemma driveValue_of_seenDrive {drive : Char} {rhs : Str} (h : seenDrive line = some (drive, rhs))
    (hhex : "hex:".toList <+: lower rhs) :
    DriveValue line drive ((rhs.dropWhile (· ≠ ':')).drop 1) := by
  simp only [seenDrive, Option.bind_eq_bind, Option.bind_eq_some_iff] at h
  obtain ⟨⟨nameEscaped, rhs'⟩, hsplit, name, hname, drive', hdrive, heq⟩ := h
  obtain ⟨rfl, rfl⟩ := Prod.mk.inj (Option.some.inj heq)
  unfold splitValue at hsplit
  split at hsplit
  · rename_i rest
    obtain ⟨before, behind, hrest, hb, hb'⟩ := exists_of_lastQuoted hsplit
    obtain ⟨t, ht⟩ := hhex
    -- the tag has the letters of `hex`, and the colon is the first one
    obtain ⟨tag, data, rfl, htag⟩ : ∃ tag data, rhs' = tag ++ ':' :: data ∧
        lower tag = "hex".toList := by
      obtain ⟨l₁, l₂, rfl, h₁, -⟩ := List.map_eq_append_iff.mp ht.symm
      obtain ⟨tag, l₃, rfl, htag, h₃⟩ :=
        List.map_eq_append_iff.mp (h₁.trans (show "hex:".toList = "hex".toList ++ [':'] from rfl))
      obtain ⟨d, rfl, hd⟩ := List.map_eq_singleton_iff.mp h₃
      rw [eq_of_toLower hd (by decide)]
      exact ⟨tag, l₂, by rw [List.append_assoc]; rfl, htag⟩
    have hcolon : ∀ c ∈ tag, decide (c ≠ ':') = true := by
      intro c hc
      refine decide_eq_true ?_
      rintro rfl
      have hin : ':' ∈ lower tag := List.mem_map.mpr ⟨':', hc, by decide⟩
      rw [htag] at hin
      revert hin
      decide
    have hdata : ((tag ++ ':' :: data).dropWhile (· ≠ ':')).drop 1 = data := by
      rw [List.dropWhile_append_of_pos hcolon, List.dropWhile_cons_of_neg (by simp)]
      rfl
    rw [hdata]
    exact ⟨nameEscaped, name, before, behind, tag, by rw [hrest], hb, hb', htag, hname, hdrive⟩
  · cases hsplit

/-- No quote stands behind the name of a drive whose value is bytes. -/
lemma seenDrive_of_driveValue {drive : Char} {data h : Str} {b : Bool}
    (hline : DriveValue line drive data) (hf : regHexFragment data = some (b, h)) :
    ∃ rhs, seenDrive line = some (drive, rhs) := by
  obtain ⟨escaped, name, before, behind, tag, rfl, hb, hb', htag, hname, hdrive⟩ := hline
  have hquote : '"' ∉ before ++ '=' :: (behind ++ (tag ++ ':' :: data)) := by
    simp only [List.mem_append, List.mem_cons, not_or]
    refine ⟨fun h => absurd (hb _ h) (by decide), by decide, fun h => absurd (hb' _ h) (by decide),
      fun h => ?_, by decide,
      (quote_notMem_of_fragment hf).1⟩
    have hin : '"' ∈ lower tag := List.mem_map.mpr ⟨'"', h, by decide⟩
    rw [htag] at hin
    revert hin
    decide
  have hlast : lastQuoted (escaped ++ '"' :: (before ++ '=' :: (behind ++ (tag ++ ':' :: data)))) =
      some (escaped, (behind ++ (tag ++ ':' :: data)).dropWhile isSpace) := by
    refine lastQuoted_eq hb ?_
    rintro ⟨name, before', rest, heq, -⟩
    rw [heq] at hquote
    exact hquote (by simp)
  have hsplit :
      splitValue ('"' :: (escaped ++ '"' :: (before ++ '=' :: (behind ++ (tag ++ ':' :: data))))) =
      some (escaped, (behind ++ (tag ++ ':' :: data)).dropWhile isSpace) := hlast
  refine ⟨(behind ++ (tag ++ ':' :: data)).dropWhile isSpace, ?_⟩
  unfold seenDrive
  rw [hsplit]
  simp [hname, hdrive]

/-- A line of bytes is neither that of a drive nor that of a key. -/
lemma seenDrive_fragment {h : Str} {b : Bool} (hf : regHexFragment line = some (b, h)) :
    seenDrive line = none ∧ ¬ IsKeyLine line := by
  obtain ⟨hquote, hbracket⟩ := quote_notMem_of_fragment hf
  constructor
  · have hsplit : splitValue line = none := by
      unfold splitValue
      split
      · exact absurd List.mem_cons_self hquote
      · rfl
    unfold seenDrive
    rw [hsplit]
    rfl
  · rintro ⟨name, rfl⟩
    exact hbracket List.mem_cons_self

end Drives

/-! ### The region of the section -/

/-- What the reader has taken from the lines behind the header. -/
structure Region (lines : List Str) (s : Reader) : Prop where
  header : s.headerSeen = true
  count : s.mountedSections = 1
  inMounted : s.inMounted = true
  occurs : ∀ entry ∈ s.volumeByDrive, Occurs lines entry
  pending : ∀ drive hex, s.pending = some (drive, hex) →
    ∃ (a : List Str) (first data : Str) (conts : List Str),
    lines = a ++ first :: conts ∧ DriveValue first drive data ∧ HexOpen (data :: conts) hex
  drives : lines.filterMap (fun line => (seenDrive line).map (·.1)) = s.volumeByDrive.map (·.1) ++
    (s.pending.map (·.1)).toList
  nodup : (s.volumeByDrive.map (·.1)).Nodup
  names : ∀ line ∈ lines, ∀ nameEscaped rhs, splitValue line = some (nameEscaped, rhs) →
    regUnescapeName nameEscaped ≠ none

section Steps

variable {lines : List Str} {s s' : Reader} {line : Str}

lemma Occurs.append {entry : Char × Str} (h : Occurs lines entry) (more : List Str) :
    Occurs (lines ++ more) entry := by
  obtain ⟨a, first, data, conts, b, rfl, hvalue, hdata⟩ := h
  exact ⟨a, first, data, conts, b ++ more, by simp, hvalue, hdata⟩

lemma forall_mem_snoc {p : Str → Prop} {line : Str} (h : ∀ l ∈ lines, p l) (hline : p line) :
    ∀ l ∈ lines ++ [line], p l := by
  intro l hl
  rcases List.mem_append.mp hl with hl | hl
  · exact h l hl
  · rw [List.mem_singleton.mp hl]
    exact hline

lemma nodup_snoc {xs : List Char} {x : Char} (h : xs.Nodup) (hx : x ∉ xs) : (xs ++ [x]).Nodup := by
  rw [← List.concat_eq_append, List.nodup_concat]
  exact ⟨hx, h⟩

lemma splitValue_fragment {h : Str} {b : Bool} (hf : regHexFragment line = some (b, h)) :
    splitValue line = none := by
  unfold splitValue
  split
  · exact absurd List.mem_cons_self (quote_notMem_of_fragment hf).1
  · rfl

/-- The names of the values that are read are escaped. -/
lemma unescapes_of_value (h : s.value line = some s') :
    ∀ nameEscaped rhs, splitValue line = some (nameEscaped, rhs) →
      regUnescapeName nameEscaped ≠ none := by
  intro nameEscaped rhs hsplit hnone
  unfold Reader.value at h
  rw [hsplit] at h
  dsimp only at h
  rw [hnone] at h
  cases h

/-- One line of the region. -/
lemma Region.step (h : Region lines s) (hsection : sectionName line = none) (hstep : s.line line = some s') :
    Region (lines ++ [line]) s' := by
  unfold Reader.line at hstep
  rw [if_neg (by rw [h.header]; decide)] at hstep
  cases hpending : s.pending with
  | some p =>
    obtain ⟨drive, hex⟩ := p
    rw [hpending] at hstep
    obtain ⟨a, first, data, conts, rfl, hvalue, hopen⟩ := h.pending drive hex hpending
    have hnames : ∀ {b : Bool} {compact : Str}, regHexFragment line = some (b, compact) → ∀ nameEscaped rhs,
        splitValue line = some (nameEscaped, rhs) → regUnescapeName nameEscaped ≠ none := by
      intro b compact hf nameEscaped rhs hsplit
      rw [splitValue_fragment hf] at hsplit
      cases hsplit
    obtain ⟨compact, ⟨hf, rfl⟩ | ⟨hf, hnew, rfl⟩⟩ := fragment_spec hstep
    · refine ⟨h.header, h.count, h.inMounted, fun e he => (h.occurs e he).append _, ?_, ?_, h.nodup, forall_mem_snoc h.names (hnames hf)⟩
      · rintro drive' hex' heq
        obtain ⟨rfl, rfl⟩ := Prod.mk.inj (Option.some.inj heq)
        refine ⟨a, first, data, conts ++ [line], by simp, hvalue, ?_⟩
        exact .more hopen hf
      · rw [List.filterMap_append, h.drives, hpending]
        simp [(seenDrive_fragment hf).1]
    · refine ⟨h.header, h.count, h.inMounted, ?_, fun _ _ heq => (by cases heq), ?_, ?_, forall_mem_snoc h.names (hnames hf)⟩
      · intro e he
        rcases List.mem_append.mp he with he | he
        · exact (h.occurs e he).append _
        · rw [List.mem_singleton.mp he]
          exact ⟨a, first, data, conts ++ [line], [], by simp, hvalue, .more hopen hf⟩
      · rw [List.filterMap_append, h.drives, hpending]
        simp [(seenDrive_fragment hf).1]
      · rw [List.map_append]
        exact nodup_snoc h.nodup hnew
  | none =>
    rw [hpending, hsection] at hstep
    dsimp only at hstep
    rw [if_pos h.inMounted] at hstep
    have hnames := forall_mem_snoc h.names (unescapes_of_value hstep)
    rcases value_spec hstep with ⟨hnone, rfl⟩ | ⟨drive, rhs, hseen, hhex, hfragment⟩
    · refine ⟨h.header, h.count, h.inMounted, fun e he => (h.occurs e he).append _, ?_, ?_, h.nodup, hnames⟩
      · intro drive hex heq
        rw [hpending] at heq
        cases heq
      · rw [List.filterMap_append, h.drives]
        simp [hnone]
    · have hvalue := driveValue_of_seenDrive hseen hhex
      obtain ⟨compact, ⟨hf, rfl⟩ | ⟨hf, hnew, rfl⟩⟩ := fragment_spec hfragment
      · refine ⟨h.header, h.count, h.inMounted, fun e he => (h.occurs e he).append _, ?_, ?_, h.nodup, hnames⟩
        · rintro drive' hex' heq
          obtain ⟨rfl, rfl⟩ := Prod.mk.inj (Option.some.inj heq)
          exact ⟨lines, line, _, [], rfl, hvalue, .one hf⟩
        · rw [List.filterMap_append, h.drives, hpending]
          simp [hseen]
      · refine ⟨h.header, h.count, h.inMounted, ?_, ?_, ?_, ?_, hnames⟩
        · intro e he
          rcases List.mem_append.mp he with he | he
          · exact (h.occurs e he).append _
          · rw [List.mem_singleton.mp he]
            exact ⟨lines, line, _, [], [], rfl, hvalue, .one hf⟩
        · intro _ _ heq
          cases heq
        · rw [List.filterMap_append, h.drives, hpending]
          simp [hseen]
        · rw [List.map_append]
          exact nodup_snoc h.nodup hnew

end Steps

end Pxeos.Display
