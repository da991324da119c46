import Pxeos.Sfdisk.FingerprintRead

/-!
# Rewriting the template

The program of `rootpxe_apply_deployment_layout` that makes the input of `sfdisk` from the captured
dump and the resolved plan: the headers of the disk are replaced, and in every partition line the
path, the start and the size, each at its leftmost match.  On a dump these are the fields themselves
(`rewriteTemplate_dump`).
-/

namespace Pxeos.Sfdisk

open Pxeos.Lib

/-! ### The program -/

/-- A line of the plan map. -/
structure PlanRow where
  number : ℕ
  start : ℕ
  size : ℕ
  deriving DecidableEq, Repr

/-- The variables the program is called with.  They have been checked before; the disk is a path
without characters that are special in a replacement. -/
structure RewriteSettings where
  map : List PlanRow
  disk : Text
  logical : ℕ
  isGpt : Bool
  lastLba : ℕ
  rows_ok : ∀ row ∈ map, 0 < row.number ∧ 0 < row.size
  disk_ok : HeaderWord disk ∧ "/dev/".toList <+: disk
  logical_pos : 0 < logical
  lastLba_pos : isGpt = true → 0 < lastLba

/-- `disk ~ /[0-9]$/`. -/
def endsInDigit (disk : Text) : Bool := (disk.getLast?.map Char.isDigit).getD false

/-- `partition_path`. -/
def partitionPath (disk number : Text) : Text :=
  disk ++ if endsInDigit disk then 'p' :: number else number

/-- `^key[[:space:]]*[0-9]+`: what follows the match. -/
def behindNumber (key t : Text) : Option Text :=
  let r := (t.drop key.length).dropWhile isSpace
  if key <+: t ∧ r.takeWhile Char.isDigit ≠ [] then some (r.dropWhile Char.isDigit) else none

/-- `sub(/key[[:space:]]*[0-9]+/, new, t)`. -/
def subNumber (key new : Text) : Text → Text
  | [] => []
  | c :: t =>
    match behindNumber key (c :: t) with
    | some rest => new ++ rest
    | none => c :: subNumber key new t

/-- `sub(/^[^[:space:]]+/, path, line)`. -/
def subPath (path line : Text) : Text :=
  if line.takeWhile (!isSpace ·) = [] then line else path ++ line.dropWhile (!isSpace ·)

/-- `starts[n]` and `sizes[n]`, of the last line of the map with that number. -/
def RewriteSettings.row (c : RewriteSettings) (n : Text) : Option PlanRow :=
  c.map.reverse.find? fun row => Nat.toDigits 10 row.number == n

/-- The partition line with the path, the start and the size of the plan.  `%12.0f` prints the
numbers as they are, which `jq` has written. -/
def rewritePart (c : RewriteSettings) (n : Text) (row : PlanRow) (line : Text) : Text :=
  let line := subPath (partitionPath c.disk n) line
  let line := subNumber startKey (startKey ++ padded row.start) line
  subNumber sizeKey (sizeKey ++ padded row.size) line

/-- The counters of the program and what it has printed. -/
@[ext]
structure Rewriting where
  devices : ℕ
  sectors : ℕ
  firsts : ℕ
  lasts : ℕ
  parts : ℕ
  seen : List Text
  out : List Text
  deriving DecidableEq, Repr

/-- The rules, on one line; `none` is `exit 20`. -/
def rewriteLine (c : RewriteSettings) (s : Rewriting) (line : Text) : Option Rewriting :=
  if "device:".toList <+: line then
    some { s with devices := s.devices + 1, out := s.out ++ ["device: ".toList ++ c.disk] }
  else if "sector-size:".toList <+: line then
    some { s with sectors := s.sectors + 1, out := s.out ++ ["sector-size: ".toList ++ decimal c.logical] }
  else if "first-lba:".toList <+: line then
    some { s with firsts := s.firsts + 1, out := s.out ++ [line] }
  else if "last-lba:".toList <+: line then
    some { s with
      lasts := s.lasts + 1
      out := s.out ++ [if c.isGpt then "last-lba: ".toList ++ decimal c.lastLba else line] }
  else if startKey <:+: line then
    let n := trailingNumber (pathOf line)
    match c.row n with
    | none => none
    | some row =>
      if s.seen.contains n then none
      else some { s with
          parts := s.parts + 1, seen := n :: s.seen, out := s.out ++ [rewritePart c n row line] }
  else some { s with out := s.out ++ [line] }

/-- **The rewrite**; `none` when the program fails. -/
def rewriteTemplate (c : RewriteSettings) (lines : List Text) : Option (List Text) :=
  match lines.foldlM (rewriteLine c) ⟨0, 0, 0, 0, 0, [], []⟩ with
  | none => none
  | some s =>
    if s.devices ≠ 1 ∨ s.sectors ≠ 1 ∨ s.parts ≠ c.map.length ∨
      (c.isGpt = true ∧ (s.firsts ≠ 1 ∨ s.lasts ≠ 1)) then none
    else some s.out

/-! ### Paths -/

/-- The path of a partition without its number. -/
def diskStem (disk : Text) : Text := partitionPath disk []

lemma partitionPath_eq (disk number : Text) :
    partitionPath disk number = diskStem disk ++ number := by
  unfold diskStem partitionPath
  split <;> simp

/-- **The number of a partition is found again in the path that is made for it**, on a disk whose
name ends in a digit, and on one whose name does not. -/
lemma stem_diskStem (c : RewriteSettings) : Stem (diskStem c.disk) := by
  obtain ⟨⟨hne, hpath⟩, t, ht⟩ := c.disk_ok
  have hslash : c.disk.head? = some '/' := by
    rw [← ht]
    rfl
  unfold diskStem partitionPath
  split
  next h =>
    refine ⟨?_, ?_, c.disk, 'p', rfl, by decide⟩
    · intro x hx
      rcases List.mem_append.mp hx with hx | hx
      · exact hpath x hx
      · rw [List.mem_singleton.mp hx]
        decide
    · rw [List.head?_append, hslash]
      rfl
  next h =>
    rw [List.append_nil]
    refine ⟨hpath, hslash, c.disk.dropLast, c.disk.getLast hne,
      (List.dropLast_append_getLast hne).symm, ?_⟩
    unfold endsInDigit at h
    rw [List.getLast?_eq_getLast_of_ne_nil hne] at h
    simpa using h

/-! ### Substitutions -/

lemma behindNumber_none {key t : Text} (h : ¬ key <+: t) : behindNumber key t = none := by
  unfold behindNumber
  simp only
  rw [if_neg]
  exact fun hp => h hp.1

/-- The leftmost match is at the first occurrence of the key, if there is one. -/
lemma subNumber_first {k pre : Text} {c : Char} (new t : Text) (hpre : ¬ k ++ [c] <:+: pre ++ k) :
    subNumber (k ++ [c]) new (pre ++ (k ++ [c] ++ t)) = pre ++ subNumber (k ++ [c]) new
      (k ++ [c] ++ t) := by
  induction pre with
  | nil => rfl
  | cons x pre ih =>
    rw [List.cons_append, List.infix_cons_iff, not_or] at hpre
    have hno : ¬ k ++ [c] <+: x :: (pre ++ (k ++ [c] ++ t)) := by
      intro h
      refine hpre.1 (List.prefix_of_prefix_length_le h ?_ ?_)
      · exact ⟨[c] ++ t, by simp⟩
      · simp
    rw [List.cons_append, subNumber, behindNumber_none hno]
    simp only
    rw [ih hpre.2, List.cons_append]

/-- A number behind its key is replaced. -/
lemma subNumber_padded {key : Text} (hkey : key ≠ []) (new : Text) {n : ℤ} (hn : 0 ≤ n)
    {rest : Text} (hrest : NextField rest) :
    subNumber key new (key ++ (padded n ++ rest)) = new ++ rest := by
  have hdigits : ∀ x ∈ decimal n, x.isDigit = true := by
    intro x hx
    cases n with
    | ofNat n => exact isDigit_of_mem_toDigits hx
    | negSucc n => omega
  have hne : decimal n ≠ [] := (headerWord_decimal n).1
  have hstop : rest.takeWhile Char.isDigit = [] ∧ rest.dropWhile Char.isDigit = rest := by
    rcases hrest with rfl | h
    · exact ⟨rfl, rfl⟩
    · obtain ⟨t, rfl⟩ := List.head?_eq_some_iff.mp h
      exact ⟨List.takeWhile_cons_of_neg (by decide), List.dropWhile_cons_of_neg (by decide)⟩
  have hspace : (padded n ++ rest).dropWhile isSpace = decimal n ++ rest := by
    obtain ⟨x, t, hx⟩ := List.exists_cons_of_ne_nil hne
    have hno := isSpace_decimal x (by rw [hx]; simp)
    unfold padded List.leftpad
    rw [List.append_assoc,
      List.dropWhile_append_of_pos fun c hc => by rw [List.eq_of_mem_replicate hc]; decide, hx,
      List.cons_append, List.dropWhile_cons_of_neg (by simp [hno])]
  have hbehind : behindNumber key (key ++ (padded n ++ rest)) = some rest := by
    unfold behindNumber
    rw [List.drop_left, hspace]
    simp only
    rw [List.takeWhile_append_of_pos hdigits, List.dropWhile_append_of_pos hdigits, hstop.1,
      hstop.2, List.append_nil,
      if_pos ⟨List.prefix_append _ _, hne⟩]
  obtain ⟨x, key, rfl⟩ := List.exists_cons_of_ne_nil hkey
  rw [List.cons_append] at hbehind ⊢
  rw [subNumber, hbehind]

/-- The partition at another place. -/
def Entry.moveTo (e : Entry) (start size : ℤ) : Entry := { e with start := start, size := size }

lemma lineText_fields (label : Label) (e : Entry) : lineText label e =
    startKey ++
      (padded e.start ++
        (", ".toList ++
          (sizeKey ++ (padded e.size ++ (fieldText typeKey e.type ++ lineTail label e))))) := by
  unfold lineText fieldText
  simp

lemma lineTail_moveTo (label : Label) (e : Entry) (start size : ℤ) :
    lineTail label (e.moveTo start size) = lineTail label e := rfl

/-- **The substitutions hit the fields they are meant for**, whatever the name of the partition
is. -/
lemma rewritePart_line (c : RewriteSettings) {label : Label} {stem : Text} (hs : Stem stem)
    {e : Entry} (he : e.Valid label) (row : PlanRow) :
    rewritePart c (Nat.toDigits 10 e.number) row (sfdiskLine label stem e) =
      sfdiskLine label (diskStem c.disk) (e.moveTo row.start row.size) := by
  have hword : ∀ x ∈ stem ++ Nat.toDigits 10 e.number, (!isSpace x) = true := by
    intro x hx
    have hpath : isPathChar x = true := by
      rcases List.mem_append.mp hx with hx | hx
      · exact hs.path x hx
      · exact isPathChar_of_isDigit (isDigit_of_mem_toDigits hx)
    rw [isSpace_of_isPathChar hpath, Bool.not_false]
  have hne : stem ++ Nat.toDigits 10 e.number ≠ [] :=
    List.append_ne_nil_of_right_ne_nil _ Nat.toDigits_ne_nil
  have hpath : subPath (partitionPath c.disk (Nat.toDigits 10 e.number)) (sfdiskLine label stem e) =
      diskStem c.disk ++ Nat.toDigits 10 e.number ++ (" : ".toList ++ lineText label e) := by
    unfold subPath
    rw [sfdiskLine_text, show " : ".toList = ' ' :: ": ".toList from rfl, List.cons_append,
      List.takeWhile_append_of_pos hword,
      List.dropWhile_append_of_pos hword, List.takeWhile_cons_of_neg (by decide),
        List.dropWhile_cons_of_neg (by decide),
      List.append_nil, if_neg hne, partitionPath_eq]
  have heq : '=' ∉ diskStem c.disk ++ Nat.toDigits 10 e.number :=
    not_mem_device (stem_diskStem c) _ (by decide)
  have hpad : '=' ∉ padded row.start := not_mem_padded (by decide) (by decide) (by decide)
  -- the start is the first thing called so, and the size is
  have hstart : ¬ "start".toList ++
      ['='] <:+: (diskStem c.disk ++ Nat.toDigits 10 e.number ++ " : ".toList) ++ "start".toList :=
    not_infix_of_not_mem (c := '=') (by decide) (by simpa using heq)
  have hsize : ¬ "size".toList ++ ['='] <:+:
      (diskStem c.disk ++ Nat.toDigits 10 e.number ++ " : start".toList ++
        '=' :: (padded row.start ++ ", ".toList)) ++ "size".toList := by
    intro h
    rw [List.append_assoc, List.cons_append] at h
    rcases infix_split (by decide) (by simpa using heq) h with h | h
    · rw [← List.reverse_prefix] at h
      simp [List.cons_prefix_cons] at h
    · exact not_infix_of_not_mem (c := '=') (by decide) (by simp [hpad]) h
  have hfirst : ∀ rest, NextField rest → subNumber startKey (startKey ++ padded row.start)
      ((diskStem c.disk ++ Nat.toDigits 10 e.number ++ " : ".toList) ++
        (startKey ++ (padded e.start ++ rest))) =
        (diskStem c.disk ++ Nat.toDigits 10 e.number ++ " : ".toList) ++
          (startKey ++ padded row.start ++ rest) := by
    intro rest hrest
    have := subNumber_first (startKey ++ padded row.start) (padded e.start ++ rest) hstart
    rw [show "start".toList ++ ['='] = startKey from rfl] at this
    rw [this, subNumber_padded (by decide) _ he.nonneg.1 hrest]
  have hsecond : ∀ rest, NextField rest → subNumber sizeKey (sizeKey ++ padded row.size)
      ((diskStem c.disk ++ Nat.toDigits 10 e.number ++ " : start".toList ++
        '=' :: (padded row.start ++ ", ".toList)) ++
        (sizeKey ++ (padded e.size ++ rest))) =
        (diskStem c.disk ++ Nat.toDigits 10 e.number ++ " : start".toList ++
          '=' :: (padded row.start ++ ", ".toList)) ++
          (sizeKey ++ padded row.size ++ rest) := by
    intro rest hrest
    have := subNumber_first (sizeKey ++ padded row.size) (padded e.size ++ rest) hsize
    rw [show "size".toList ++ ['='] = sizeKey from rfl] at this
    rw [this, subNumber_padded (by decide) _ he.nonneg.2 hrest]
  -- the same text, cut behind the colon and cut before the size
  have hcut : ∀ rest : Text, (diskStem c.disk ++ Nat.toDigits 10 e.number ++ " : ".toList) ++
      (startKey ++ padded row.start ++ (", ".toList ++ rest)) =
        (diskStem c.disk ++ Nat.toDigits 10 e.number ++ " : start".toList ++
          '=' :: (padded row.start ++ ", ".toList)) ++ rest := by
    intro rest
    rw [show " : start".toList = " : ".toList ++ "start".toList from rfl,
      show startKey = "start".toList ++ ['='] from rfl]
    simp only [List.append_assoc, List.cons_append, List.nil_append]
  unfold rewritePart
  simp only
  rw [hpath, lineText_fields, ← List.append_assoc, hfirst _ (.inr rfl), hcut,
    hsecond _ (nextField_fieldText _ _ _), ← hcut,
    sfdiskLine_text, lineText_fields, lineTail_moveTo]
  simp only [Entry.moveTo, List.append_assoc]

/-! ### Headers -/

/-- A line that is printed as it is. -/
def Untouched (line : Text) : Prop :=
  (∀ key ∈ ["device:".toList, "sector-size:".toList, "first-lba:".toList, "last-lba:".toList], ¬ key <+: line) ∧
    ¬ startKey <:+: line

section Run

variable (c : RewriteSettings)

lemma rewriteLine_untouched (s : Rewriting) {line : Text} (h : Untouched line) :
    rewriteLine c s line = some { s with out := s.out ++ [line] } := by
  unfold rewriteLine
  rw [if_neg (h.1 _ (by simp)), if_neg (h.1 _ (by simp)), if_neg (h.1 _ (by simp)),
    if_neg (h.1 _ (by simp)), if_neg h.2]

lemma foldlM_untouched {lines : List Text} (h : ∀ line ∈ lines, Untouched line) (s : Rewriting) :
    lines.foldlM (rewriteLine c) s = some { s with out := s.out ++ lines } := by
  induction lines generalizing s with
  | nil => simp
  | cons line lines ih =>
    rw [List.foldlM_cons, rewriteLine_untouched c s (h line (by simp))]
    refine (ih (fun l hl => h l (by simp [hl])) _).trans ?_
    simp

lemma foldlM_then {s s' : Rewriting} {lines : List Text}
    (h : lines.foldlM (rewriteLine c) s = some s') (rest : List Text) :
    (lines ++ rest).foldlM (rewriteLine c) s = rest.foldlM (rewriteLine c) s' := by
  rw [List.foldlM_append, h]
  rfl

/-- A header of another kind; three characters tell it from those that are replaced. -/
lemma untouched_header {key : String} {v : Text} (hkey : 3 ≤ key.toList.length ∧ '=' ∉ key.toList)
    (hv : HeaderWord v)
    (hno : ∀ k ∈ ["device:".toList, "sector-size:".toList, "first-lba:".toList, "last-lba:".toList],
      k.take 3 ≠ key.toList.take 3 ∧ 3 ≤ k.length) :
    Untouched (key.toList ++ v) := by
  refine ⟨fun k hk hp => (hno k hk).1 ?_, ?_⟩
  · obtain ⟨t, ht⟩ := hp
    have := congrArg (List.take 3) ht
    rwa [List.take_append_of_le_length (hno k hk).2, List.take_append_of_le_length hkey.1] at this
  · refine not_infix_of_not_mem (c := '=') (by decide) ?_
    rw [List.mem_append, not_or]
    exact ⟨hkey.2, not_mem_of_all hv.2 (by decide)⟩

lemma untouched_ignored {line : Text} (h : Ignored line) : Untouched line := by
  have hmem : ∀ key : Text, key ∈ headerRules.map Prod.fst → ¬ key <+: line := by
    intro key hkey
    obtain ⟨rule, hrule, rfl⟩ := List.mem_map.mp hkey
    exact h.1 rule hrule
  refine ⟨fun key hkey => hmem key ?_, h.2⟩
  revert key
  decide

lemma rewriteLine_device (s : Rewriting) (v : Text) : rewriteLine c s ("device: ".toList ++ v) =
    some { s with devices := s.devices + 1, out := s.out ++ ["device: ".toList ++ c.disk] } := by
  unfold rewriteLine
  rw [if_pos ⟨' ' :: v, rfl⟩]

lemma rewriteLine_sector (s : Rewriting) (v : Text) : rewriteLine c s ("sector-size: ".toList ++ v) =
    some { s with sectors := s.sectors + 1, out := s.out ++ ["sector-size: ".toList ++ decimal c.logical] } := by
  have h1 : ¬ "device:".toList <+: "sector-size: ".toList ++ v :=
    fun h => absurd (List.cons_prefix_cons.mp h).1 (by decide)
  unfold rewriteLine
  rw [if_neg h1, if_pos ⟨' ' :: v, rfl⟩]

lemma rewriteLine_first (s : Rewriting) (v : Text) : rewriteLine c s ("first-lba: ".toList ++ v) =
    some { s with firsts := s.firsts + 1, out := s.out ++ ["first-lba: ".toList ++ v] } := by
  have h1 : ¬ "device:".toList <+: "first-lba: ".toList ++ v :=
    fun h => absurd (List.cons_prefix_cons.mp h).1 (by decide)
  have h2 : ¬ "sector-size:".toList <+: "first-lba: ".toList ++ v :=
    fun h => absurd (List.cons_prefix_cons.mp h).1 (by decide)
  unfold rewriteLine
  rw [if_neg h1, if_neg h2, if_pos ⟨' ' :: v, rfl⟩]

lemma rewriteLine_last (s : Rewriting) (v : Text) : rewriteLine c s ("last-lba: ".toList ++ v) =
    some { s with
      lasts := s.lasts + 1
      out := s.out ++ ["last-lba: ".toList ++ if c.isGpt then decimal c.lastLba else v] } := by
  have h1 : ¬ "device:".toList <+: "last-lba: ".toList ++ v :=
    fun h => absurd (List.cons_prefix_cons.mp h).1 (by decide)
  have h2 : ¬ "sector-size:".toList <+: "last-lba: ".toList ++ v :=
    fun h => absurd (List.cons_prefix_cons.mp h).1 (by decide)
  have h3 : ¬ "first-lba:".toList <+: "last-lba: ".toList ++ v :=
    fun h => absurd (List.cons_prefix_cons.mp h).1 (by decide)
  unfold rewriteLine
  rw [if_neg h1, if_neg h2, if_neg h3, if_pos ⟨' ' :: v, rfl⟩]
  cases c.isGpt <;> rfl

/-- A header with a number, as it is rewritten. -/
lemma foldlM_firstLba (s : Rewriting) (n : ℤ) : (numberHeader "first-lba: " n).foldlM (rewriteLine c) s =
    some { s with firsts := s.firsts + (if n = 0 then 0 else 1), out := s.out ++ numberHeader "first-lba: " n } := by
  unfold numberHeader
  split
  · simp
  · rw [List.foldlM_cons, rewriteLine_first]
    rfl

lemma foldlM_lastLba (s : Rewriting) (n : ℕ) (hn : c.isGpt = true → n ≠ 0) :
    (numberHeader "last-lba: " n).foldlM (rewriteLine c) s =
      some { s with
        lasts := s.lasts + (if n = 0 then 0 else 1)
        out :=
          s.out ++ numberHeader "last-lba: " ((if c.isGpt then c.lastLba else n : ℕ) : ℤ) } := by
  have hpos := c.lastLba_pos
  unfold numberHeader
  by_cases h0 : n = 0
  · have hg : c.isGpt = false := by
      by_contra h
      exact hn (by simpa using h) h0
    simp [h0, hg]
  · rw [if_neg (by omega), List.foldlM_cons, rewriteLine_last, if_neg h0]
    cases hg : c.isGpt with
    | true =>
      have := hpos hg
      rw [if_pos rfl, if_pos rfl, if_neg (by omega)]
      rfl
    | false => simp [h0]

end Run

/-- The headers of a dump, cut at those that are replaced. -/
lemma headerLines_cut (label labelId device unit : Text) (first last : ℤ) {sector : ℤ}
    (hsector : sector ≠ 0) (other : List Text) :
    headerLines label labelId device unit first last sector other =
      ["label: ".toList ++ label, "label-id: ".toList ++ labelId] ++
        (["device: ".toList ++ device] ++
        (["unit: ".toList ++ unit] ++
          (numberHeader "first-lba: " first ++ (numberHeader "last-lba: " last ++
          (other ++ (["sector-size: ".toList ++ decimal sector] ++ [[]])))))) := by
  have hnumber : numberHeader "sector-size: " sector = ["sector-size: ".toList ++ decimal sector] :=
    if_neg hsector
  unfold headerLines
  rw [hnumber]
  simp only [List.append_assoc, List.cons_append, List.nil_append]

namespace LayoutDump

variable (c : RewriteSettings) (d : LayoutDump)

lemma untouched_labels :
    ∀ line ∈ ["label: ".toList ++ d.label.text, "label-id: ".toList ++ d.labelId],
      Untouched line := by
  intro line hline
  simp only [List.mem_cons, List.not_mem_nil, or_false] at hline
  rcases hline with rfl | rfl
  · exact untouched_header (by decide) d.label.headerWord (by decide)
  · exact untouched_header (by decide) (headerWord_labelId d.labelId_ok) (by decide)

lemma untouched_unit : ∀ line ∈ ["unit: ".toList ++ "sectors".toList], Untouched line := by
  intro line hline
  rw [List.mem_singleton.mp hline]
  exact untouched_header (by decide) headerWord_sectors (by decide)

lemma untouched_end : ∀ line ∈ [([] : Text)], Untouched line := by
  intro line hline
  rw [List.mem_singleton.mp hline]
  exact untouched_ignored ignored_nil

lemma foldlM_device (s : Rewriting) (v : Text) : ["device: ".toList ++ v].foldlM (rewriteLine c) s =
    some { s with devices := s.devices + 1, out := s.out ++ ["device: ".toList ++ c.disk] } := by
  rw [List.foldlM_cons, rewriteLine_device]
  rfl

lemma foldlM_sector (s : Rewriting) (v : Text) : ["sector-size: ".toList ++ v].foldlM (rewriteLine c) s =
    some { s with sectors := s.sectors + 1, out := s.out ++ ["sector-size: ".toList ++ decimal c.logical] } := by
  rw [List.foldlM_cons, rewriteLine_sector]
  rfl

/-- The last usable sector: the one of the target on GPT. -/
def newLastLba : ℕ := if c.isGpt then c.lastLba else d.lastLba

/-- What has been rewritten when the partition lines begin. -/
def rewriteStart : Rewriting :=
  ⟨1, 1, if d.firstLba = 0 then 0 else 1, if d.lastLba = 0 then 0 else 1, 0, [],
    headerLines d.label.text d.labelId c.disk "sectors".toList d.firstLba (d.newLastLba c)
      c.logical d.other⟩

lemma rewriteStart_out : (d.rewriteStart c).out =
    ["label: ".toList ++ d.label.text, "label-id: ".toList ++ d.labelId] ++
      (["device: ".toList ++ c.disk] ++
      (["unit: ".toList ++ "sectors".toList] ++ (numberHeader "first-lba: " d.firstLba ++
        (numberHeader "last-lba: " ((if c.isGpt then c.lastLba else d.lastLba : ℕ) : ℤ) ++
          (d.other ++ (["sector-size: ".toList ++ decimal c.logical] ++ [[]])))))) := by
  have hlogical : (c.logical : ℤ) ≠ 0 := by
    have := c.logical_pos
    omega
  exact headerLines_cut _ _ _ _ _ _ hlogical _

/-- **The headers of the disk are replaced, and the others are kept.** -/
lemma foldlM_headers (hgpt : c.isGpt = true ↔ d.label = .gpt) :
    (headerLines d.label.text d.labelId d.device "sectors".toList d.firstLba d.lastLba d.sectorSize d.other).foldlM (rewriteLine c)
      ⟨0, 0, 0, 0, 0, [], []⟩ = some (d.rewriteStart c) := by
  have hlast : c.isGpt = true → d.lastLba ≠ 0 := fun h => by
    have := (d.lba_ok (hgpt.mp h)).2
    omega
  have hsector : (d.sectorSize : ℤ) ≠ 0 := by
    have := d.sector_ok
    omega
  rw [headerLines_cut _ _ _ _ _ _ hsector, foldlM_then c (foldlM_untouched c d.untouched_labels _),
    foldlM_then c (foldlM_device c _ _), foldlM_then c (foldlM_untouched c untouched_unit _),
    foldlM_then c (foldlM_firstLba c _ _), foldlM_then c (foldlM_lastLba c _ _ hlast),
    foldlM_then c (foldlM_untouched c (fun line h => untouched_ignored (d.other_ok line h)) _),
    foldlM_then c (foldlM_sector c _ _), foldlM_untouched c untouched_end]
  have hout := d.rewriteStart_out c
  refine congrArg some (Rewriting.ext rfl rfl ?_ ?_ rfl rfl ?_)
  · simp only [rewriteStart, Nat.zero_add, Int.natCast_eq_zero]
  · simp only [rewriteStart, Nat.zero_add]
  · refine Eq.trans ?_ hout.symm
    simp only [List.append_assoc, List.nil_append]

end LayoutDump

/-! ### Partitions -/

/-- The row of a number in the plan. -/
lemma row_of_mem (c : RewriteSettings) {n : ℕ} (hn : n ∈ c.map.map (·.number)) :
    ∃ row ∈ c.map, row.number = n ∧ c.row (Nat.toDigits 10 n) = some row := by
  obtain ⟨r, hr, hrn⟩ := List.mem_map.mp hn
  cases hf : c.row (Nat.toDigits 10 n) with
  | none =>
    have := List.find?_eq_none.mp hf r (List.mem_reverse.mpr hr)
    simp [hrn] at this
  | some row =>
    have hdigits := List.find?_some hf
    have hmem := List.mem_of_find?_eq_some hf
    exact ⟨row, List.mem_reverse.mp hmem, toDigits_injective (by simpa using hdigits), rfl⟩

/-- A partition at the place the plan has for it. -/
def RewriteSettings.placed (c : RewriteSettings) (e : Entry) : Entry :=
  match c.row (Nat.toDigits 10 e.number) with
  | some row => e.moveTo row.start row.size
  | none => e

lemma placed_eq (c : RewriteSettings) {e : Entry} (h : e.number ∈ c.map.map (·.number)) :
    ∃ row ∈ c.map, row.number = e.number ∧ c.row (Nat.toDigits 10 e.number) = some row ∧
      c.placed e = e.moveTo row.start row.size := by
  obtain ⟨row, hrow, hn, hfind⟩ := row_of_mem c h
  refine ⟨row, hrow, hn, hfind, ?_⟩
  unfold RewriteSettings.placed
  rw [hfind]

lemma placed_number (c : RewriteSettings) (e : Entry) : (c.placed e).number = e.number := by
  unfold RewriteSettings.placed
  split <;> rfl

lemma placed_proper (c : RewriteSettings) {label : Label} {e : Entry} (he : e.Proper label) :
    (c.placed e).Proper label := by
  unfold RewriteSettings.placed
  split
  next row hrow =>
    have hpos := (c.rows_ok row (List.mem_reverse.mp (List.mem_of_find?_eq_some hrow))).2
    have hsize : (0 : ℤ) < row.size := by omega
    exact ⟨{ he.1 with nonneg := ⟨Int.natCast_nonneg _, hsize.le⟩ }, he.2.1, hsize⟩
  next => exact he

/-- A partition line is none of the headers. -/
lemma rewriteLine_line (c : RewriteSettings) {label : Label} {stem : Text} (hs : Stem stem)
    {e : Entry} (he : e.Valid label) (hmem : e.number ∈ c.map.map (·.number)) {s : Rewriting}
    (hnew : Nat.toDigits 10 e.number ∉ s.seen) :
    rewriteLine c s (sfdiskLine label stem e) = some { s with
      parts := s.parts + 1
      seen := Nat.toDigits 10 e.number :: s.seen
      out := s.out ++ [sfdiskLine label (diskStem c.disk) (c.placed e)] } := by
  obtain ⟨row, -, -, hrow, hplaced⟩ := placed_eq c hmem
  have hno : ∀ key : Text, key.head? ≠ some '/' → key ≠ [] → ¬ key <+: sfdiskLine label stem e := by
    intro key hkey hne hp
    obtain ⟨x, key, rfl⟩ := List.exists_cons_of_ne_nil hne
    obtain ⟨t, ht⟩ : ∃ t, stem = '/' :: t := List.head?_eq_some_iff.mp hs.slash
    rw [sfdiskLine_text, ht] at hp
    rw [(List.cons_prefix_cons.mp hp).1] at hkey
    exact hkey rfl
  have hstart : startKey <:+: sfdiskLine label stem e := by
    rw [sfdiskLine_text]
    unfold lineText
    exact (List.prefix_append _ _).isInfix.trans
      ((List.suffix_append _ _).isInfix.trans (List.suffix_append _ _).isInfix)
  have hcontains : s.seen.contains (Nat.toDigits 10 e.number) = false := by simpa using hnew
  unfold rewriteLine
  rw [if_neg (hno _ (by decide) (by decide)), if_neg (hno _ (by decide) (by decide)),
    if_neg (hno _ (by decide) (by decide)),
    if_neg (hno _ (by decide) (by decide)), if_pos hstart]
  simp only [pathOf_line hs, trailingNumber_device hs, hrow, hcontains, rewritePart_line c hs he, hplaced]
  rfl

/-- **The partition lines are rewritten one after another.** -/
lemma foldlM_lines (c : RewriteSettings) {label : Label} {stem : Text} (hs : Stem stem)
    {es : List Entry} (he : ∀ e ∈ es, e.Valid label ∧ e.number ∈ c.map.map (·.number)) :
    ∀ s : Rewriting, (es.map (·.number)).Nodup → (∀ e ∈ es, Nat.toDigits 10 e.number ∉ s.seen) →
      ∃ seen, (es.map (sfdiskLine label stem)).foldlM (rewriteLine c) s = some { s with
        parts := s.parts + es.length
        seen := seen
        out := s.out ++ (es.map c.placed).map (sfdiskLine label (diskStem c.disk)) } := by
  induction es with
  | nil =>
    intro s _ _
    exact ⟨s.seen, by simp⟩
  | cons e es ih =>
    intro s hnd hnew
    rw [List.map_cons, List.nodup_cons] at hnd
    have hlater : ∀ x ∈ es, Nat.toDigits 10 x.number ∉ Nat.toDigits 10 e.number :: s.seen := by
      intro x hx hmem
      rcases List.mem_cons.mp hmem with h | h
      · exact hnd.1 (List.mem_map.mpr ⟨x, hx, toDigits_injective h⟩)
      · exact hnew x (by simp [hx]) h
    obtain ⟨seen, h⟩ := ih (fun x hx => he x (by simp [hx])) { s with
      parts := s.parts + 1
      seen := Nat.toDigits 10 e.number :: s.seen
      out := s.out ++ [sfdiskLine label (diskStem c.disk) (c.placed e)] } hnd.2 hlater
    refine ⟨seen, ?_⟩
    rw [List.map_cons, List.foldlM_cons,
      rewriteLine_line c hs (he e (by simp)).1 (he e (by simp)).2 (hnew e (by simp))]
    refine h.trans ?_
    simp only [List.map_cons, List.length_cons, List.append_assoc, List.singleton_append]
    congr 2
    omega

/-! ### The dump that is written -/

/-- A dump with the headers of the target and the partitions at their new places. -/
def LayoutDump.rewritten (c : RewriteSettings) (d : LayoutDump)
    (hgpt : c.isGpt = true ↔ d.label = .gpt) : LayoutDump :=
  { d with
    device := c.disk
    lastLba := d.newLastLba c
    sectorSize := c.logical
    stem := diskStem c.disk
    entries := d.entries.map c.placed
    device_ok := c.disk_ok
    lba_ok := fun h => by
      refine ⟨(d.lba_ok h).1, ?_⟩
      unfold LayoutDump.newLastLba
      rw [if_pos (hgpt.mpr h)]
      exact c.lastLba_pos (hgpt.mpr h)
    sector_ok := c.logical_pos
    stem_ok := stem_diskStem c
    nonempty := by simpa using d.nonempty
    nodup := by
      have hnumbers : (fun e : Entry => e.number) ∘ c.placed = fun e => e.number :=
        funext fun e => placed_number c e
      rw [List.map_map, hnumbers]
      exact d.nodup
    valid := by
      intro e he
      obtain ⟨x, hx, rfl⟩ := List.mem_map.mp he
      exact placed_proper c (d.valid x hx) }

/-- What a rewritten dump keeps of the template, and what it takes from the target and the plan. -/
structure Rewritten (c : RewriteSettings) (d d' : LayoutDump) : Prop where
  label : d'.label = d.label
  labelId : d'.labelId = d.labelId
  device : d'.device = c.disk
  firstLba : d'.firstLba = d.firstLba
  lastLba : d'.lastLba = if d.label = .gpt then c.lastLba else d.lastLba
  sectorSize : d'.sectorSize = c.logical
  other : d'.other = d.other
  stem : d'.stem = diskStem c.disk
  /-- Line for line: the place is the plan's, the number is found again in the path, and the other
  fields are kept. -/
  entries : List.Forall₂ (fun e e' => ∃ row ∈ c.map, row.number = e.number ∧
    e' = e.moveTo row.start row.size ∧
    pathOf (sfdiskLine d'.label d'.stem e') = partitionPath c.disk (Nat.toDigits 10 e.number) ∧
    trailingNumber (partitionPath c.disk (Nat.toDigits 10 e.number)) = Nat.toDigits 10 e.number)
      d.entries d'.entries

/-- **The rewrite of a template** yields the dump with the places of the plan on the target, and
nothing else is changed. -/
theorem rewriteTemplate_dump (c : RewriteSettings) (d : LayoutDump)
    (hgpt : c.isGpt = true ↔ d.label = .gpt)
    (hnumbers : (c.map.map (·.number)).Perm (d.entries.map (·.number))) :
    ∃ d' : LayoutDump, rewriteTemplate c d.lines = some d'.lines ∧ Rewritten c d d' := by
  have hmem : ∀ e ∈ d.entries, e.Valid d.label ∧ e.number ∈ c.map.map (·.number) := fun e he =>
    ⟨(d.valid e he).1, hnumbers.symm.subset (List.mem_map_of_mem he)⟩
  have hlength : d.entries.length = c.map.length := by simpa using hnumbers.length_eq.symm
  refine ⟨d.rewritten c hgpt, ?_, ?_⟩
  · obtain ⟨seen, hlines⟩ := foldlM_lines c d.stem_ok hmem (d.rewriteStart c) d.nodup fun _ _ =>
      List.not_mem_nil
    unfold rewriteTemplate LayoutDump.lines
    rw [foldlM_then c (d.foldlM_headers c hgpt), hlines]
    simp only
    rw [if_neg]
    · rfl
    · rintro (h | h | h | ⟨hg, h⟩)
      · exact h rfl
      · exact h rfl
      · refine h ?_
        show 0 + d.entries.length = c.map.length
        omega
      · obtain ⟨h1, h2⟩ := d.lba_ok (hgpt.mp hg)
        have hfirst : (d.rewriteStart c).firsts = 1 := if_neg (by omega)
        have hlast : (d.rewriteStart c).lasts = 1 := if_neg (by omega)
        exact h.elim (fun h => h hfirst) fun h => h hlast
  · have hstem := stem_diskStem c
    refine ⟨rfl, rfl, rfl, rfl, ?_, rfl, rfl, rfl, ?_⟩
    · show (if c.isGpt = true then c.lastLba else d.lastLba) = _
      simp only [hgpt]
    · show List.Forall₂ _ d.entries (d.entries.map c.placed)
      rw [List.forall₂_map_right_iff, List.forall₂_same]
      intro e he
      obtain ⟨row, hrow, hn, -, hplaced⟩ := placed_eq c (hmem e he).2
      refine ⟨row, hrow, hn, hplaced, ?_, ?_⟩
      · rw [partitionPath_eq, ← placed_number c e]
        exact pathOf_line hstem _
      · rw [partitionPath_eq, trailingNumber_device hstem]

/-- A template with a partition whose name looks like other fields. -/
def keywordDump : LayoutDump :=
  { label := .gpt
    labelId := "6F1A3B5C-01".toList
    device := "/dev/sda".toList
    firstLba := 2048
    lastLba := 99966
    sectorSize := 512
    other := ["grain: 512".toList]
    stem := "/dev/sda".toList
    entries :=
      [⟨1, 2048, 4096, "0FC63DAF".toList, "A1".toList, some "start=1, size=2".toList, none, false⟩]
    labelId_ok := isLabelId_sample
    device_ok := device_sda
    lba_ok := fun _ => lba_sample
    sector_ok := sector_sample
    other_ok := by
      intro line hline
      rw [List.mem_singleton.mp hline]
      exact ⟨by decide, by decide⟩
    stem_ok := stem_sda
    nonempty := by simp
    nodup := by simp
    valid := by
      intro e he
      rw [List.mem_singleton.mp he]
      exact ⟨⟨by decide, List.all_eq_true.mp rfl, fun _ => ⟨by decide, List.all_eq_true.mp rfl⟩,
        by decide, by decide⟩,
        by decide, by decide⟩ }

/-- A plan for a disk whose name ends in a digit. -/
def nvmeSettings : RewriteSettings :=
  { map := [⟨1, 4096, 8192⟩]
    disk := "/dev/nvme0n1".toList
    logical := 512
    isGpt := true
    lastLba := 197951
    rows_ok := by decide
    disk_ok := ⟨⟨by decide, List.all_eq_true.mp rfl⟩, by decide⟩
    logical_pos := sector_sample
    lastLba_pos := fun _ => by decide }

theorem rewriteTemplate_nvme :
    ∃ d' : LayoutDump, rewriteTemplate nvmeSettings keywordDump.lines = some d'.lines ∧
      Rewritten nvmeSettings keywordDump d' :=
  rewriteTemplate_dump nvmeSettings keywordDump (iff_of_true rfl rfl) (List.Perm.refl [1])

end Pxeos.Sfdisk
