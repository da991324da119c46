import Pxeos.Sfdisk.DumpRead
import Pxeos.Sfdisk.FillRun
import Mathlib.Data.List.Forall2

/-!
# What an action prints

Every action leaves the records of a table where they are, but for their starts and sizes
(`perform_moved`).  So the script prints for every partition of a dump what it has kept of it
(`runScript_prints`), and reads it again.
-/

namespace Pxeos.Sfdisk

open Pxeos.Lib

/-! ### The actions -/

/-- The record at another place. -/
def Part.moveTo (p : Part) (start size : ℤ) : Part := { p with start := start, size := size }

/-- A record and the same record at its new place. -/
def Part.Moved (p q : Part) : Prop := q = p.moveTo q.start q.size

lemma Part.Moved.refl (p : Part) : p.Moved p := rfl

lemma Part.Moved.trans {p q r : Part} (h1 : p.Moved q) (h2 : q.Moved r) : p.Moved r := by
  unfold Part.Moved at *
  rw [h2, h1]
  rfl

lemma moved_moveTo (p : Part) (start size : ℤ) : p.Moved (p.moveTo start size) := rfl

lemma forall₂_moved_trans : ∀ {ps qs rs : List Part}, List.Forall₂ Part.Moved ps qs →
    List.Forall₂ Part.Moved qs rs →
    List.Forall₂ Part.Moved ps rs
  | _, _, _, .nil, .nil => .nil
  | _, _, _, .cons h hs, .cons h' hs' => .cons (h.trans h') (forall₂_moved_trans hs hs')

lemma forall₂_moved_map {ps : List Part} {f : Part → Part} (h : ∀ p ∈ ps, p.Moved (f p)) :
    List.Forall₂ Part.Moved ps (ps.map f) := by
  rw [List.forall₂_map_right_iff, List.forall₂_same]
  exact h

/-- The records keep their numbers. -/
lemma forall₂_moved_numbers {ps qs : List Part} (h : List.Forall₂ Part.Moved ps qs) :
    qs.map (·.number) = ps.map (·.number) := by
  induction h with
  | nil => rfl
  | @cons p q ps qs hm _ ih =>
    rw [List.map_cons, List.map_cons, ih, hm]
    rfl

/-- Every new record is one of the old records. -/
lemma exists_of_moved {ps qs : List Part} (h : List.Forall₂ Part.Moved ps qs) :
    ∀ q ∈ qs, ∃ p ∈ ps, p.Moved q := by
  induction h with
  | nil => simp
  | @cons p q ps qs hm _ ih =>
    intro x hx
    rcases List.mem_cons.mp hx with rfl | hx
    · exact ⟨p, by simp, hm⟩
    · obtain ⟨y, hy, hyx⟩ := ih x hx
      exact ⟨y, by simp [hy], hyx⟩

lemma retarget_moved (c : Settings) (t : Table) (tr : Traversal t.numbers) (target : Text)
    (place : Part → ℤ × ℤ) :
    List.Forall₂ Part.Moved t.parts (retarget c t tr target place) := by
  unfold retarget
  refine forall₂_moved_map fun p _ => ?_
  simp only
  split
  · split
    · exact moved_moveTo p _ _
    · exact .refl p
  · exact .refl p

lemma clamp_moved (sectorSize : ℕ) (label : Label) (diskEnd : ℤ) (q : Part) :
    q.Moved (clamp sectorSize label diskEnd q) := by
  unfold clamp
  split
  · exact moved_moveTo q _ _
  · exact .refl q

lemma resizeContainer_moved {ns : List ℕ} (tr : Traversal ns) (sorted : Bool) (o : Option ℕ)
    (ps : List Part) :
    List.Forall₂ Part.Moved ps (resizeContainer tr sorted o ps) := by
  unfold resizeContainer
  cases o with
  | none => exact List.forall₂_same.mpr fun p _ => .refl p
  | some n =>
    refine forall₂_moved_map fun p _ => ?_
    split
    · exact moved_moveTo p _ _
    · exact .refl p

/-- The placement loop writes a record over the same record. -/
lemma moved_overwrite (c : Settings) (t : Table) (tr : Traversal t.numbers) :
    List.Forall₂ Part.Moved (wanted c t) (moved c t tr) := by
  unfold moved overwrite
  refine forall₂_moved_map fun w hw => ?_
  obtain ⟨p, hp, rfl⟩ := List.mem_map.mp hw
  cases hf : ((planned c t tr).map (clamp c.sectorSize t.label (diskEnd c t))).find?
      fun q => q.number == (wantPart c t p).number with
  | none => exact .refl _
  | some q =>
    obtain ⟨r, hr, rfl⟩ := List.mem_map.mp (List.mem_of_find?_eq_some hf)
    have hn : r.number = p.number := by
      have := List.find?_some hf
      rw [clamp_number] at this
      simpa using this
    have hwant : (wantPart c t p).Moved r := by
      rw [planned_record hr hp hn]
      rfl
    exact hwant.trans (clamp_moved _ _ _ r)

lemma FillRun.parts_moved {c : Settings} {t : Table} {tr : Traversal t.numbers} {out : Filled}
    (run : FillRun c t tr out) :
    List.Forall₂ Part.Moved t.parts out.parts := by
  have hwanted : List.Forall₂ Part.Moved t.parts (wanted c t) :=
    forall₂_moved_map fun p _ => moved_moveTo p p.start (wantSize c t p)
  rw [run.parts]
  exact forall₂_moved_trans (forall₂_moved_trans hwanted (moved_overwrite c t tr))
    (resizeContainer_moved _ _ _ _)

/-- **An action changes starts and sizes only.** -/
theorem perform_moved {c : Settings} {a : Action} {unit : Text} {t : Table}
    {tr : Traversal t.numbers} {out : Filled} (h : perform c a unit t tr = .ok out) :
    List.Forall₂ Part.Moved t.parts out.parts := by
  have hsame : List.Forall₂ Part.Moved t.parts t.parts := List.forall₂_same.mpr fun p _ => .refl p
  have hresize : ∀ target sizePos logical,
      List.Forall₂ Part.Moved t.parts (resizePartition c t tr target sizePos logical) := by
    intro target sizePos logical
    unfold resizePartition
    exact retarget_moved c t tr target _
  have hmove : ∀ target sizePos,
      List.Forall₂ Part.Moved t.parts (movePartition c t tr target sizePos) := by
    intro target sizePos
    unfold movePartition
    exact retarget_moved c t tr target _
  cases a with
  | filldisk => exact (fillDisk_ok h).parts_moved
  | resize target sizePos logical =>
    rw [perform] at h
    split at h
    · split at h
      · cases h
      · obtain rfl := Except.ok.inj h
        exact hresize target sizePos logical
    · obtain rfl := Except.ok.inj h
      exact hsame
  | move target sizePos =>
    rw [perform] at h
    split at h
    · split at h
      · cases h
      · obtain rfl := Except.ok.inj h
        exact hmove target sizePos
    · obtain rfl := Except.ok.inj h
      exact hsame

/-! ### Reading tables -/

lemma headerWord_sectors : HeaderWord "sectors".toList := ⟨by decide, List.all_eq_true.mp rfl⟩

lemma Label.headerWord (label : Label) : HeaderWord label.text := by
  cases label <;> exact ⟨by decide, List.all_eq_true.mp rfl⟩

section Lines

variable {label : Label} {stem : Text} (hs : Stem stem)
include hs

/-- The line of a record, and what is read from it. -/
lemma Shaped.reads {p q : Part} (hp : Shaped label stem p) (hd : q.device = p.device)
    (hq : readPart label.text blankPart (displayLine label.text p) = q) :
    Reads label.text (displayLine label.text p) q := by
  refine ⟨?_, ?_, ?_, hq⟩
  · obtain ⟨rest, hrest⟩ := List.head?_eq_some_iff.mp hs.slash
    unfold displayLine
    rw [hp.device, hrest]
    rfl
  · unfold displayLine
    rw [show " : start=".toList = " : ".toList ++ startKey from rfl]
    simp only [List.append_assoc]
    exact (List.prefix_append _ _).isInfix.trans
      ((List.suffix_append _ _).trans (List.suffix_append _ _)).isInfix
  · rw [hd]
    exact words_displayLine hs hp

omit hs in
/-- Partitions with different numbers have different devices. -/
lemma devices_nodup {ps : List Part} (hps : ∀ p ∈ ps, p.device = stem ++ Nat.toDigits 10 p.number)
    (hnd : (ps.map (·.number)).Nodup) : (ps.map (·.device)).Nodup := by
  unfold List.Nodup at hnd ⊢
  rw [List.pairwise_map] at hnd ⊢
  refine hnd.imp_of_mem fun {p q} hp hq hne he => hne ?_
  rw [hps p hp, hps q hq] at he
  exact toDigits_injective (List.append_cancel_left he)

/-- **A printed table is read again**, with the sizes for the minimum sizes. -/
theorem scan_displayOutput {s : Scan} (hl : s.label = label.text) (hi : HeaderWord s.labelid)
    (hd : HeaderWord s.device) (hu : HeaderWord s.unit) (hp : ∀ p ∈ s.parts, Printable label stem p)
    (hnd : (s.parts.map (·.number)).Nodup) :
    scan (displayOutput s) =
      { s with parts := s.parts.map fun p => { p with minsize := p.size } } := by
  have hlabel : HeaderWord s.label := hl ▸ label.headerWord
  have hhead : displayHeader s = headerLines s.label s.labelid s.device s.unit s.firstlba s.lastlba
      s.sectorsize [] := by
    unfold displayHeader headerLines
    rw [if_pos ⟨hlabel.1, hi.1, hd.1⟩, if_neg hu.1, List.append_nil]
    rfl
  have hreads : List.Forall₂ (Reads label.text) (s.parts.map (displayLine s.label))
      (s.parts.map fun p => { p with minsize := p.size }) := by
    rw [hl, List.forall₂_map_left_iff, List.forall₂_map_right_iff, List.forall₂_same]
    intro p hmem
    refine (hp p hmem).toShaped.reads hs rfl ?_
    rw [readPart_shaped hs (hp p hmem).toShaped, (hp p hmem).readNameAttrs_eq]
  unfold scan displayOutput
  rw [List.foldl_append, hhead, foldl_headerLines _ _ _ hlabel hi hd hu (by simp)]
  refine (foldl_reads hreads (s := { s with parts := [] }) hl ?_).trans rfl
  rw [List.map_map]
  exact devices_nodup (fun p hmem => (hp p hmem).device) hnd

end Lines

/-- A record at another place is printed as well. -/
lemma Printable.moved {label : Label} {stem : Text} {p q : Part} (hp : Printable label stem p)
    (h : p.Moved q) :
    Printable label stem q := by
  rw [h]
  exact
    { device := hp.device
      type := hp.type
      dos := hp.dos
      gpt := hp.gpt
      name := hp.name
      attrs := hp.attrs }

lemma kept_numbers (label : Label) (stem : Text) (es : List Entry) :
    (es.map (Entry.kept label stem)).map (·.number) = es.map (·.number) := by
  rw [List.map_map]
  refine List.map_congr_left fun e _ => ?_
  show (e.kept label stem).number = e.number
  unfold Entry.kept
  split <;> rfl

/-- **What is read from a dump.** -/
theorem scan_dump (d : Dump) (hplain : ∀ e ∈ d.entries, e.Plain) :
    scan d.lines = ⟨d.label.text, d.labelId, d.device, "sectors".toList, d.firstLba,
      d.lastLba, d.sectorSize,
      d.entries.map (Entry.kept d.label d.stem)⟩ := by
  have hreads : List.Forall₂ (Reads d.label.text) (d.entries.map (sfdiskLine d.label d.stem))
      (d.entries.map (Entry.kept d.label d.stem)) := by
    rw [List.forall₂_map_left_iff, List.forall₂_map_right_iff, List.forall₂_same]
    intro e hmem
    have he := d.valid e hmem
    have hp := hplain e hmem
    have hdev : (e.kept d.label d.stem).device = (e.part d.label d.stem).device := by
      unfold Entry.kept
      split <;> rfl
    have hread := readPart_sfdiskLine he hp d.stem_ok
    rw [sfdiskLine_eq fun h => (he.uuid h).1] at hread ⊢
    exact (part_shaped he hp).reads d.stem_ok hdev hread
  unfold scan Dump.lines
  rw [List.foldl_append, foldl_headerLines _ _ _ d.label.headerWord d.words_ok.1 d.words_ok.2
    headerWord_sectors d.other_ok,
    foldl_reads hreads rfl]
  · rfl
  · refine devices_nodup (fun p hmem => (?_ : p.device = d.stem ++ Nat.toDigits 10 p.number)) ?_
    · obtain ⟨e, he, rfl⟩ := List.mem_map.mp hmem
      exact (kept_printable (d.valid e he) (hplain e he)).device
    · rw [kept_numbers]
      exact d.sorted.imp fun h => ne_of_lt h

/-! ### The script -/

/-- The table of the actions has the records by number. -/
lemma table?_parts {s : Scan} {t : Table} (h : s.table? = some t)
    (hs : (s.parts.map (·.number)).Pairwise (· < ·)) :
    t.parts = s.parts := by
  have hsort : s.parts.insertionSort (fun p q => p.number ≤ q.number) = s.parts := by
    refine List.Pairwise.insertionSort_eq ?_
    rw [List.pairwise_map] at hs
    exact hs.imp le_of_lt
  unfold Scan.table? at h
  simp only [hsort] at h
  split at h
  · split at h
    · obtain rfl := Option.some.inj h
      rfl
    · cases h
  · split at h
    · split at h
      · obtain rfl := Option.some.inj h
        rfl
      · cases h
    · cases h

/-- What the script prints for a partition: what it has kept of it, at a new place.  If nothing was
dropped, this is the line of the dump with the new start and the new size. -/
def Carried (label : Label) (stem : Text) (e : Entry) (q : Part) : Prop :=
  ∃ start size, q = (e.kept label stem).moveTo start size ∧
    (label = .dos ∨ e.corrupted = false →
      displayLine label.text q = sfdiskLine label stem { e with start := start, size := size })

lemma carried_of_moved {label : Label} {stem : Text} {e : Entry} (he : e.Valid label) {q : Part}
    (h : (e.kept label stem).Moved q) : Carried label stem e q := by
  refine ⟨q.start, q.size, h, fun hkeep => ?_⟩
  have hkept : e.kept label stem = e.part label stem := by
    unfold Entry.kept
    rw [if_neg]
    rintro ⟨rfl, hc⟩
    rcases hkeep with h | h
    · cases h
    · rw [h] at hc
      cases hc
  rw [hkept] at h
  have hline : sfdiskLine label stem { e with start := q.start, size := q.size } = _ :=
    sfdiskLine_eq fun hl => (he.uuid hl).1
  rw [hline]
  -- the printed line does not show the minimum size
  calc displayLine label.text q =
    displayLine label.text ((e.part label stem).moveTo q.start q.size) := by rw [← h]
    _ = _ := rfl

/-- **What an action prints.** -/
theorem runScript_prints (c : Settings) (a : Action) (tr : (t : Table) → Traversal t.numbers)
    (d : Dump) (hplain : ∀ e ∈ d.entries, e.Plain) {r : Scan}
    (h : runScript c a tr d.lines = some r) :
    r.label = d.label.text ∧ List.Forall₂ (Carried d.label d.stem) d.entries r.parts ∧
      scan (displayOutput r) =
        { r with parts := r.parts.map fun p => { p with minsize := p.size } } := by
  have hscan := scan_dump d hplain
  unfold runScript at h
  simp only [hscan] at h
  have hsorted : ((d.entries.map (Entry.kept d.label d.stem)).map (·.number)).Pairwise (· < ·) := by
    rw [kept_numbers]
    exact d.sorted
  split at h
  · cases h
  next t ht =>
    split at h
    · cases h
    next out hout =>
      obtain rfl := Option.some.inj h
      have hmoved := perform_moved hout
      rw [table?_parts ht hsorted] at hmoved
      refine ⟨rfl, ?_, ?_⟩
      · rw [List.forall₂_map_left_iff] at hmoved
        exact ((List.forall₂_and_left d.entries out.parts).mpr ⟨d.valid, hmoved⟩).imp fun e q h =>
          carried_of_moved h.1 h.2
      · have hprint : ∀ q ∈ out.parts, Printable d.label d.stem q := by
          intro q hq
          obtain ⟨p, hp, hm⟩ := exists_of_moved hmoved q hq
          obtain ⟨e, he, rfl⟩ := List.mem_map.mp hp
          exact (kept_printable (d.valid e he) (hplain e he)).moved hm
        have hnd : (out.parts.map (·.number)).Nodup := by
          rw [forall₂_moved_numbers hmoved]
          exact hsorted.imp fun h => ne_of_lt h
        exact scan_displayOutput d.stem_ok rfl d.words_ok.1 d.words_ok.2
          headerWord_sectors hprint hnd

/-- A dump of `/dev/sda` with a GPT label. -/
def gptDump (entries : List Entry) (h : (entries.map (·.number)).Pairwise (· < ·))
    (hv : ∀ e ∈ entries, e.Valid .gpt) : Dump :=
  { label := .gpt
    labelId := "6F1A3B5C".toList
    device := "/dev/sda".toList
    firstLba := 2048
    lastLba := 99966
    sectorSize := 512
    other := []
    stem := "/dev/sda".toList
    entries := entries
    words_ok := ⟨⟨by decide, List.all_eq_true.mp rfl⟩, headerWord_sda⟩
    other_ok := no_headers
    stem_ok := stem_sda
    sorted := h
    valid := hv }

/-- A partition with a corrupted name. -/
def corruptedEntry : Entry :=
  ⟨1, 2048, 4096, "DE94BBA4".toList, "A1".toList,
    some "attrs=\\x22RequiredPartition GUID:63".toList, none, false⟩

/-- A dump with a corrupted name. -/
def corruptedDump : Dump := gptDump [corruptedEntry] (by decide) (by
  rintro e (_ | ⟨_, ⟨⟩⟩)
  exact ⟨by decide, List.all_eq_true.mp rfl, fun _ => ⟨by decide, List.all_eq_true.mp rfl⟩,
    by decide, by decide⟩)

/-- **A name is not always printed again.** -/
theorem runScript_drops_name :
    ¬ ∀ (c : Settings) (a : Action) (tr : (t : Table) → Traversal t.numbers) (d : Dump) (r : Scan),
      runScript c a tr d.lines = some r →
      List.Forall₂ (fun e q => ∃ start size,
        displayLine r.label q = sfdiskLine d.label d.stem { e with start := start, size := size })
          d.entries r.parts := by
  intro h
  have hrun : runScript ⟨100000, 2048, 512, []⟩ (.move "/dev/sda1".toList 6000)
      (fun t => byNumber t.numbers)
      corruptedDump.lines = some ⟨"gpt".toList, "6F1A3B5C".toList, "/dev/sda".toList,
        "sectors".toList, 2048, 99966, 512,
        [⟨"/dev/sda1".toList, 1, 6144, 4096, 4096, "DE94BBA4".toList, "A1".toList, [], "\"RequiredPartition GUID:63\"".toList,
          []⟩]⟩ := by decide +kernel
  obtain ⟨⟨start, size, hline⟩, -⟩ := List.forall₂_cons.mp (h _ _ _ _ _ hrun)
  -- the line of the dump has a name in it, whatever the start and the size
  have hname : nameKey <:+: sfdiskLine .gpt "/dev/sda".toList { corruptedEntry with start := start, size := size } := by
    have hfield : nameKey <:+: optionalField nameKey corruptedEntry.nameText := by decide
    exact hfield.trans ((List.suffix_append _ _).isInfix.trans
      ((List.prefix_append _ _).isInfix.trans (List.suffix_append _ _).isInfix))
  have hline : displayLine "gpt".toList _ = sfdiskLine .gpt "/dev/sda".toList _ := hline
  rw [← hline] at hname
  exact absurd hname (by decide +kernel)

/-- A dump with a name, attributes and a corrupted name. -/
def namedDump : Dump := gptDump [⟨1, 2048, 2048, "C12A7328".toList, "A0-01".toList,
    some "EFI = \\x22ESP\\x22".toList, some "RequiredPartition GUID:63".toList, false⟩,
  { corruptedEntry with number := 2, start := 4096 }] (by decide) (by
  rintro e (_ | ⟨_, _ | ⟨_, ⟨⟩⟩⟩)
  · exact ⟨by decide, List.all_eq_true.mp rfl, fun _ => ⟨by decide, List.all_eq_true.mp rfl⟩,
      by decide, by decide⟩
  · exact ⟨by decide, List.all_eq_true.mp rfl, fun _ => ⟨by decide, List.all_eq_true.mp rfl⟩,
      by decide, by decide⟩)

theorem runScript_prints_named :
    ∃ r, runScript ⟨100000, 2048, 512, []⟩ (.move "/dev/sda2".toList 8000)
      (fun t => byNumber t.numbers) namedDump.lines =
        some r ∧
      r.parts.map (displayLine r.label) = [("/dev/sda1 : start=        2048, size=        2048, " ++
          "type=C12A7328, uuid=A0-01, name=\"EFI = \\x22ESP\\x22\", " ++
          "attrs=\"RequiredPartition GUID:63\"").toList,
        ("/dev/sda2 : start=        8192, size=        4096, type=DE94BBA4, uuid=A1, " ++
          "attrs=\"RequiredPartition GUID:63\"").toList] ∧
      List.Forall₂ (Carried .gpt namedDump.stem) namedDump.entries r.parts ∧
      scan (displayOutput r) =
        { r with parts := r.parts.map fun p => { p with minsize := p.size } } := by
  have hrun : runScript ⟨100000, 2048, 512, []⟩ (.move "/dev/sda2".toList 8000)
      (fun t => byNumber t.numbers)
      namedDump.lines = some ⟨"gpt".toList, "6F1A3B5C".toList, "/dev/sda".toList, "sectors".toList,
        2048, 99966, 512,
        [⟨"/dev/sda1".toList, 1, 2048, 2048, 2048, "C12A7328".toList, "A0-01".toList,
          "\"EFI = \\x22ESP\\x22\"".toList, "\"RequiredPartition GUID:63\"".toList, []⟩,
        ⟨"/dev/sda2".toList, 2, 8192, 4096, 4096, "DE94BBA4".toList, "A1".toList, [],
          "\"RequiredPartition GUID:63\"".toList, []⟩]⟩ := by decide +kernel
  have hplain : ∀ e ∈ namedDump.entries, e.Plain := by
    rintro e (_ | ⟨_, _ | ⟨_, ⟨⟩⟩⟩)
    · exact ⟨by decide, by decide⟩
    · exact ⟨by decide, by decide⟩
  obtain ⟨-, h1, h2⟩ := runScript_prints _ _ _ namedDump hplain hrun
  exact ⟨_, hrun, by decide +kernel, h1, h2⟩

end Pxeos.Sfdisk
