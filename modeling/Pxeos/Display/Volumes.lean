import Pxeos.Display.Exported

/-!
# The volumes that are printed

Exactly the readable exports are read back, and what is printed of any text is a map with values of
the section exactly if no value of a drive stands behind a header that is not seen.
-/

namespace Pxeos.Display

open Pxeos.Lib

section Exact

variable {e : Export}

/-! ### A readable export -/

lemma run_blank (s : Reader) (hin : s.inMounted = false) (hpending : s.pending = none) (n : ℕ) :
    s.run (List.replicate n []) = some s := by
  induction n with
  | zero => rfl
  | succ n ih =>
    have hline : s.line [] = some s := by
      cases hheader : s.headerSeen with
      | false =>
        unfold Reader.line
        rw [if_pos hheader, if_pos rfl]
      | true =>
        rw [line_of_none hheader hpending rfl, hin]
        rfl
    rw [List.replicate_succ, run_cons, hline]
    exact ih

lemma map_volumes : e.volumes.map (·.1) = e.mounted.values.filterMap Value.drive := by
  have hdrives := e.drives
  unfold Export.volumes
  generalize e.mounted.values = values at hdrives ⊢
  induction values with
  | nil => rfl
  | cons v values ih =>
    have hrest := ih fun w hw => hdrives w (List.mem_cons_of_mem _ hw)
    cases hdrive : v.drive with
    | none =>
      have hvolume : v.volume = none := by
        unfold Value.volume
        split
        · rw [hdrive]
          rfl
        · rfl
      rw [List.filterMap_cons_none hvolume, List.filterMap_cons_none hdrive, hrest]
    | some drive =>
      obtain ⟨tag, pieces, single, quote, hdata, -⟩ :=
        hdrives v List.mem_cons_self (by rw [hdrive]; exact Option.some_ne_none _)
      have hvolume : v.volume = some (drive, pieces.flatten.map HexByte.value) := by
        unfold Value.volume
        rw [hdata, hdrive]
        rfl
      rw [List.filterMap_cons_some hvolume, List.filterMap_cons_some hdrive, List.map_cons, hrest]

lemma volumes_nodup (e : Export) : (e.volumes.map (·.1)).Nodup := by
  rw [map_volumes]
  exact e.nodup

lemma shown_fst (volumes : List (Char × List UInt8)) :
    (volumes.map shown).map (·.1) = volumes.map (·.1) := by
  rw [List.map_map]
  rfl

lemma isMounted_mounted (e : Export) : IsMounted e.mounted.header :=
  ⟨e.mounted.name, rfl, e.mounted_name⟩

lemma after_eq (e : Export) :
    ∃ rest, e.after = e.unseen ++ rest ∧ (rest = [] ∨ ∃ k keys, rest = k :: keys ∧ ¬ k.Unseen) := by
  refine ⟨e.after.dropWhile fun k => k.Unseen, List.takeWhile_append_dropWhile.symm, ?_⟩
  cases hdrop : e.after.dropWhile fun k => k.Unseen with
  | nil => exact .inl rfl
  | cons k keys =>
    refine .inr ⟨k, keys, rfl, fun hunseen => ?_⟩
    have := List.head?_dropWhile_not (fun k : Key => decide k.Unseen) e.after
    rw [hdrop] at this
    simp [hunseen] at this

lemma unseen_of_mem {k : Key} (h : k ∈ e.unseen) : k.Unseen := by
  simpa using List.mem_takeWhile_imp h

/-- The reader at the end of a readable export. -/
lemma run_contents (hreadable : e.Readable) :
    ∃ b, Reader.run {} e.contents = some { inside (e.volumes.map shown) with inMounted := b } := by
  have hheader : Reader.line {} e.header = some { headerSeen := true } := by
    have hne : e.header ≠ [] := by
      intro hnil
      have hmem := e.header_mem
      rw [hnil] at hmem
      revert hmem
      decide
    unfold Reader.line
    rw [if_pos rfl, if_neg hne, if_pos e.header_mem]
  have hbefore := run_outside (s := { headerSeen := true }) rfl rfl rfl fun k hk =>
    e.others k (List.mem_append_left _ hk)
  have hsection : Reader.line { headerSeen := true } e.mounted.header = some (inside []) := by
    obtain ⟨name, hname, hlower⟩ := sectionName_of_isMounted (isMounted_mounted e)
    unfold Reader.line
    rw [if_neg (by decide), hname]
    dsimp only
    rw [if_pos hlower]
    rfl
  have hbody : (inside []).run e.mounted.body = some (inside (e.volumes.map shown)) := by
    refine run_items
      (fun v hv => ⟨hreadable.breaks v (List.mem_append_left _ hv), fun hs => e.drives v hv hs.1⟩)
        ?_
    exact volumes_nodup e
  have hunseen : (inside (e.volumes.map shown)).run (e.unseen.flatMap Key.lines) =
      some (inside (e.volumes.map shown)) := by
    refine run_unseen (fun k hk => unseen_of_mem hk)
      (fun v hv => ⟨hreadable.breaks v (List.mem_append_right _ hv), ?_⟩) ?_
    · exact hreadable.strays v hv
    · rw [shown_fst]
      exact volumes_nodup e
  have hmounted : Reader.run {} e.contents = (inside (e.volumes.map shown)).run
      (e.after.flatMap Key.lines) := by
    unfold Export.contents
    rw [run_append, run_blank _ rfl rfl, Option.bind_some, run_cons, hheader, Option.bind_some,
      run_append, run_blank _ rfl rfl,
      Option.bind_some, run_append, hbefore, Option.bind_some, run_append, Key.lines, run_cons,
        hsection, Option.bind_some, hbody,
      Option.bind_some]
  obtain ⟨rest, hafter, hrest⟩ := after_eq e
  rw [hmounted, hafter, List.flatMap_append, run_append, hunseen, Option.bind_some]
  rcases hrest with rfl | ⟨k, keys, rfl, hseen⟩
  · exact ⟨true, rfl⟩
  · refine ⟨false, ?_⟩
    have hothers : ∀ k' ∈ k :: keys, lower k'.name ≠ mountedName := fun k' hk =>
      e.others k' (List.mem_append_right _ (hafter ▸ List.mem_append_right _ hk))
    have hline : (inside (e.volumes.map shown)).line k.header =
        some { inside (e.volumes.map shown) with inMounted := false } := by
      unfold Reader.line
      rw [if_neg (by simp [inside]), sectionName_header, if_neg hseen]
      dsimp only [inside]
      rw [if_neg (hothers k List.mem_cons_self)]
    have hkey : Reader.run { inside (e.volumes.map shown) with inMounted := false } k.body =
        some { inside (e.volumes.map shown) with inMounted := false } :=
      run_skip rfl rfl fun line hline => ⟨(sectionName_body hline).1, fun h => by cases h⟩
    rw [List.flatMap_cons, run_append, Key.lines, run_cons, hline, Option.bind_some, hkey,
      Option.bind_some]
    exact run_outside rfl rfl rfl fun k' hk => hothers k' (List.mem_cons_of_mem _ hk)

/-! ### The values of the section -/

lemma not_isMounted_of_head {line : Str} (h : line.head? ≠ some '[') : ¬ IsMounted line := by
  rintro ⟨name, rfl, -⟩
  exact h rfl

lemma not_isMounted_keys {keys : List Key} (h : ∀ k ∈ keys, lower k.name ≠ mountedName) :
    ∀ line ∈ keys.flatMap Key.lines, ¬ IsMounted line := by
  intro line hline
  obtain ⟨k, hk, hin⟩ := List.mem_flatMap.mp hline
  rcases List.mem_cons.mp hin with rfl | hin
  · rintro ⟨name, heq, hname⟩
    have hsame : k.name = name := List.append_cancel_right (List.cons.inj heq).2
    exact h k hk (hsame ▸ hname)
  · exact not_isMounted_of_sectionName (sectionName_body hin).1

/-- The lines before the section. -/
def Export.front (e : Export) : List Str :=
  List.replicate e.leading [] ++ e.header ::
    (List.replicate e.trailing [] ++ e.before.flatMap Key.lines)

lemma contents_eq (e : Export) :
    e.contents = e.front ++ e.mounted.header :: (e.mounted.body ++ e.after.flatMap Key.lines) := by
  simp [Export.contents, Export.front, Key.lines]

lemma not_isMounted_front : ∀ line ∈ e.front, ¬ IsMounted line := by
  have hblank : ∀ {n : ℕ} {line : Str}, line ∈ List.replicate n [] → ¬ IsMounted line := by
    intro n line h
    rw [(List.mem_replicate.mp h).2]
    exact not_isMounted_of_head (by decide)
  intro line h
  unfold Export.front at h
  simp only [List.mem_append, List.mem_cons] at h
  rcases h with h | rfl | h | h
  · exact hblank h
  · exact not_isMounted_of_header e.header_mem
  · exact hblank h
  · exact not_isMounted_keys (fun k hk => e.others k (List.mem_append_left _ hk)) line h

lemma mountedSection_contents (e : Export) : MountedSection e.contents e.mounted.body := by
  refine ⟨e.front, e.mounted.header, e.after.flatMap Key.lines, contents_eq e, isMounted_mounted e,
    ?_, fun line hline =>
    (sectionName_body hline).2, ?_⟩
  · intro line hline
    rcases List.mem_append.mp hline with hline | hline
    · exact not_isMounted_front line hline
    · exact not_isMounted_keys (fun k hk => e.others k (List.mem_append_right _ hk)) line hline
  · cases e.after with
    | nil => exact .inl rfl
    | cons k keys => exact .inr ⟨k.header, k.body ++ keys.flatMap Key.lines, rfl, k.name, rfl⟩

lemma mem_body_of_mem {k : Key} {v : Value} (h : v ∈ k.values) :
    ∃ a b, k.body = a ++ (v.lines ++ b) := by
  obtain ⟨item, hitem, heq⟩ := List.mem_filterMap.mp h
  obtain ⟨xs, ys, hsplit⟩ := List.append_of_mem hitem
  obtain rfl : item = some v := heq
  refine ⟨xs.flatMap itemLines, ys.flatMap itemLines, ?_⟩
  unfold Key.body
  rw [hsplit, List.flatMap_append, List.flatMap_cons]
  rfl

lemma occurs_body {p : Char × List UInt8} (h : p ∈ e.volumes) :
    Occurs e.mounted.body (shown p) := by
  obtain ⟨v, hv, hvolume⟩ := List.mem_filterMap.mp h
  obtain ⟨a, b, hbody⟩ := mem_body_of_mem hv
  have hdrive : v.drive ≠ none := by
    intro hnone
    unfold Value.volume at hvolume
    split at hvolume
    · rw [hnone] at hvolume
      cases hvolume
    · cases hvolume
  obtain ⟨tag, pieces, single, quote, hdata, htag, hne, hpieces⟩ := e.drives v hv hdrive
  obtain ⟨drive, hsome⟩ := Option.ne_none_iff_exists'.mp hdrive
  unfold Value.volume at hvolume
  rw [hdata, hsome] at hvolume
  obtain rfl := Option.some.inj hvolume
  refine ⟨a, v.firstLine, (pieceLines pieces).headD [], (pieceLines pieces).tail, b, ?_,
    driveValue_firstLine hdata htag hsome, ?_⟩
  · rw [hbody, Value.lines, hdata]
    rfl
  · rw [← pieceLines_eq]
    exact hexData_pieceLines hne hpieces

lemma printsValues_printed (e : Export) : PrintsValues e.contents e.printed := by
  refine ⟨e.volumes.map shown, e.mounted.body, rfl, ?_, mountedSection_contents e, ?_⟩
  · rw [shown_fst]
    exact volumes_nodup e
  · intro entry hentry
    obtain ⟨p, hp, rfl⟩ := List.mem_map.mp hentry
    exact occurs_body hp

/-! ### An export that is read back -/

/-- The names of the values behind the header are escaped, up to the next one that is seen. -/
lemma unescapes_of_parse {text out : Str} {pre : List Str} {header : Str} {lines rest : List Str}
    (h : parseReg text = some out) (hsplit : trimmedLines text = pre ++ header :: (lines ++ rest))
    (hpre : ∀ line ∈ pre, ¬ IsMounted line) (hheader : IsMounted header)
    (hlines : ∀ line ∈ lines, sectionName line = none) :
    ∀ line ∈ lines, ∀ nameEscaped rhs, splitValue line = some (nameEscaped, rhs) →
      regUnescapeName nameEscaped ≠ none := by
  unfold parseReg at h
  obtain ⟨s, hrun, hout⟩ := Option.bind_eq_some_iff.mp h
  split at hout
  · rename_i hend
    obtain ⟨pre', header', region, post, t, hlines', hpre', hheader', -, -, hkey, hregion, -⟩ :=
      exists_region hrun hend.2.1 hend.2.2
    have heq := hsplit.symm.trans hlines'
    obtain rfl : pre = pre' :=
      split_unique hpre hpre' (.inr ⟨_, _, rfl, hheader⟩) (.inr ⟨_, _, rfl, hheader'⟩) heq
    obtain ⟨-, htail⟩ := List.cons.inj (List.append_cancel_left heq)
    obtain ⟨more, rfl⟩ := isPrefix_of_none hlines hkey htail.symm
    exact fun line hline => hregion.names line (List.mem_append_left _ hline)
  · cases hout

lemma sectionName_unseen :
    ∀ line ∈ e.mounted.body ++ e.unseen.flatMap Key.lines, sectionName line = none := by
  intro line hline
  rcases List.mem_append.mp hline with hline | hline
  · exact (sectionName_body hline).1
  · obtain ⟨k, hk, hin⟩ := List.mem_flatMap.mp hline
    rcases List.mem_cons.mp hin with rfl | hin
    · rw [sectionName_header, if_pos (unseen_of_mem hk)]
    · exact (sectionName_body hin).1

lemma firstLine_mem_body {k : Key} {v : Value} (h : v ∈ k.values) : v.firstLine ∈ k.body := by
  obtain ⟨a, b, hbody⟩ := mem_body_of_mem h
  rw [hbody]
  simp [Value.lines]

lemma readable_of_parse {text : Str} (htext : trimmedLines text = e.contents)
    (h : parseReg text = some e.printed) : e.Readable := by
  obtain ⟨rest, hafter, hrest⟩ := after_eq e
  have hcontents : e.contents = e.front ++ e.mounted.header ::
      ((e.mounted.body ++ e.unseen.flatMap Key.lines) ++ rest.flatMap Key.lines) := by
    rw [contents_eq, hafter, List.flatMap_append, List.append_assoc]
  have hbreaks : ∀ v ∈ e.mounted.values ++ e.unseen.flatMap Key.values, ¬ v.Breaks := by
    intro v hv hbreaks
    obtain ⟨nameEscaped, rhs, hsplit, hnone⟩ := splitValue_breaks hbreaks
    refine unescapes_of_parse h (htext.trans hcontents) not_isMounted_front (isMounted_mounted e)
      sectionName_unseen v.firstLine ?_ _ _
      hsplit hnone
    rcases List.mem_append.mp hv with hv | hv
    · exact List.mem_append_left _ (firstLine_mem_body hv)
    · obtain ⟨k, hk, hvk⟩ := List.mem_flatMap.mp hv
      exact List.mem_append_right _
        (List.mem_flatMap.mpr ⟨k, hk, List.mem_cons_of_mem _ (firstLine_mem_body hvk)⟩)
  refine ⟨hbreaks, fun v hv hstrays => ?_⟩
  have hstray : ¬ StrayDrive (trimmedLines text) :=
    (printsValues_iff h).mp (htext ▸ printsValues_printed e)
  refine hstray ?_
  -- the value stands behind the header of a key that is not seen
  obtain ⟨k, hk, hvk⟩ := List.mem_flatMap.mp hv
  have hnone : ∀ line ∈ e.unseen.flatMap Key.lines, sectionName line = none := fun line hline =>
    sectionName_unseen line (List.mem_append_right _ hline)
  have hfirst : v.firstLine ∈ e.unseen.flatMap Key.lines :=
    List.mem_flatMap.mpr ⟨k, hk, List.mem_cons_of_mem _ (firstLine_mem_body hvk)⟩
  have hseen := (seenDrive_firstLine (hbreaks v (List.mem_append_right _ hv))).mpr hstrays
  cases hunseen : e.unseen with
  | nil =>
    rw [hunseen] at hk
    exact absurd hk List.not_mem_nil
  | cons first keys =>
    rw [hunseen, List.flatMap_cons] at hnone hfirst
    refine ⟨e.front, e.mounted.header, e.mounted.body, first.header,
      first.body ++ keys.flatMap Key.lines, rest.flatMap Key.lines, ?_,
      isMounted_mounted e, not_isMounted_front, fun line hline => (sectionName_body hline).2,
        ⟨first.name, rfl⟩, hnone, v.firstLine, ?_, hseen⟩
    · rw [htext, hcontents, hunseen, List.flatMap_cons, List.append_assoc]
      rfl
    · rcases List.mem_cons.mp hfirst with heq | hin
      · refine absurd ?_ hseen
        rw [heq]
        exact seenDrive_key ⟨first.name, rfl⟩
      · exact hin

/-- **The map of an export, and what is printed of any text.** An export is read back exactly if it
is readable; what is printed of a text is a map with values of its section exactly if no drive
stands behind a header that is not seen. -/
theorem parseReg_exact_iff (text : Str) :
    (∀ e : Export, Renders e.contents text → (parseReg text = some e.printed ↔ e.Readable)) ∧
      ∀ out : Str, parseReg text = some out →
        (PrintsValues (trimmedLines text) out ↔ ¬ StrayDrive (trimmedLines text)) := by
  refine ⟨fun e hrenders => ?_, fun out h => printsValues_iff h⟩
  have htext := trimmedLines_of_renders (plain_contents e) hrenders
  constructor
  · exact readable_of_parse htext
  · intro hreadable
    obtain ⟨b, hrun⟩ := run_contents hreadable
    unfold parseReg
    have hfold : (trimmedLines text).foldlM Reader.line {} =
        some { inside (e.volumes.map shown) with inMounted := b } := by
      rw [htext]
      exact hrun
    rw [hfold]
    rfl

end Exact

section Sample

/-- An export with the drive `C:`, whose bytes are on two lines, and a text. -/
def noteExport (content : Str) (single : Single content) : Export where
  leading := 0
  header := "Windows Registry Editor Version 5.00".toList
  trailing := 1
  before := []
  mounted := ⟨"HKEY_LOCAL_MACHINE\\SYSTEM\\MountedDevices".toList,
    [some ⟨some "\\DosDevices\\C:".toList,
      .bytes "hex".toList [[⟨'D', 'e', rfl, rfl⟩], [⟨'A', '0', rfl, rfl⟩]] (by decide) (by decide),
      fun n hn => Option.mem_some_iff.mp hn ▸ (by decide +kernel)⟩,
      none,
        some ⟨some "Note".toList, .text content single,
          fun n hn => Option.mem_some_iff.mp hn ▸ (by decide +kernel)⟩], by decide +kernel⟩
  after := []
  header_mem := by decide +kernel
  mounted_name := by
    show lower "HKEY_LOCAL_MACHINE\\SYSTEM\\MountedDevices".toList = mountedName
    decide +kernel
  others := fun k hk => absurd hk List.not_mem_nil
  drives := by
    intro v hv hdrive
    rcases List.mem_cons.mp hv with rfl | hv
    · exact ⟨_, _, _, _, rfl, by decide, by decide, by simp⟩
    · obtain rfl := List.mem_singleton.mp hv
      refine absurd ?_ hdrive
      show driveLetter (lower "Note".toList) = none
      decide +kernel
  nodup := by
    show (["\\DosDevices\\C:".toList, "Note".toList].filterMap
      fun name => driveLetter (lower name)).Nodup
    decide +kernel

/-- The text of an export, with a carriage return at the end of each line. -/
def Export.crlf (e : Export) : Str := unlines (e.contents.map (· ++ ['\r']))

lemma renders_crlf (e : Export) : Renders e.contents e.crlf := by
  refine ⟨_, rfl, List.forall₂_map_left_iff.mpr (List.forall₂_same.mpr fun content _ => ?_)⟩
  exact ⟨[], ['\r'], by decide, by decide, fun c hc => absurd hc List.not_mem_nil,
    by simp [Blank, isSpace], rfl⟩

theorem parseReg_exact_note :
    parseReg (noteExport "a=b".toList (by decide)).crlf =
      some "[\x7b\"driveLetter\":\"C:\",\"volumeId\":\"dea0\"\x7d]\n".toList ∧
      ¬ StrayDrive (trimmedLines (noteExport "a=b".toList (by decide)).crlf) := by
  have hreadable : (noteExport "a=b".toList (by decide)).Readable := by
    refine ⟨fun v hv => ?_, fun v hv => absurd hv List.not_mem_nil⟩
    rintro ⟨-, content, single, hdata, name, before, rest, heq, -⟩
    rcases List.mem_cons.mp hv with rfl | hv
    · cases hdata
    · obtain rfl := List.mem_singleton.mp hv
      obtain rfl := (Data.text.inj hdata)
      have hmem : '"' ∈ "a=b".toList := by
        rw [heq]
        simp
      revert hmem
      decide
  have hparse := ((parseReg_exact_iff _).1 _ (renders_crlf _)).mpr hreadable
  refine ⟨hparse, ((parseReg_exact_iff _).2 _ hparse).mp ?_⟩
  rw [trimmedLines_of_renders (plain_contents _) (renders_crlf _)]
  exact printsValues_printed _

/-- A text with a quote and an equals sign in it makes the whole export unreadable. -/
theorem not_parseReg_exact :
    ¬ ((∀ (e : Export) (text : Str), Renders e.contents text → parseReg text = some e.printed) ∧
      ∀ text out : Str, parseReg text = some out → PrintsValues (trimmedLines text) out) := by
  rintro ⟨hexact, -⟩
  have hparse := hexact (noteExport "a\"=b".toList (by decide)) _ (renders_crlf _)
  have hnone : parseReg (noteExport "a\"=b".toList (by decide)).crlf = none := by decide +kernel
  rw [hnone] at hparse
  cases hparse

end Sample

end Pxeos.Display
