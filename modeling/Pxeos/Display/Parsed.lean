import Pxeos.Display.Region
import Pxeos.Lib.Fields

/-!
# What is printed of a text

A text that the reader accepts has one header of `MountedDevices`; the drives that are printed come
from the lines up to the next header that it sees.
-/

namespace Pxeos.Display

open Pxeos.Lib

/-! ### Sections -/

/-- The lines of the only section `MountedDevices` of a text. -/
def MountedSection (lines body : List Str) : Prop :=
  ∃ (pre : List Str) (header : Str) (post : List Str), lines = pre ++ header :: (body ++ post) ∧
    IsMounted header ∧
    (∀ line ∈ pre ++ post, ¬ IsMounted line) ∧ (∀ line ∈ body, ¬ IsKeyLine line) ∧
    (post = [] ∨ ∃ key rest, post = key :: rest ∧ IsKeyLine key)

/-- What is printed is a map with values of the section. -/
def PrintsValues (lines : List Str) (out : Str) : Prop :=
  ∃ (volumes : List (Char × Str)) (body : List Str), out = printVolumes volumes ∧
    (volumes.map (·.1)).Nodup ∧
    MountedSection lines body ∧ ∀ entry ∈ volumes, Occurs body entry

/-- Behind the section stands the header of a key with brackets in its name, and the value of a
drive before the next one without. -/
def StrayDrive (lines : List Str) : Prop :=
  ∃ (pre : List Str) (header : Str) (body : List Str) (key : Str) (run post : List Str),
    lines = pre ++ header :: (body ++ (key :: run ++ post)) ∧ IsMounted header ∧
      (∀ line ∈ pre, ¬ IsMounted line) ∧
    (∀ line ∈ body, ¬ IsKeyLine line) ∧ IsKeyLine key ∧
      (∀ line ∈ key :: run, sectionName line = none) ∧
    ∃ line ∈ run, seenDrive line ≠ none

section Sections

lemma sectionName_eq {line name : Str} (h : sectionName line = some name) :
    line = '[' :: (name ++ [']']) ∧ name ≠ [] ∧ '[' ∉ name ∧ ']' ∉ name := by
  unfold sectionName at h
  split at h
  · rename_i rest
    split at h
    · rename_i hlast
      dsimp only at h
      split at h
      · rename_i hname
        obtain rfl := Option.some.inj h
        obtain ⟨init, rfl⟩ := List.getLast?_eq_some_iff.mp hlast
        rw [List.dropLast_concat] at hname ⊢
        exact ⟨rfl, hname⟩
      · cases h
    · cases h
  · cases h

lemma isKeyLine_of_sectionName {line name : Str} (h : sectionName line = some name) :
    IsKeyLine line :=
  ⟨name, (sectionName_eq h).1⟩

/-- The header of the section is one that the reader sees. -/
lemma sectionName_of_isMounted {line : Str} (h : IsMounted line) :
    ∃ name, sectionName line = some name ∧ lower name = mountedName := by
  obtain ⟨name, rfl, hname⟩ := h
  have hnotMem : ∀ c : Char, c.toLower = c → c ∉ mountedName → c ∉ name := by
    intro c hc hmem hin
    refine hmem ?_
    rw [← hname, ← hc]
    exact List.mem_map_of_mem hin
  refine ⟨name, ?_, hname⟩
  unfold sectionName
  simp only [List.getLast?_concat, List.dropLast_concat]
  rw [if_pos]
  refine ⟨?_, hnotMem '[' (by decide) (by decide), hnotMem ']' (by decide) (by decide)⟩
  rintro rfl
  cases hname

lemma isMounted_of_sectionName {line name : Str} (h : sectionName line = some name)
    (hname : lower name = mountedName) : IsMounted line :=
  ⟨name, (sectionName_eq h).1, hname⟩

/-- The lines up to the first one with a property. -/
lemma split_unique {α : Type} {p : α → Prop} {a a' b b' : List α} (ha : ∀ x ∈ a, ¬ p x)
    (ha' : ∀ x ∈ a', ¬ p x) (hb : b = [] ∨ ∃ x t, b = x :: t ∧ p x)
    (hb' : b' = [] ∨ ∃ x t, b' = x :: t ∧ p x) (h : a ++ b = a' ++ b') : a = a' := by
  induction a generalizing a' with
  | nil =>
    cases a' with
    | nil => rfl
    | cons y a' =>
      rcases hb with rfl | ⟨x, t, rfl, hx⟩
      · cases h
      · obtain ⟨rfl, -⟩ := List.cons.inj h
        exact absurd hx (ha' _ List.mem_cons_self)
  | cons x a ih =>
    cases a' with
    | nil =>
      rcases hb' with rfl | ⟨y, t, rfl, hy⟩
      · cases h
      · obtain ⟨rfl, -⟩ := List.cons.inj h
        exact absurd hy (ha _ List.mem_cons_self)
    | cons y a' =>
      obtain ⟨rfl, htail⟩ := List.cons.inj h
      rw [ih (fun x hx => ha x (List.mem_cons_of_mem _ hx))
        (fun x hx => ha' x (List.mem_cons_of_mem _ hx)) htail]

lemma HexOpen.fragment {ps : List Str} {h : Str} (hps : HexOpen ps h) :
    ∀ p ∈ ps, ∃ b d, regHexFragment p = some (b, d) := by
  induction hps with
  | one hp => exact fun p hmem => ⟨_, _, List.mem_singleton.mp hmem ▸ hp⟩
  | more _ hp ih =>
    intro p hmem
    rcases List.mem_append.mp hmem with hmem | hmem
    · exact ih p hmem
    · exact ⟨_, _, List.mem_singleton.mp hmem ▸ hp⟩

lemma HexData.fragment {ps : List Str} {h : Str} (hps : HexData ps h) :
    ∀ p ∈ ps, ∃ b d, regHexFragment p = some (b, d) := by
  cases hps with
  | one hp => exact fun p hmem => ⟨_, _, List.mem_singleton.mp hmem ▸ hp⟩
  | more hopen hp =>
    intro p hmem
    rcases List.mem_append.mp hmem with hmem | hmem
    · exact hopen.fragment p hmem
    · exact ⟨_, _, List.mem_singleton.mp hmem ▸ hp⟩

lemma Occurs.seenDrive {lines : List Str} {entry : Char × Str} (h : Occurs lines entry) :
    ∃ first ∈ lines, (seenDrive first).map (·.1) = some entry.1 := by
  obtain ⟨a, first, data, conts, b, rfl, hvalue, hdata⟩ := h
  obtain ⟨c, d, hf⟩ := hdata.fragment data List.mem_cons_self
  obtain ⟨rhs, hseen⟩ := seenDrive_of_driveValue hvalue hf
  exact ⟨first, by simp, by rw [hseen]; rfl⟩

/-- The lines up to the first one of a key. -/
lemma exists_split (lines : List Str) :
    ∃ body run, lines = body ++ run ∧ (∀ line ∈ body, ¬ IsKeyLine line) ∧
    (run = [] ∨ ∃ key rest, run = key :: rest ∧ IsKeyLine key) := by
  induction lines with
  | nil => exact ⟨[], [], rfl, fun l hl => absurd hl List.not_mem_nil, .inl rfl⟩
  | cons line lines ih =>
    by_cases hkey : IsKeyLine line
    · exact ⟨[], line :: lines, rfl, fun l hl => absurd hl List.not_mem_nil,
        .inr ⟨line, lines, rfl, hkey⟩⟩
    · obtain ⟨body, run, rfl, hbody, hrun⟩ := ih
      refine ⟨line :: body, run, rfl, fun l hl => ?_, hrun⟩
      rcases List.mem_cons.mp hl with rfl | hl
      · exact hkey
      · exact hbody l hl

/-- A value with all its lines stands before the header of the next key, if no line of a drive
stands behind it. -/
lemma Occurs.restrict {body run : List Str} {entry : Char × Str} (h : Occurs (body ++ run) entry)
    (hrun : run = [] ∨ ∃ key rest, run = key :: rest ∧ IsKeyLine key)
    (hdrives : ∀ line ∈ run, Display.seenDrive line = none) :
    Occurs body entry := by
  obtain ⟨a, first, data, conts, b, heq, hvalue, hdata⟩ := h
  have hfirst : first ∉ run := by
    intro hmem
    obtain ⟨c, d, hf⟩ := hdata.fragment data List.mem_cons_self
    obtain ⟨rhs, hseen⟩ := seenDrive_of_driveValue hvalue hf
    rw [hdrives first hmem] at hseen
    cases hseen
  rcases List.append_eq_append_iff.mp heq with ⟨t, rfl, hright⟩ | ⟨t, rfl, hright⟩
  · exact absurd (by rw [hright]; simp) hfirst
  · cases t with
    | nil => exact absurd (by rw [List.nil_append] at hright; rw [← hright]; simp) hfirst
    | cons c t =>
      rw [List.cons_append] at hright
      obtain ⟨rfl, htail⟩ := List.cons.inj hright
      rcases List.append_eq_append_iff.mp htail with ⟨u, rfl, rfl⟩ | ⟨u, rfl, hu⟩
      · exact ⟨a, first, data, conts, u, by simp, hvalue, hdata⟩
      · -- the lines of the bytes do not go over the header
        rcases hrun with rfl | ⟨key, rest, rfl, hkey⟩
        · obtain ⟨rfl, rfl⟩ := List.append_eq_nil_iff.mp hu.symm
          exact ⟨a, first, data, t, [], by simp, hvalue, by simpa using hdata⟩
        · cases u with
          | nil => exact ⟨a, first, data, t, [], by simp, hvalue, by simpa using hdata⟩
          | cons k u =>
            rw [List.cons_append] at hu
            obtain ⟨rfl, -⟩ := List.cons.inj hu
            obtain ⟨c, d, hf⟩ := hdata.fragment key (by simp)
            exact absurd hkey (seenDrive_fragment hf).2

end Sections

/-! ### What is printed -/

section Print

/-- The drives and the end of what is printed. -/
def printed (entries : List (Char × Str)) : Str :=
  List.intercalate [','] (entries.map volumeText) ++ "]\n".toList

lemma printVolumes_eq (volumes : List (Char × Str)) :
    printVolumes volumes = '[' :: printed (inOrder volumes) := rfl

lemma printed_cons (e : Char × Str) (es : List (Char × Str)) :
    printed (e :: es) = volumeText e ++ (if es = [] then "]\n".toList else ',' :: printed es) := by
  cases es with
  | nil =>
    rw [if_pos rfl]
    unfold printed
    simp
  | cons e' es =>
    rw [if_neg (List.cons_ne_nil _ _)]
    unfold printed
    rw [List.map_cons, List.map_cons, List.intercalate_cons_cons]
    simp

lemma volumeText_inj {e f : Char × Str} (he : '"' ∉ e.2) (hf : '"' ∉ f.2) {s t : Str}
    (h : volumeText e ++ s = volumeText f ++ t) :
    e = f ∧ s = t := by
  have hclose : "\"\x7d".toList = '"' :: ['\x7d'] := rfl
  unfold volumeText at h
  rw [hclose] at h
  generalize "\x7b\"driveLetter\":\"".toList = before at h
  generalize ":\",\"volumeId\":\"".toList = between at h
  simp only [List.append_assoc, List.cons_append] at h
  obtain ⟨hletter, h1⟩ := List.cons.inj (List.append_cancel_left h)
  obtain ⟨hhex, h2⟩ := cut_inj he hf (List.append_cancel_left h1)
  exact ⟨Prod.ext hletter hhex, (List.cons.inj h2).2⟩

/-- Drives with digits are read back. -/
lemma printed_injective {es fs : List (Char × Str)} (hes : ∀ e ∈ es, '"' ∉ e.2)
    (hfs : ∀ e ∈ fs, '"' ∉ e.2) (h : printed es = printed fs) : es = fs := by
  have hhead : ∀ (e : Char × Str) (es : List (Char × Str)), (printed (e :: es)).head? =
      some '\x7b' := by
    intro e es
    rw [printed_cons]
    rfl
  induction es generalizing fs with
  | nil =>
    cases fs with
    | nil => rfl
    | cons f fs =>
      have := hhead f fs
      rw [← h] at this
      cases this
  | cons e es ih =>
    cases fs with
    | nil =>
      have := hhead e es
      rw [h] at this
      cases this
    | cons f fs =>
      rw [printed_cons, printed_cons] at h
      obtain ⟨heq, h5⟩ := volumeText_inj (hes e List.mem_cons_self) (hfs f List.mem_cons_self) h
      have htail : es = fs := by
        by_cases hnil : es = []
        · by_cases hnil' : fs = []
          · rw [hnil, hnil']
          · rw [if_pos hnil, if_neg hnil'] at h5
            cases h5
        · by_cases hnil' : fs = []
          · rw [if_neg hnil, if_pos hnil'] at h5
            cases h5
          · rw [if_neg hnil, if_neg hnil'] at h5
            exact ih (fun e he => hes e (List.mem_cons_of_mem _ he))
              (fun e he => hfs e (List.mem_cons_of_mem _ he))
              (List.cons.inj h5).2
      rw [htail, heq]

lemma mem_inOrder {volumes : List (Char × Str)} {e : Char × Str} (h : e ∈ inOrder volumes) :
    e ∈ volumes := by
  obtain ⟨letter, -, hfind⟩ := List.mem_filterMap.mp h
  exact List.mem_of_find?_eq_some hfind

lemma mem_letters_inOrder {volumes : List (Char × Str)} {drive : Char} (hletter : drive ∈ letters) :
    drive ∈ (inOrder volumes).map (·.1) ↔ drive ∈ volumes.map (·.1) := by
  constructor
  · intro h
    obtain ⟨e, he, rfl⟩ := List.mem_map.mp h
    exact List.mem_map_of_mem (mem_inOrder he)
  · intro h
    obtain ⟨e, he, heq⟩ := List.mem_map.mp h
    have hsome : (volumes.find? (·.1 == drive)).isSome :=
      List.find?_isSome.mpr ⟨e, he, beq_iff_eq.mpr heq⟩
    obtain ⟨f, hf⟩ := Option.isSome_iff_exists.mp hsome
    have hdrive : f.1 = drive := by simpa using List.find?_some hf
    exact List.mem_map.mpr ⟨f, List.mem_filterMap.mpr ⟨drive, hletter, hf⟩, hdrive⟩

lemma toUpper_mem_letters {letter : Char} (h : 'a' ≤ letter ∧ letter ≤ 'z') :
    letter.toUpper ∈ letters := by
  have hrange : ∀ n : Fin 26, (Char.ofNat (97 + n)).toUpper ∈ letters := by decide +kernel
  have h97 : 97 ≤ letter.toNat := h.1
  have h122 : letter.toNat ≤ 122 := h.2
  have hletter := hrange ⟨letter.toNat - 97, by omega⟩
  dsimp only at hletter
  rwa [show 97 + (letter.toNat - 97) = letter.toNat by omega, Char.ofNat_toNat] at hletter

lemma driveLetter_mem {name : Str} {drive : Char} (h : driveLetter name = some drive) :
    drive ∈ letters := by
  unfold driveLetter at h
  split at h
  · split at h
    · split at h
      · rename_i letter _ hle
        obtain rfl := Option.some.inj h
        exact toUpper_mem_letters hle
      · cases h
    · cases h
  · cases h

end Print

/-! ### The whole text -/

/-- The reader on some lines. -/
def Reader.run (s : Reader) (lines : List Str) : Option Reader := lines.foldlM Reader.line s

/-- Where the reader is in a text that it has accepted so far. -/
inductive Phase : List Str → Reader → Prop
  | before {lines : List Str} {s : Reader} (hcount : s.mountedSections = 0)
      (hmounted : s.inMounted = false) (hpending : s.pending = none)
      (hvolumes : s.volumeByDrive = []) (hlines : ∀ line ∈ lines, ¬ IsMounted line) : Phase lines s
  | inside {pre : List Str} {header : Str} {region : List Str} {s : Reader} (hpre : ∀ line ∈ pre,
      ¬ IsMounted line)
      (hheader : IsMounted header) (hsections : ∀ line ∈ region, sectionName line = none)
        (hregion : Region region s) :
      Phase (pre ++ header :: region) s
  | behind {pre : List Str} {header : Str} {region : List Str} {key : Str}
      {post : List Str} {s t : Reader}
      (hpre : ∀ line ∈ pre, ¬ IsMounted line) (hheader : IsMounted header)
        (hsections : ∀ line ∈ region, sectionName line = none)
      (hregion : Region region t) (hkey : sectionName key ≠ none) (hpost : ∀ line ∈ key :: post,
        ¬ IsMounted line)
      (hpending : t.pending = none) (hs : s = { t with inMounted := false }) :
          Phase (pre ++ header :: (region ++ key :: post)) s

section Whole

lemma run_append (s : Reader) (xs ys : List Str) :
    s.run (xs ++ ys) = (s.run xs).bind fun t => t.run ys := List.foldlM_append

/-- A header that has no name of a key is none of a section. -/
lemma not_isMounted_of_header {line : Str} (h : lower line ∈ headers) : ¬ IsMounted line := by
  rintro ⟨name, rfl, -⟩
  have hfirst : (lower ('[' :: (name ++ [']']))).head? = some '[' := rfl
  revert hfirst
  simp only [headers, List.mem_cons, List.not_mem_nil, or_false] at h
  rcases h with h | h <;> rw [h] <;> decide

lemma not_isMounted_of_sectionName {line : Str} (h : sectionName line = none) :
    ¬ IsMounted line := by
  intro hmounted
  obtain ⟨name, hname, -⟩ := sectionName_of_isMounted hmounted
  rw [h] at hname
  cases hname

lemma not_isMounted_of_ne {line name : Str} (h : sectionName line = some name)
    (hne : lower name ≠ mountedName) : ¬ IsMounted line := by
  intro hmounted
  obtain ⟨name', hname', heq⟩ := sectionName_of_isMounted hmounted
  rw [h] at hname'
  obtain rfl := Option.some.inj hname'
  exact hne heq

/-- What a line of no pending value does behind the header of the text. -/
lemma line_spec {s s' : Reader} {line : Str} (hheader : s.headerSeen = true)
    (hpending : s.pending = none) (h : s.line line = some s') :
    (∃ name, sectionName line = some name ∧ lower name = mountedName ∧ s.mountedSections = 0 ∧
        s' = { s with mountedSections := 1, inMounted := true }) ∨
      (sectionName line ≠ none ∧ ¬ IsMounted line ∧ s' = { s with inMounted := false }) ∨
      (sectionName line = none ∧ (if s.inMounted then s.value line else some s) = some s') := by
  unfold Reader.line at h
  rw [if_neg (by rw [hheader]; decide), hpending] at h
  dsimp only at h
  split at h
  · rename_i name hname
    split at h
    · rename_i hmounted
      split at h
      · rename_i hcount
        have hzero : s.mountedSections = 0 := by omega
        refine .inl ⟨name, hname, hmounted, hzero, ?_⟩
        rw [← Option.some.inj h, hzero, hpending]
      · cases h
    · rename_i hne
      refine .inr (.inl ⟨?_, not_isMounted_of_ne hname hne, ?_⟩)
      · rw [hname]
        exact Option.some_ne_none _
      · rw [← Option.some.inj h, hpending]
  · rename_i hsection
    exact .inr (.inr ⟨hsection, h⟩)

lemma Phase.step {lines : List Str} {s s' : Reader} {line : Str} (h : Phase lines s)
    (hstep : s.line line = some s') :
    Phase (lines ++ [line]) s' := by
  cases h with
  | before hcount hmounted hpending hvolumes hlines =>
    cases hheader : s.headerSeen with
    | false =>
      unfold Reader.line at hstep
      rw [if_pos hheader] at hstep
      split at hstep
      · rename_i hempty
        obtain rfl := Option.some.inj hstep
        refine .before hcount hmounted hpending hvolumes (forall_mem_snoc hlines ?_)
        rintro ⟨name, hname, -⟩
        rw [hempty] at hname
        cases hname
      · split at hstep
        · rename_i hin
          obtain rfl := Option.some.inj hstep
          exact .before hcount hmounted hpending hvolumes
            (forall_mem_snoc hlines (not_isMounted_of_header hin))
        · cases hstep
    | true =>
      rcases line_spec hheader hpending hstep with ⟨name, hname, heq, -, rfl⟩ | ⟨-, hne,
        rfl⟩ | ⟨hnone, hvalue⟩
      · refine .inside hlines (isMounted_of_sectionName hname heq)
          (fun l hl => absurd hl List.not_mem_nil) ?_
        refine ⟨hheader, rfl, rfl, ?_, ?_, ?_, ?_, fun l hl => absurd hl List.not_mem_nil⟩
        · intro e he
          rw [hvolumes] at he
          cases he
        · intro drive hex hsome
          rw [hpending] at hsome
          cases hsome
        · rw [hvolumes, hpending]
          rfl
        · rw [hvolumes]
          exact List.nodup_nil
      · exact .before hcount rfl hpending hvolumes (forall_mem_snoc hlines hne)
      · rw [hmounted, if_neg Bool.false_ne_true] at hvalue
        obtain rfl := Option.some.inj hvalue
        exact .before hcount hmounted hpending hvolumes
          (forall_mem_snoc hlines (not_isMounted_of_sectionName hnone))
  | @inside pre header region _ hpre hheader hsections hregion =>
    rw [List.append_assoc, List.cons_append]
    cases hname : sectionName line with
    | none =>
      exact .inside hpre hheader (forall_mem_snoc hsections hname) (hregion.step hname hstep)
    | some name =>
      -- no value goes on behind the header of a key
      have hpending : s.pending = none := by
        cases hpending : s.pending with
        | none => rfl
        | some p =>
          unfold Reader.line at hstep
          rw [if_neg (by rw [hregion.header]; decide), hpending] at hstep
          obtain ⟨compact, ⟨hf, -⟩ | ⟨hf, -⟩⟩ := fragment_spec hstep
          · exact absurd (isKeyLine_of_sectionName hname) (seenDrive_fragment hf).2
          · exact absurd (isKeyLine_of_sectionName hname) (seenDrive_fragment hf).2
      rcases line_spec hregion.header hpending hstep with ⟨-, -, -, hzero, -⟩ | ⟨hsome, hne,
        rfl⟩ | ⟨hnone, -⟩
      · rw [hregion.count] at hzero
        cases hzero
      · exact .behind hpre hheader hsections hregion hsome
          (fun l hl => List.mem_singleton.mp hl ▸ hne) hpending rfl
      · rw [hnone] at hname
        cases hname
  | @behind pre header region key post _ t hpre hheader hsections hregion hkey hpost hpending hs =>
    have hcons : pre ++ header :: (region ++ key :: post) ++ [line] =
        pre ++ header :: (region ++ key :: (post ++ [line])) := by simp
    rw [hcons]
    have hbehind : ¬ IsMounted line → Phase (pre ++ header :: (region ++ key :: (post ++ [line])))
        s := fun hne =>
      .behind hpre hheader hsections hregion hkey
        (by simpa using forall_mem_snoc hpost hne) hpending hs
    have hcount : s.mountedSections = 1 := by
      rw [hs]
      exact hregion.count
    have hin : s.inMounted = false := by rw [hs]
    have hsame : { s with inMounted := false } = s := by rw [hs]
    rcases line_spec (by rw [hs]; exact hregion.header) (by rw [hs]; exact hpending) hstep with
      ⟨-, -, -, hzero, -⟩ | ⟨-, hne, rfl⟩ | ⟨hnone, hvalue⟩
    · rw [hcount] at hzero
      cases hzero
    · rw [hsame]
      exact hbehind hne
    · rw [hin, if_neg Bool.false_ne_true] at hvalue
      obtain rfl := Option.some.inj hvalue
      exact hbehind (not_isMounted_of_sectionName hnone)

/-- A text that the reader accepts so far. -/
lemma phase_run {lines : List Str} {s : Reader} (h : Reader.run {} lines = some s) :
    Phase lines s := by
  induction lines using List.reverseRecOn generalizing s with
  | nil =>
    obtain rfl := Option.some.inj h
    exact .before rfl rfl rfl rfl fun l hl => absurd hl List.not_mem_nil
  | append_singleton lines line ih =>
    rw [run_append] at h
    obtain ⟨t, ht, hline⟩ := Option.bind_eq_some_iff.mp h
    refine (ih ht).step ?_
    unfold Reader.run at hline
    rw [List.foldlM_cons] at hline
    obtain ⟨u, hu, hnil⟩ := Option.bind_eq_some_iff.mp hline
    rw [hu, Option.some.inj hnil]

/-- The lines of a text that the reader has accepted. -/
lemma exists_region {lines : List Str} {s : Reader} (h : Reader.run {} lines = some s)
    (hcount : s.mountedSections = 1) (hpending : s.pending = none) :
    ∃ (pre : List Str) (header : Str) (region post : List Str) (t : Reader),
      lines = pre ++ header :: (region ++ post) ∧
      (∀ line ∈ pre, ¬ IsMounted line) ∧ IsMounted header ∧
      (∀ line ∈ region, sectionName line = none) ∧
      (∀ line ∈ post, ¬ IsMounted line) ∧
      (post = [] ∨ ∃ key rest, post = key :: rest ∧ sectionName key ≠ none) ∧
      Region region t ∧ t.pending = none ∧ t.volumeByDrive = s.volumeByDrive := by
  cases phase_run h with
  | before hzero =>
    rw [hcount] at hzero
    cases hzero
  | @inside pre header region _ hpre hheader hsections hregion =>
    exact ⟨pre, header, region, [], s, by rw [List.append_nil], hpre, hheader, hsections,
      fun l hl => absurd hl List.not_mem_nil,
      .inl rfl, hregion, hpending, rfl⟩
  | @behind pre header region key post _ t hpre hheader hsections hregion hkey hpost hpending' hs =>
    exact ⟨pre, header, region, key :: post, t, rfl, hpre, hheader, hsections, hpost,
      .inr ⟨key, post, rfl, hkey⟩, hregion, hpending',
      by rw [hs]⟩

/-- Lines without the header of a section stand before the first one. -/
lemma isPrefix_of_none {region post lines rest : List Str}
    (hlines : ∀ line ∈ lines, sectionName line = none)
    (hpost : post = [] ∨ ∃ key t, post = key :: t ∧ sectionName key ≠ none)
    (h : region ++ post = lines ++ rest) : lines <+: region := by
  rcases List.append_eq_append_iff.mp h with ⟨t, rfl, rfl⟩ | ⟨t, rfl, -⟩
  · cases t with
    | nil => simp
    | cons c t =>
      rcases hpost with hnil | ⟨key, t', heq, hkey⟩
      · cases hnil
      · obtain ⟨rfl, -⟩ := List.cons.inj heq
        exact absurd (hlines c (by simp)) hkey
  · exact List.prefix_append _ _

lemma seenDrive_key {key : Str} (h : IsKeyLine key) : seenDrive key = none := by
  obtain ⟨name, rfl⟩ := h
  rfl

lemma quote_notMem_of_occurs {lines : List Str} {entry : Char × Str} (h : Occurs lines entry) :
    '"' ∉ entry.2 := by
  obtain ⟨-, -, data, conts, -, -, -, hdata⟩ := h
  have hdigits : ∀ {t h : Str} {b : Bool}, regHexFragment t = some (b, h) → '"' ∉ h := by
    intro t h b hf hmem
    obtain ⟨d, hd, heq⟩ := (fragment_chars hf).2 _ hmem
    rw [eq_of_toLower heq.symm (by decide)] at hd
    revert hd
    decide
  have hopen : ∀ {ps : List Str} {h : Str}, HexOpen ps h → '"' ∉ h := by
    intro ps h hps
    induction hps with
    | one hp => exact hdigits hp
    | more _ hp ih => exact fun hmem => (List.mem_append.mp hmem).elim ih (hdigits hp)
  generalize data :: conts = ps at hdata
  generalize entry.2 = h at hdata ⊢
  cases hdata with
  | one hp => exact hdigits hp
  | more hps hp => exact fun hmem => (List.mem_append.mp hmem).elim (hopen hps) (hdigits hp)

/-- The section is one of a text. -/
lemma body_unique {pre pre' : List Str} {header header' : Str} {body body' rest rest' : List Str}
    (hpre : ∀ line ∈ pre, ¬ IsMounted line) (hpre' : ∀ line ∈ pre', ¬ IsMounted line)
    (hheader : IsMounted header) (hheader' : IsMounted header')
    (hbody : ∀ line ∈ body, ¬ IsKeyLine line) (hbody' : ∀ line ∈ body', ¬ IsKeyLine line)
    (hrest : rest = [] ∨ ∃ key t, rest = key :: t ∧ IsKeyLine key)
    (hrest' : rest' = [] ∨ ∃ key t, rest' = key :: t ∧ IsKeyLine key)
    (h : pre ++ header :: (body ++ rest) = pre' ++ header' :: (body' ++ rest')) :
    pre = pre' ∧ header = header' ∧ body = body' := by
  obtain rfl : pre = pre' :=
    split_unique hpre hpre' (.inr ⟨_, _, rfl, hheader⟩) (.inr ⟨_, _, rfl, hheader'⟩) h
  obtain ⟨rfl, htail⟩ := List.cons.inj (List.append_cancel_left h)
  exact ⟨rfl, rfl, split_unique hbody hbody' hrest hrest' htail⟩

/-- What is printed of a text is a map with values of the section exactly if no drive stands behind
a header that is not seen. -/
lemma printsValues_iff {text out : Str} (h : parseReg text = some out) :
    PrintsValues (trimmedLines text) out ↔ ¬ StrayDrive (trimmedLines text) := by
  unfold parseReg at h
  obtain ⟨s, hrun, hout⟩ := Option.bind_eq_some_iff.mp h
  split at hout
  · rename_i hend
    obtain rfl := Option.some.inj hout
    obtain ⟨pre, header, region, post, t, hlines, hpre, hheader, hsections, hpost, hkey, hregion,
        hpending, hvolumes⟩ :=
      exists_region hrun hend.2.1 hend.2.2
    have hdrives := hregion.drives
    rw [hpending, hvolumes, Option.map_none, Option.toList_none, List.append_nil] at hdrives
    have hnodup : (s.volumeByDrive.map (·.1)).Nodup := hvolumes ▸ hregion.nodup
    have hkeyLine : post = [] ∨ ∃ key rest, post = key :: rest ∧ IsKeyLine key := by
      refine hkey.imp_right ?_
      rintro ⟨key, rest, rfl, hsome⟩
      obtain ⟨name, hname⟩ := Option.ne_none_iff_exists'.mp hsome
      exact ⟨key, rest, rfl, isKeyLine_of_sectionName hname⟩
    constructor
    · rintro ⟨volumes, body, hprinted, -,
        ⟨pre', header', post', hlines', hheader', hall, hbody, hkey'⟩, hoccurs⟩
      rintro ⟨pre'', header'', body'', key, run, post'', hlines'', hheader'', hpre'', hbody'',
        hkey'', hnone, line, hline, hseen⟩
      -- the section of the text is one
      obtain ⟨-, -, rfl⟩ :=
        body_unique (fun l hl => hall l (List.mem_append_left _ hl)) hpre'' hheader' hheader''
          hbody hbody'' hkey'
        (.inr ⟨key, run ++ post'', rfl, hkey''⟩) (hlines'.symm.trans hlines'')
      have hregion' : region ++ post = body ++ (key :: run ++ post'') := by
        have heq := hlines.symm.trans hlines''
        obtain rfl : pre = pre'' :=
          split_unique hpre hpre'' (.inr ⟨_, _, rfl, hheader⟩) (.inr ⟨_, _, rfl, hheader''⟩) heq
        exact (List.cons.inj (List.append_cancel_left heq)).2
      have hnoneBody : ∀ l ∈ body ++ key :: run, sectionName l = none := by
        intro l hl
        rcases List.mem_append.mp hl with hl | hl
        · by_contra hsome
          obtain ⟨name, hname⟩ := Option.ne_none_iff_exists'.mp hsome
          exact hbody l hl (isKeyLine_of_sectionName hname)
        · exact hnone l hl
      obtain ⟨more, rfl⟩ := isPrefix_of_none hnoneBody hkey (by rw [hregion', List.append_assoc])
      -- the drive of the stray line is printed
      obtain ⟨⟨drive, rhs⟩, hdrive⟩ := Option.ne_none_iff_exists'.mp hseen
      have hname : (seenDrive line).map (·.1) = some drive := by rw [hdrive]; rfl
      have hin : drive ∈ s.volumeByDrive.map (·.1) := by
        rw [← hdrives]
        exact List.mem_filterMap.mpr ⟨line, by simp [hline], hname⟩
      have hletter : drive ∈ letters := by
        simp only [seenDrive, Option.bind_eq_bind, Option.bind_eq_some_iff] at hdrive
        obtain ⟨_, -, _, -, d, hd, heq⟩ := hdrive
        obtain ⟨rfl, -⟩ := Prod.mk.inj (Option.some.inj heq)
        exact driveLetter_mem hd
      have hsame : inOrder s.volumeByDrive = inOrder volumes := by
        rw [printVolumes_eq, printVolumes_eq] at hprinted
        refine printed_injective (fun e he => ?_) (fun e he => ?_) (List.cons.inj hprinted).2
        · exact quote_notMem_of_occurs (hregion.occurs e (hvolumes ▸ mem_inOrder he))
        · exact quote_notMem_of_occurs (hoccurs e (mem_inOrder he))
      have hin' : drive ∈ volumes.map (·.1) := by
        rw [← mem_letters_inOrder hletter, ← hsame, mem_letters_inOrder hletter]
        exact hin
      -- and it is a drive of the section too
      obtain ⟨entry, hentry, rfl⟩ := List.mem_map.mp hin'
      obtain ⟨first, hfirst, hfirstName⟩ := (hoccurs entry hentry).seenDrive
      rw [← hdrives, List.filterMap_append, List.filterMap_append, List.filterMap_cons] at hnodup
      have hdisjoint := List.disjoint_of_nodup_append (List.nodup_append.mp hnodup).1
      refine hdisjoint (List.mem_filterMap.mpr ⟨first, hfirst, hfirstName⟩) ?_
      rw [seenDrive_key hkey'']
      exact List.mem_filterMap.mpr ⟨line, hline, hname⟩
    · intro hstray
      -- the section goes up to the first line of a key
      obtain ⟨body, run, rfl, hbody, hrun'⟩ : ∃ body run, region = body ++ run ∧
          (∀ line ∈ body, ¬ IsKeyLine line) ∧
          (run = [] ∨ ∃ key rest, run = key :: rest ∧ IsKeyLine key) := exists_split region
      have hnone : ∀ line ∈ run, seenDrive line = none := by
        rcases hrun' with rfl | ⟨key, rest, rfl, hkeyRun⟩
        · exact fun l hl => absurd hl List.not_mem_nil
        · intro l hl
          rcases List.mem_cons.mp hl with rfl | hl
          · exact seenDrive_key hkeyRun
          · by_contra hsome
            exact hstray ⟨pre, header, body, key, rest, post, by rw [hlines, List.append_assoc],
              hheader, hpre, hbody, hkeyRun,
              fun l hl => hsections l (List.mem_append_right _ hl), l, hl, hsome⟩
      refine ⟨s.volumeByDrive, body, rfl, hnodup,
        ⟨pre, header, run ++ post, by rw [hlines, List.append_assoc], hheader, ?_, hbody, ?_⟩, ?_⟩
      · intro l hl
        rcases List.mem_append.mp hl with hl | hl
        · exact hpre l hl
        · rcases List.mem_append.mp hl with hl | hl
          · exact not_isMounted_of_sectionName (hsections l (List.mem_append_right _ hl))
          · exact hpost l hl
      · rcases hrun' with rfl | ⟨key, rest, rfl, hkeyRun⟩
        · exact hkeyLine
        · exact .inr ⟨key, rest ++ post, rfl, hkeyRun⟩
      · intro e he
        exact (hregion.occurs e (hvolumes ▸ he)).restrict hrun' hnone
  · cases hout

end Whole

end Pxeos.Display
