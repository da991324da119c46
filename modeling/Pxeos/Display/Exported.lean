import Pxeos.Display.Export
import Pxeos.Lib.Checks

/-!
# An export is read back

The reader takes the map of an export from its text exactly if the export is readable.
-/

namespace Pxeos.Display

open Pxeos.Lib

/-! ### Escapes -/

section Escapes

lemma unescape_escape (s t : Str) :
    regUnescapeName (escape s ++ t) = (regUnescapeName t).map (s ++ ·) := by
  induction s with
  | nil => simp [escape]
  | cons c s ih =>
    have hcons : escape (c :: s) = (if c = '\\' ∨ c = '"' then ['\\', c] else [c]) ++ escape s :=
      rfl
    rw [hcons, List.append_assoc]
    split
    · rename_i hc
      show regUnescapeName ('\\' :: c :: (escape s ++ t)) = _
      rw [regUnescapeName, if_pos hc, ih, Option.map_map]
      rfl
    · rename_i hc
      show regUnescapeName (c :: (escape s ++ t)) = _
      rw [regUnescapeName, ih, Option.map_map]
      · rfl
      · rintro rfl
        exact absurd (.inl rfl) hc
      · rintro _ _ rfl
        exact absurd (.inl rfl) hc

lemma unescape_quote (t : Str) : regUnescapeName ('"' :: t) = (regUnescapeName t).map ('"' :: ·) :=
  rfl

lemma unescape_equals (t : Str) : regUnescapeName ('=' :: t) = (regUnescapeName t).map ('=' :: ·) :=
  rfl

lemma dropWhile_escape (s t : Str) :
    (escape s ++ '"' :: t).dropWhile isSpace = escape (s.dropWhile isSpace) ++ '"' :: t := by
  induction s with
  | nil => rfl
  | cons c s ih =>
    have hcons : escape (c :: s) = (if c = '\\' ∨ c = '"' then ['\\', c] else [c]) ++ escape s :=
      rfl
    by_cases hspace : isSpace c = true
    · have hc : ¬ (c = '\\' ∨ c = '"') := by
        rintro (rfl | rfl) <;> exact absurd hspace (by decide)
      rw [hcons, if_neg hc, List.dropWhile_cons_of_pos hspace, ← ih]
      exact List.dropWhile_cons_of_pos hspace
    · rw [List.dropWhile_cons_of_neg hspace, hcons]
      split
      · exact List.dropWhile_cons_of_neg (by decide)
      · exact List.dropWhile_cons_of_neg hspace

lemma opens_iff {s : Str} : Opens s ↔ ∃ rest, s.dropWhile isSpace = '=' :: rest := by
  constructor
  · rintro ⟨before, rest, rfl, hb⟩
    exact ⟨rest, by rw [dropWhile_blank hb, List.dropWhile_cons_of_neg (by decide)]⟩
  · rintro ⟨rest, h⟩
    exact ⟨s.takeWhile isSpace, rest, by rw [← h, List.takeWhile_append_dropWhile],
      fun c hc => List.mem_takeWhile_imp hc⟩

/-- What stands behind a quote opens if the text before its escapes does. -/
lemma opens_escape {s : Str} :
    (∃ rest, (escape s ++ ['"']).dropWhile isSpace = '=' :: rest) ↔ Opens s := by
  rw [dropWhile_escape, opens_iff]
  generalize s.dropWhile isSpace = t
  constructor
  · rintro ⟨rest, h⟩
    cases t with
    | nil => cases h
    | cons c t =>
      have hcons : escape (c :: t) = (if c = '\\' ∨ c = '"' then ['\\', c] else [c]) ++ escape t :=
        rfl
      rw [hcons] at h
      split at h
      · cases h
      · obtain ⟨rfl, -⟩ := List.cons.inj h
        exact ⟨t, rfl⟩
  · rintro ⟨rest, rfl⟩
    exact ⟨escape rest ++ ['"'], rfl⟩

lemma hasQuoted_cons {c : Char} {s : Str} :
    HasQuoted (c :: s) ↔ (c = '"' ∧ Opens s) ∨ HasQuoted s := by
  constructor
  · rintro ⟨name, before, rest, h, hb⟩
    cases name with
    | nil =>
      obtain ⟨rfl, rfl⟩ := List.cons.inj h
      exact .inl ⟨rfl, before, rest, rfl, hb⟩
    | cons d name =>
      obtain ⟨rfl, rfl⟩ := List.cons.inj h
      exact .inr ⟨name, before, rest, rfl, hb⟩
  · rintro (⟨rfl, before, rest, rfl, hb⟩ | ⟨name, before, rest, rfl, hb⟩)
    · exact ⟨[], before, rest, rfl, hb⟩
    · exact ⟨c :: name, before, rest, rfl, hb⟩

lemma lastQuoted_of_none {c : Char} {s : Str} (h : lastQuoted s = none)
    (hc : c = '"' → ¬ ∃ rest, s.dropWhile isSpace = '=' :: rest) :
    lastQuoted (c :: s) = none := by
  unfold lastQuoted
  rw [h]
  dsimp only
  split
  · rename_i hquote
    split
    · rename_i rest heq
      exact absurd ⟨rest, heq⟩ (hc hquote)
    · rfl
  · rfl

lemma lastQuoted_escape_none {s : Str} (h : ¬ HasQuoted s) :
    lastQuoted (escape s ++ ['"']) = none := by
  induction s with
  | nil => rfl
  | cons c s ih =>
    rw [hasQuoted_cons, not_or] at h
    have hcons : escape (c :: s) = (if c = '\\' ∨ c = '"' then ['\\', c] else [c]) ++ escape s :=
      rfl
    have htail : lastQuoted (c :: (escape s ++ ['"'])) = none :=
      lastQuoted_of_none (ih h.2) fun hc hopens => h.1 ⟨hc, opens_escape.mp hopens⟩
    rw [hcons, List.append_assoc]
    split
    · exact lastQuoted_of_none htail fun hc => absurd hc (by decide)
    · exact htail

/-- The last quote of a text is escaped. -/
lemma lastQuoted_escape_some {s : Str} (h : HasQuoted s) :
    ∃ t rhs, lastQuoted (escape s ++ ['"']) = some (escape t ++ ['\\'], rhs) := by
  induction s with
  | nil =>
    obtain ⟨name, before, rest, heq, -⟩ := h
    cases name <;> cases heq
  | cons c s ih =>
    by_cases hs : HasQuoted s
    · obtain ⟨t, rhs, hlast⟩ := ih hs
      have hcons : ∀ u : Str, escape (c :: u) = (if c = '\\' ∨ c = '"' then ['\\', c] else [c]) ++
          escape u := fun u => rfl
      refine ⟨c :: t, rhs, ?_⟩
      rw [hcons, hcons, List.append_assoc, List.append_assoc]
      exact lastQuoted_append hlast _
    · obtain ⟨rfl, hopens⟩ := (hasQuoted_cons.mp h).resolve_right hs
      obtain ⟨rest, hrest⟩ := opens_escape.mpr hopens
      refine ⟨[], rest.dropWhile isSpace, ?_⟩
      have hquote : lastQuoted ('"' :: (escape s ++ ['"'])) =
          some ([], rest.dropWhile isSpace) := by
        unfold lastQuoted
        rw [lastQuoted_escape_none hs, hrest]
        rfl
      exact lastQuoted_append hquote ['\\']

end Escapes

/-! ### The lines of values -/

section Lines

variable {v : Value} {name : Str}

lemma sectionName_of_head {line : Str} (h : line.head? ≠ some '[') :
    sectionName line = none ∧ ¬ IsKeyLine line := by
  constructor
  · unfold sectionName
    split
    · exact absurd rfl h
    · rfl
  · rintro ⟨name, rfl⟩
    exact h rfl

lemma pieceLines_eq (pieces : List (List HexByte)) :
    pieceLines pieces = (pieceLines pieces).headD [] :: (pieceLines pieces).tail := by
  cases pieces with
  | nil => rfl
  | cons piece pieces =>
    cases pieces with
    | nil => rfl
    | cons next pieces => rfl

lemma mem_more {line : Str} (h : line ∈ v.data.more) :
    ∀ c ∈ line, isXdigit c = true ∨ c = ',' ∨ c = '\\' := by
  unfold Data.more at h
  split at h
  · exact mem_pieceLines (List.mem_of_mem_tail h)
  · exact absurd h List.not_mem_nil

lemma head_more {line : Str} (h : line ∈ v.data.more) :
    line.head? ≠ some '[' ∧ line.head? ≠ some '"' := by
  constructor
  all_goals
    intro hhead
    have := mem_more h _ (List.mem_of_head? hhead)
    revert this
    decide

lemma head_firstLine : v.firstLine.head? ≠ some '[' := by
  unfold Value.firstLine Value.nameText
  split
  · intro h
    cases h
  · intro h
    cases h

lemma sectionName_lines {line : Str} (h : line ∈ v.lines) :
    sectionName line = none ∧ ¬ IsKeyLine line := by
  rcases List.mem_cons.mp h with rfl | h
  · exact sectionName_of_head head_firstLine
  · exact sectionName_of_head (head_more h).1

lemma sectionName_body {k : Key} {line : Str} (h : line ∈ k.body) :
    sectionName line = none ∧ ¬ IsKeyLine line := by
  obtain ⟨item, -, hline⟩ := List.mem_flatMap.mp h
  cases item with
  | none =>
    rw [List.mem_singleton.mp hline]
    exact sectionName_of_head (by decide)
  | some v => exact sectionName_lines hline

lemma splitValue_of_head {line : Str} (h : line.head? ≠ some '"') : splitValue line = none := by
  unfold splitValue
  split
  · exact absurd rfl h
  · rfl

lemma splitValue_firstLine (hname : v.name = some name) :
    splitValue v.firstLine = lastQuoted (escape name ++ '"' :: '=' :: v.data.first) := by
  unfold Value.firstLine Value.nameText
  rw [hname]
  show lastQuoted ((escape name ++ ['"']) ++ '=' :: v.data.first) = _
  rw [List.append_assoc]
  rfl

/-- The name and the value of a line, if no quote stands in the value with an equals sign behind
it. -/
lemma splitValue_plain (hname : v.name = some name) (hlast : lastQuoted v.data.first = none) :
    splitValue v.firstLine = some (escape name, v.data.first.dropWhile isSpace) := by
  rw [splitValue_firstLine hname]
  have hquote : lastQuoted ('"' :: '=' :: v.data.first) =
      some ([], v.data.first.dropWhile isSpace) := by
    have hequals : lastQuoted ('=' :: v.data.first) = none := lastQuoted_of_none hlast fun hc =>
      absurd hc (by decide)
    unfold lastQuoted
    rw [hequals]
    rfl
  rw [lastQuoted_append hquote, List.append_nil]

/-- A value whose text opens is read with a longer name. -/
lemma splitValue_opens {content : Str} {single : Single content} (hname : v.name = some name)
    (hdata : v.data = .text content single) (hquoted : ¬ HasQuoted content)
    (hopens : Opens content) :
    ∃ rhs, splitValue v.firstLine = some (escape name ++ ['"', '='], rhs) := by
  obtain ⟨rest, hrest⟩ := opens_escape.mpr hopens
  have hquote : lastQuoted ('"' :: (escape content ++ ['"'])) =
      some ([], rest.dropWhile isSpace) := by
    unfold lastQuoted
    rw [lastQuoted_escape_none hquoted, hrest]
    rfl
  refine ⟨rest.dropWhile isSpace, ?_⟩
  rw [splitValue_firstLine hname, hdata]
  have happend := lastQuoted_append hquote (escape name ++ ['"', '='])
  rw [List.append_assoc, List.append_nil] at happend
  exact happend

lemma lastQuoted_first (hbreaks : ¬ v.Breaks) (hname : v.name ≠ none)
    (hopens : ∀ content single, v.data = .text content single → ¬ Opens content) :
    lastQuoted v.data.first = none := by
  cases hdata : v.data with
  | bytes tag pieces single quote =>
    refine lastQuoted_none ?_
    have hmem : '"' ∉ tag ++ ':' :: (pieceLines pieces).headD [] := by
      simp only [List.mem_append, List.mem_cons, not_or]
      refine ⟨quote, by decide, fun hin => ?_⟩
      have hfirst : (pieceLines pieces).headD [] ∈ pieceLines pieces := by
        have heq := pieceLines_eq pieces
        generalize (pieceLines pieces).headD [] = first at heq ⊢
        rw [heq]
        exact List.mem_cons_self
      have := mem_pieceLines hfirst _ hin
      revert this
      decide
    rintro ⟨name', before, rest, heq, -⟩
    refine hmem ?_
    show '"' ∈ (Data.bytes tag pieces single quote).first
    rw [heq]
    simp
  | text content single =>
    refine lastQuoted_of_none
      (lastQuoted_escape_none fun hquoted => hbreaks ⟨hname, content, single, hdata, hquoted⟩)
        fun _ hrest => ?_
    exact hopens content single hdata (opens_escape.mp hrest)

lemma driveLetter_equals (name : Str) : driveLetter (lower (name ++ ['"', '='])) = none := by
  have hlower : lower (name ++ ['"', '=']) = lower name ++ ['"', '='] := by
    rw [lower, List.map_append]
    rfl
  rw [hlower]
  unfold driveLetter
  split
  · split
    · rename_i letter heq
      -- the name ends in a colon
      have hlast :=
        congrArg List.getLast?
          (List.take_append_drop "\\dosdevices\\".toList.length (lower name ++ ['"', '=']))
      rw [heq, List.getLast?_append, List.getLast?_append] at hlast
      cases hlast
    · rfl
  · rfl

/-- The name that the reader finds on the first line of a value. -/
lemma splitValue_cases (hbreaks : ¬ v.Breaks) : (v.name = none ∧ splitValue v.firstLine = none) ∨
    ∃ name, v.name = some name ∧
      ((∃ content single rhs, v.data = .text content single ∧ Opens content ∧
        splitValue v.firstLine = some (escape name ++ ['"', '='], rhs)) ∨
      ((∀ content single, v.data = .text content single → ¬ Opens content) ∧
        splitValue v.firstLine = some (escape name, v.data.first.dropWhile isSpace))) := by
  cases hname : v.name with
  | none =>
    refine .inl ⟨rfl, splitValue_of_head ?_⟩
    unfold Value.firstLine Value.nameText
    rw [hname]
    intro h
    cases h
  | some name =>
    have hne : v.name ≠ none := by
      rw [hname]
      exact Option.some_ne_none _
    refine .inr ⟨name, rfl, ?_⟩
    by_cases hopens : ∃ content single, v.data = .text content single ∧ Opens content
    · obtain ⟨content, single, hdata, hopens⟩ := hopens
      obtain ⟨rhs, hsplit⟩ :=
        splitValue_opens hname hdata (fun hq => hbreaks ⟨hne, content, single, hdata, hq⟩) hopens
      exact .inl ⟨content, single, rhs, hdata, hopens, hsplit⟩
    · push Not at hopens
      exact .inr ⟨hopens, splitValue_plain hname (lastQuoted_first hbreaks hne hopens)⟩

lemma unescape_name (name : Str) : regUnescapeName (escape name) = some name := by
  have h := unescape_escape name []
  rwa [List.append_nil, regUnescapeName, Option.map_some, List.append_nil] at h

lemma unescape_opens (name : Str) :
    regUnescapeName (escape name ++ ['"', '=']) = some (name ++ ['"', '=']) := by
  rw [unescape_escape]
  rfl

lemma unescapes_firstLine (hbreaks : ¬ v.Breaks) {nameEscaped rhs : Str}
    (hsplit : splitValue v.firstLine = some (nameEscaped, rhs)) :
    regUnescapeName nameEscaped ≠ none := by
  rcases splitValue_cases hbreaks with ⟨-, hnone⟩ | ⟨name, -, ⟨_, _, _, _, _, heq⟩ | ⟨-, heq⟩⟩
  · rw [hnone] at hsplit
    cases hsplit
  · rw [heq] at hsplit
    obtain ⟨rfl, -⟩ := Prod.mk.inj (Option.some.inj hsplit)
    rw [unescape_opens]
    exact Option.some_ne_none _
  · rw [heq] at hsplit
    obtain ⟨rfl, -⟩ := Prod.mk.inj (Option.some.inj hsplit)
    rw [unescape_name]
    exact Option.some_ne_none _

/-- What the reader takes for the value of a drive. -/
lemma seenDrive_firstLine (hbreaks : ¬ v.Breaks) : seenDrive v.firstLine ≠ none ↔ v.Strays := by
  unfold seenDrive Value.Strays Value.drive
  rcases splitValue_cases hbreaks with ⟨hname, hsplit⟩ | ⟨name, hname,
    ⟨content, single, rhs, hdata, hopens, hsplit⟩ | ⟨hopens, hsplit⟩⟩
  · rw [hsplit, hname]
    exact ⟨fun h => absurd rfl h, fun h => absurd rfl h.1⟩
  · rw [hsplit]
    simp only [Option.bind_eq_bind, Option.bind_some]
    rw [unescape_opens, Option.bind_some, driveLetter_equals]
    exact ⟨fun h => absurd rfl h, fun h => absurd hopens (h.2 content single hdata)⟩
  · rw [hsplit, hname]
    simp only [Option.bind_eq_bind, Option.bind_some]
    rw [unescape_name, Option.bind_some]
    constructor
    · refine fun h => ⟨fun hnone => h ?_, hopens⟩
      rw [hnone]
      rfl
    · rintro ⟨hsome, -⟩ hnone
      obtain ⟨drive, hd⟩ := Option.ne_none_iff_exists'.mp hsome
      rw [hd] at hnone
      cases hnone

/-- The quote that is taken for the end of the name stands behind a backslash. -/
lemma splitValue_breaks (hbreaks : v.Breaks) :
    ∃ nameEscaped rhs, splitValue v.firstLine = some (nameEscaped, rhs) ∧
    regUnescapeName nameEscaped = none := by
  obtain ⟨hne, content, single, hdata, hquoted⟩ := hbreaks
  obtain ⟨name, hname⟩ := Option.ne_none_iff_exists'.mp hne
  obtain ⟨t, rhs, hlast⟩ := lastQuoted_escape_some hquoted
  refine ⟨escape name ++ ('"' :: '=' :: '"' :: (escape t ++ ['\\'])), rhs, ?_, ?_⟩
  · rw [splitValue_firstLine hname, hdata]
    have happend := lastQuoted_append hlast (escape name ++ ['"', '=', '"'])
    rw [List.append_assoc, List.append_assoc] at happend
    exact happend
  · have hslash : regUnescapeName ['\\'] = none := rfl
    rw [unescape_escape, unescape_quote, unescape_equals, unescape_quote, unescape_escape, hslash]
    rfl

end Lines

/-! ### The reader on a key -/

section Run

variable {s : Reader}

/-- The reader in the section. -/
def inside (volumes : List (Char × Str)) : Reader := ⟨true, 1, true, none, volumes⟩

lemma run_cons (s : Reader) (line : Str) (lines : List Str) :
    s.run (line :: lines) = (s.line line).bind fun t => t.run lines :=
  List.foldlM_cons

lemma run_single (s : Reader) (line : Str) : s.run [line] = s.line line := by
  rw [run_cons]
  exact Option.bind_fun_some _

lemma line_of_none {line : Str} (hheader : s.headerSeen = true) (hpending : s.pending = none)
    (hsection : sectionName line = none) :
    s.line line = if s.inMounted then s.value line else some s := by
  unfold Reader.line
  rw [if_neg (by rw [hheader]; decide), hpending, hsection]

lemma value_of_split {line : Str} (h : splitValue line = none) : s.value line = some s := by
  unfold Reader.value
  rw [h]

lemma value_of_seenDrive {line : Str} (h : seenDrive line = none)
    (hname : ∀ nameEscaped rhs, splitValue line = some (nameEscaped, rhs) →
      regUnescapeName nameEscaped ≠ none) :
    s.value line = some s := by
  unfold Reader.value
  split
  · rfl
  · rename_i nameEscaped rhs hsplit
    obtain ⟨name, hunescape⟩ := Option.ne_none_iff_exists'.mp (hname _ _ hsplit)
    rw [hunescape]
    dsimp only
    split
    · rfl
    · rename_i drive hdrive
      unfold seenDrive at h
      rw [hsplit] at h
      simp only [Option.bind_eq_bind, Option.bind_some] at h
      rw [hunescape, Option.bind_some, hdrive] at h
      cases h

/-- Lines without the header of a section, out of the section or without values. -/
lemma run_skip {lines : List Str} (hheader : s.headerSeen = true) (hpending : s.pending = none)
    (h : ∀ line ∈ lines, sectionName line = none ∧ (s.inMounted = true → splitValue line = none)) :
    s.run lines = some s := by
  induction lines with
  | nil => rfl
  | cons line lines ih =>
    obtain ⟨hsection, hsplit⟩ := h line List.mem_cons_self
    rw [run_cons, line_of_none hheader hpending hsection]
    have hline : (if s.inMounted then s.value line else some s) = some s := by
      split
      · rename_i hin
        exact value_of_split (hsplit hin)
      · rfl
    rw [hline]
    exact ih fun l hl => h l (List.mem_cons_of_mem _ hl)

lemma line_pending {drive : Char} {hex line : Str} (hheader : s.headerSeen = true)
    (hpending : s.pending = some (drive, hex)) :
    s.line line = s.fragment drive hex line := by
  unfold Reader.line
  rw [if_neg (by rw [hheader]; decide), hpending]

/-- The reader with a value that goes on. -/
lemma line_goesOn {drive : Char} {hex line : Str} (hheader : s.headerSeen = true) :
    Reader.line { s with pending := some (drive, hex) } line = s.fragment drive hex line := by
  unfold Reader.line
  rw [if_neg (by simp [hheader])]
  unfold Reader.fragment
  rfl

lemma run_open {lines : List Str} {drive : Char} {hex h : Str} (hopen : HexOpen lines h)
    (hheader : s.headerSeen = true) (hpending : s.pending = some (drive, hex)) :
    s.run lines = some { s with pending := some (drive, hex ++ h) } := by
  induction hopen with
  | one hp =>
    rw [run_single, line_pending hheader hpending]
    unfold Reader.fragment
    rw [hp]
    rfl
  | more _ hp ih =>
    rw [run_append, ih, Option.bind_some, run_single, line_goesOn hheader]
    unfold Reader.fragment
    rw [hp]
    dsimp only
    rw [if_pos rfl, List.append_assoc]

lemma run_hexData {lines : List Str} {drive : Char} {hex h : Str} (hdata : HexData lines h)
    (hheader : s.headerSeen = true) (hpending : s.pending = some (drive, hex))
    (hnew : drive ∉ s.volumeByDrive.map (·.1)) :
    s.run lines =
      some { s with pending := none, volumeByDrive := s.volumeByDrive ++ [(drive, hex ++ h)] } := by
  have hany : s.volumeByDrive.any (·.1 == drive) = false := by
    rw [List.any_eq_false]
    exact fun e he heq => hnew (List.mem_map.mpr ⟨e, he, by simpa using heq⟩)
  cases hdata with
  | one hp =>
    rw [run_single, line_pending hheader hpending]
    unfold Reader.fragment
    rw [hp]
    dsimp only
    rw [if_neg Bool.false_ne_true, if_neg (by rw [hany]; decide)]
  | more hopen hp =>
    rw [run_append, run_open hopen hheader hpending, Option.bind_some, run_single,
      line_goesOn hheader]
    unfold Reader.fragment
    rw [hp]
    dsimp only
    rw [if_neg Bool.false_ne_true, if_neg (by rw [hany]; decide), List.append_assoc]

/-- The volume of a drive, as it is printed. -/
def shown (v : Char × List UInt8) : Char × Str := (v.1, hexText v.2)

/-- The first line of a drive with its bytes. -/
lemma driveValue_firstLine {v : Value} {drive : Char} {tag : Str} {pieces : List (List HexByte)}
    {single : Single tag} {quote : '"' ∉ tag} (hdata : v.data = .bytes tag pieces single quote)
    (htag : lower tag = "hex".toList) (hdrive : v.drive = some drive) :
    DriveValue v.firstLine drive ((pieceLines pieces).headD []) := by
  obtain ⟨name, hname, hletter⟩ := Option.bind_eq_some_iff.mp hdrive
  refine ⟨escape name, name, [], [], tag, ?_, fun c hc => absurd hc List.not_mem_nil,
    fun c hc => absurd hc List.not_mem_nil, htag,
    unescape_name name, hletter⟩
  unfold Value.firstLine Value.nameText
  rw [hname, hdata]
  simp [Data.first]

/-- The line does what the bytes on it would do behind it. -/
lemma value_firstLine {v : Value} {drive : Char} {tag : Str} {pieces : List (List HexByte)}
    {single : Single tag} {quote : '"' ∉ tag} (hbreaks : ¬ v.Breaks) (hs : v.Strays)
    (hdata : v.data = .bytes tag pieces single quote) (htag : lower tag = "hex".toList)
    (hdrive : v.drive = some drive) :
    s.value v.firstLine = s.fragment drive [] ((pieceLines pieces).headD []) := by
  obtain ⟨name, hname, hletter⟩ := Option.bind_eq_some_iff.mp hdrive
  have hsplit :=
    splitValue_plain hname
      (lastQuoted_first hbreaks (by rw [hname]; exact Option.some_ne_none _) hs.2)
  have hcolon : ∀ c ∈ tag, decide (c ≠ ':') = true ∧ isSpace c = false := by
    intro c hc
    have hin : c.toLower ∈ "hex".toList := htag ▸ List.mem_map_of_mem hc
    have hcases : c.toLower = 'h' ∨ c.toLower = 'e' ∨ c.toLower = 'x' := by simpa using hin
    constructor
    · refine decide_eq_true ?_
      rintro rfl
      revert hcases
      decide
    · rw [← isSpace_toLower]
      rcases hcases with heq | heq | heq <;> rw [heq] <;> decide
  have htrim : v.data.first.dropWhile isSpace = tag ++ ':' :: (pieceLines pieces).headD [] := by
    rw [hdata]
    cases tag with
    | nil => exact List.dropWhile_cons_of_neg (by decide)
    | cons c tag => exact List.dropWhile_cons_of_neg (by simp [(hcolon c List.mem_cons_self).2])
  have hhex : "hex:".toList.isPrefixOf (lower (tag ++ ':' :: (pieceLines pieces).headD [])) =
      true := by
    rw [List.isPrefixOf_iff_prefix, lower, List.map_append, ← lower, htag]
    exact ⟨lower ((pieceLines pieces).headD []), rfl⟩
  have hdrop : ((tag ++ ':' :: (pieceLines pieces).headD []).dropWhile (· ≠ ':')).drop 1 =
      (pieceLines pieces).headD [] := by
    rw [List.dropWhile_append_of_pos fun c hc => (hcolon c hc).1,
      List.dropWhile_cons_of_neg (by simp)]
    rfl
  unfold Reader.value
  rw [hsplit]
  dsimp only
  rw [unescape_name]
  dsimp only
  rw [hletter]
  dsimp only
  rw [htrim, if_pos hhex, hdrop]

lemma volume_of_not_strays {v : Value} (h : ¬ v.Strays) : v.volume = none := by
  unfold Value.volume
  split
  · rename_i tag pieces single quote hdata
    cases hdrive : v.drive with
    | none => rfl
    | some drive =>
      refine absurd ⟨?_, fun content single hdata' => ?_⟩ h
      · rw [hdrive]
        exact Option.some_ne_none _
      · rw [hdata] at hdata'
        cases hdata'
  · rfl

/-- A value in the section. -/
lemma run_value {v : Value} {volumes : List (Char × Str)} (hbreaks : ¬ v.Breaks)
    (hstrays : v.Strays → v.IsVolume) (hnew : ∀ p ∈ v.volume, p.1 ∉ volumes.map (·.1)) :
    (inside volumes).run v.lines = some (inside (volumes ++ (v.volume.map shown).toList)) := by
  have hmore : (inside volumes).run v.data.more = some (inside volumes) := by
    refine run_skip rfl rfl fun line hline => ?_
    exact ⟨(sectionName_of_head (head_more hline).1).1,
      fun _ => splitValue_of_head (head_more hline).2⟩
  have hline : (inside volumes).line v.firstLine = (inside volumes).value v.firstLine :=
    line_of_none rfl rfl (sectionName_of_head head_firstLine).1
  unfold Value.lines
  by_cases hs : v.Strays
  · obtain ⟨tag, pieces, single, quote, hdata, htag, hne, hpieces⟩ := hstrays hs
    obtain ⟨drive, hdrive⟩ := Option.ne_none_iff_exists'.mp hs.1
    have hvolume : v.volume = some (drive, pieces.flatten.map HexByte.value) := by
      unfold Value.volume
      rw [hdata, hdrive]
      rfl
    have hbytes := hexData_pieceLines hne hpieces
    rw [hvolume] at hnew ⊢
    have hstep : (inside volumes).value v.firstLine =
        Reader.line { inside volumes with pending := some (drive, []) }
          ((pieceLines pieces).headD []) := by
      rw [value_firstLine hbreaks hs hdata htag hdrive, line_goesOn rfl]
    have hmore' : v.data.more = (pieceLines pieces).tail := by
      rw [hdata]
      rfl
    rw [run_cons, hline, hstep, hmore', ← run_cons, ← pieceLines_eq,
      run_hexData hbytes rfl rfl (hnew _ rfl)]
    rfl
  · have hnone : seenDrive v.firstLine = none := by
      by_contra hsome
      exact hs ((seenDrive_firstLine hbreaks).mp hsome)
    have hfirst : (inside volumes).value v.firstLine = some (inside volumes) :=
      value_of_seenDrive hnone fun nameEscaped rhs hsplit => unescapes_firstLine hbreaks hsplit
    rw [run_cons, hline, hfirst, Option.bind_some, hmore, volume_of_not_strays hs]
    simp

/-- The items of a key in the section. -/
lemma run_items {items : List (Option Value)} {volumes : List (Char × Str)}
    (hok : ∀ v ∈ items.filterMap id, ¬ v.Breaks ∧ (v.Strays → v.IsVolume))
    (hnodup : (volumes.map (·.1) ++ ((items.filterMap id).filterMap Value.volume).map
      (·.1)).Nodup) :
    (inside volumes).run (items.flatMap itemLines) =
      some (inside (volumes ++ ((items.filterMap id).filterMap Value.volume).map shown)) := by
  induction items generalizing volumes with
  | nil =>
    rw [List.filterMap_nil, List.filterMap_nil, List.map_nil, List.append_nil]
    rfl
  | cons item items ih =>
    rw [List.flatMap_cons, run_append]
    cases item with
    | none =>
      have hblank : (inside volumes).run [[]] = some (inside volumes) := by
        refine run_skip rfl rfl fun line hline => ?_
        rw [List.mem_singleton.mp hline]
        exact ⟨rfl, fun _ => rfl⟩
      rw [show itemLines none = [[]] from rfl, hblank, Option.bind_some]
      exact ih hok hnodup
    | some v =>
      obtain ⟨hbreaks, hstrays⟩ := hok v List.mem_cons_self
      have hrest : ∀ v ∈ items.filterMap id, ¬ v.Breaks ∧ (v.Strays → v.IsVolume) :=
        fun w hw => hok w (List.mem_cons_of_mem _ hw)
      rw [List.filterMap_cons_some (f := id) (b := v) rfl] at hnodup ⊢
      rw [show itemLines (some v) = v.lines from rfl]
      cases hvolume : v.volume with
      | none =>
        have hvalue :=
          @run_value v volumes hbreaks hstrays (by rw [hvolume]; exact fun p hp => by cases hp)
        rw [hvolume, Option.map_none, Option.toList_none, List.append_nil] at hvalue
        rw [List.filterMap_cons_none hvolume] at hnodup ⊢
        rw [hvalue, Option.bind_some]
        exact ih hrest hnodup
      | some p =>
        rw [List.filterMap_cons_some hvolume] at hnodup ⊢
        have hnew : ∀ q ∈ v.volume, q.1 ∉ volumes.map (·.1) := by
          rw [hvolume]
          intro q hq hmem
          obtain rfl := Option.mem_some_iff.mp hq
          exact (List.nodup_append.mp hnodup).2.2 _ hmem _ List.mem_cons_self rfl
        have hvalue := run_value hbreaks hstrays hnew
        rw [hvolume, Option.map_some, Option.toList_some] at hvalue
        rw [hvalue, Option.bind_some, ih hrest]
        · rw [List.map_cons, List.append_assoc]
          rfl
        · simpa [shown] using hnodup

lemma sectionName_header (k : Key) :
    sectionName k.header = if k.Unseen then none else some k.name := by
  unfold sectionName Key.header
  simp only [List.getLast?_concat, List.dropLast_concat]
  by_cases h : k.Unseen
  · rw [if_pos h, if_neg]
    rintro ⟨hnil, hopen, hclose⟩
    exact h.elim hnil (Or.rec hopen hclose)
  · rw [if_neg h, if_pos]
    unfold Key.Unseen at h
    rw [not_or, not_or] at h
    exact h

/-- The keys whose headers are not seen. -/
lemma run_unseen {keys : List Key} {volumes : List (Char × Str)} (hunseen : ∀ k ∈ keys, k.Unseen)
    (hok : ∀ v ∈ keys.flatMap Key.values, ¬ v.Breaks ∧ ¬ v.Strays)
    (hnodup : (volumes.map (·.1)).Nodup) :
    (inside volumes).run (keys.flatMap Key.lines) = some (inside volumes) := by
  induction keys with
  | nil => rfl
  | cons k keys ih =>
    have hheader : (inside volumes).line k.header = some (inside volumes) := by
      rw [line_of_none rfl rfl (by rw [sectionName_header, if_pos (hunseen k List.mem_cons_self)])]
      refine (if_pos rfl).trans (value_of_split (splitValue_of_head ?_))
      show some '[' ≠ some '"'
      decide
    have hvalues : ∀ v ∈ k.items.filterMap id, ¬ v.Breaks ∧ ¬ v.Strays := fun v hv =>
      hok v (List.mem_flatMap.mpr ⟨k, List.mem_cons_self, hv⟩)
    have hvolumes : (k.items.filterMap id).filterMap Value.volume = [] :=
      List.filterMap_eq_nil_iff.mpr fun v hv => volume_of_not_strays (hvalues v hv).2
    have hbody : (inside volumes).run k.body = some (inside volumes) := by
      have hrun :=
        @run_items _ volumes (fun v hv => ⟨(hvalues v hv).1, fun h => absurd h (hvalues v hv).2⟩)
        (by rw [hvolumes, List.map_nil, List.append_nil]; exact hnodup)
      rwa [hvolumes, List.map_nil, List.append_nil] at hrun
    rw [List.flatMap_cons, run_append, Key.lines, run_cons, hheader, Option.bind_some, hbody,
      Option.bind_some]
    refine ih (fun k hk => hunseen k (List.mem_cons_of_mem _ hk)) fun v hv => hok v ?_
    rw [List.flatMap_cons]
    exact List.mem_append_right _ hv

/-- The other keys. -/
lemma run_outside {keys : List Key} (hheader : s.headerSeen = true) (hpending : s.pending = none)
    (hin : s.inMounted = false) (hothers : ∀ k ∈ keys, lower k.name ≠ mountedName) :
    s.run (keys.flatMap Key.lines) = some s := by
  induction keys with
  | nil => rfl
  | cons k keys ih =>
    have hsection := sectionName_header k
    have hline : s.line k.header = some s := by
      split_ifs at hsection
      · rw [line_of_none hheader hpending hsection, hin]
        rfl
      · unfold Reader.line
        rw [if_neg (by rw [hheader]; decide), hpending, hsection]
        dsimp only
        rw [if_neg (hothers k List.mem_cons_self), ← hin, ← hpending]
    have hbody : s.run k.body = some s := by
      refine run_skip hheader hpending fun line hline => ⟨(sectionName_body hline).1, fun h => ?_⟩
      rw [hin] at h
      cases h
    rw [List.flatMap_cons, run_append, Key.lines, run_cons, hline, Option.bind_some, hbody,
      Option.bind_some]
    exact ih fun k hk => hothers k (List.mem_cons_of_mem _ hk)

end Run

/-! ### The text of an export -/

section Texts

/-- A line without blanks around it. -/
def Trimmed (line : Str) : Prop :=
  (∀ c ∈ line.head?, isSpace c = false) ∧ ∀ c ∈ line.getLast?, isSpace c = false

lemma rdropWhile_blank {ending : Str} (h : Blank ending) (s : Str) :
    (s ++ ending).rdropWhile isSpace = s.rdropWhile isSpace := by
  induction ending using List.reverseRecOn with
  | nil => rw [List.append_nil]
  | append_singleton ending c ih =>
    rw [← List.append_assoc, List.rdropWhile_concat_pos _ _ _ (h c (by simp))]
    exact ih fun d hd => h d (List.mem_append_left _ hd)

lemma regTrim_eq {indent content ending : Str} (hi : Blank indent) (he : Blank ending)
    (h : Trimmed content) :
    regTrim (indent ++ (content ++ ending)) = content := by
  unfold regTrim
  rw [dropWhile_blank hi]
  cases content with
  | nil => rw [List.nil_append, List.dropWhile_eq_nil_iff.mpr he, List.rdropWhile_nil]
  | cons c content =>
    have hc : isSpace c = false := h.1 c rfl
    rw [List.cons_append, List.dropWhile_cons_of_neg (by rw [hc]; decide), ← List.cons_append,
      rdropWhile_blank he]
    refine List.rdropWhile_eq_self_iff.mpr fun hne => ?_
    rw [h.2 _ (List.getLast?_eq_some_getLast hne)]
    decide

lemma regTrim_stripCr (line : Str) : regTrim (stripCr line) = regTrim line := by
  unfold stripCr
  split
  · rename_i hlast
    obtain ⟨init, rfl⟩ := List.getLast?_eq_some_iff.mp hlast
    rw [List.dropLast_concat]
    unfold regTrim
    rw [List.dropWhile_append]
    split
    · rename_i hempty
      rw [List.isEmpty_iff.mp hempty]
      rfl
    · rw [List.rdropWhile_concat_pos _ _ _ (by decide)]
  · rfl

lemma Single.append {s t : Str} (hs : Single s) (ht : Single t) : Single (s ++ t) := by
  simp only [Single, List.mem_append, not_or]
  exact ⟨⟨hs.1, ht.1⟩, hs.2, ht.2⟩

lemma trimmedLines_of_renders {contents : List Str} {text : Str}
    (h : ∀ content ∈ contents, Trimmed content ∧ Single content)
    (hrenders : Renders contents text) : trimmedLines text = contents := by
  obtain ⟨lines, rfl, hlines⟩ := hrenders
  have hsingle : ∀ line ∈ lines, Single line := by
    intro line hline
    obtain ⟨content, hcontent, indent, ending, hsi, hse, -, -, rfl⟩ :=
      exists_right_of_forall₂ hlines hline
    exact hsi.append ((h content hcontent).2.append hse)
  have hfilter : lines.map (List.filter (· ≠ '\x00')) = lines := by
    refine (List.map_congr_left fun line hline => ?_).trans (List.map_id lines)
    refine List.filter_eq_self.mpr fun c hc => decide_eq_true ?_
    rintro rfl
    exact (hsingle line hline).2 hc
  have hmap : ∀ {lines contents : List Str},
      (∀ content ∈ contents, Trimmed content ∧ Single content) →
      List.Forall₂ (fun line content => ∃ indent ending : Str, Single indent ∧ Single ending ∧
        Blank indent ∧ Blank ending ∧ line = indent ++ (content ++ ending)) lines contents →
      (lines.map fun line => regTrim (stripCr line)) = contents := by
    intro lines contents h hlines
    induction hlines with
    | nil => rfl
    | @cons line content lines contents hline _ ih =>
      obtain ⟨indent, ending, -, -, hi, he, rfl⟩ := hline
      rw [List.map_cons, regTrim_stripCr, regTrim_eq hi he (h content List.mem_cons_self).1,
        ih fun c hc => h c (List.mem_cons_of_mem _ hc)]
  unfold trimmedLines
  rw [filter_unlines, hfilter, records_unlines fun line hline => (hsingle line hline).1]
  exact hmap h hlines

lemma trimmed_of_ends {a b : Char} {s : Str} (ha : isSpace a = false) (hb : isSpace b = false) :
    Trimmed (a :: (s ++ [b])) := by
  constructor
  · intro c hc
    obtain rfl := Option.mem_some_iff.mp hc
    exact ha
  · intro c hc
    rw [← List.cons_append, List.getLast?_concat] at hc
    obtain rfl := Option.mem_some_iff.mp hc
    exact hb

lemma trimmed_of_forall {line : Str} (h : ∀ c ∈ line, isSpace c = false) : Trimmed line :=
  ⟨fun c hc => h c (List.mem_of_mem_head? hc), fun c hc => h c (List.mem_of_mem_getLast? hc)⟩

lemma plain_of_digits {line : Str} (h : ∀ c ∈ line, isXdigit c = true ∨ c = ',' ∨ c = '\\') :
    Trimmed line ∧ Single line := by
  have hnot : ∀ c ∈ line, isSpace c = false ∧ c ≠ '\n' ∧ c ≠ '\x00' := by
    intro c hc
    rcases h c hc with hx | rfl | rfl
    · obtain ⟨-, -, -, -, hspace, hmem⟩ := digit_spec hx
      refine ⟨hspace, ?_, ?_⟩
      · rintro rfl
        exact hmem (by decide)
      · rintro rfl
        exact hmem (by decide)
    · decide
    · decide
  exact ⟨trimmed_of_forall fun c hc => (hnot c hc).1, fun hc => (hnot _ hc).2.1 rfl,
    fun hc => (hnot _ hc).2.2 rfl⟩

lemma single_escape {s : Str} (h : Single s) : Single (escape s) := by
  have hmem : ∀ c ∈ escape s, c = '\\' ∨ c ∈ s := by
    intro c hc
    obtain ⟨d, hd, hin⟩ := List.mem_flatMap.mp hc
    split at hin
    · rcases List.mem_pair.mp hin with rfl | rfl
      · exact .inl rfl
      · exact .inr hd
    · rw [List.mem_singleton.mp hin]
      exact .inr hd
  exact ⟨fun hc => (hmem _ hc).elim (by decide) h.1, fun hc => (hmem _ hc).elim (by decide) h.2⟩

lemma trimmed_cons {a : Char} {s : Str} (ha : isSpace a = false)
    (hs : ∀ c ∈ s.getLast?, isSpace c = false) : Trimmed (a :: s) := by
  constructor
  · intro c hc
    obtain rfl := Option.mem_some_iff.mp hc
    exact ha
  · intro c hc
    rw [List.getLast?_cons] at hc
    obtain rfl := Option.mem_some_iff.mp hc
    cases hlast : s.getLast? with
    | none => exact ha
    | some d => exact hs d hlast

/-- What stands behind the equals sign. -/
lemma first_spec (data : Data) :
    Single data.first ∧ ∀ c ∈ data.first.getLast?, isSpace c = false := by
  cases data with
  | bytes tag pieces single quote =>
    have hfirst : (pieceLines pieces).headD [] ∈ pieceLines pieces := by
      have heq := pieceLines_eq pieces
      generalize (pieceLines pieces).headD [] = first at heq ⊢
      rw [heq]
      exact List.mem_cons_self
    obtain ⟨htrimmed, hsingle⟩ := plain_of_digits (mem_pieceLines hfirst)
    refine ⟨single.append (Single.append (s := [':']) (by decide) hsingle), ?_⟩
    show ∀ c ∈ (tag ++ ':' :: (pieceLines pieces).headD []).getLast?, isSpace c = false
    intro c hc
    rw [List.getLast?_append_of_ne_nil _ (List.cons_ne_nil _ _)] at hc
    exact (trimmed_cons (by decide) htrimmed.2).2 c hc
  | text content single =>
    refine ⟨Single.append (s := ['"']) (by decide) ((single_escape single).append (by decide)), ?_⟩
    exact (trimmed_of_ends (s := escape content) (by decide) (by decide)).2

lemma plain_firstLine (v : Value) : Trimmed v.firstLine ∧ Single v.firstLine := by
  obtain ⟨hsingle, hlast⟩ := first_spec v.data
  have hbehind : ∀ c ∈ ('=' :: v.data.first).getLast?, isSpace c = false :=
    (trimmed_cons (by decide) hlast).2
  have hsingle' : Single ('=' :: v.data.first) := Single.append (s := ['=']) (by decide) hsingle
  unfold Value.firstLine Value.nameText
  cases hname : v.name with
  | none =>
    exact ⟨trimmed_cons (by decide) hbehind, Single.append (s := ['@']) (by decide) hsingle'⟩
  | some name =>
    refine ⟨trimmed_cons (by decide) ?_,
      (Single.append (s := ['"']) (by decide) ?_).append hsingle'⟩
    · intro c hc
      rw [List.append_eq, List.getLast?_append_of_ne_nil _ (List.cons_ne_nil _ _)] at hc
      exact hbehind c hc
    · exact (single_escape (v.single name hname)).append (by decide)

lemma plain_key {k : Key} {line : Str} (h : line ∈ k.lines) : Trimmed line ∧ Single line := by
  rcases List.mem_cons.mp h with rfl | h
  · exact ⟨trimmed_of_ends (by decide) (by decide),
      Single.append (s := ['[']) (by decide) (k.single.append (by decide))⟩
  · obtain ⟨item, -, hline⟩ := List.mem_flatMap.mp h
    cases item with
    | none =>
      rw [List.mem_singleton.mp hline]
      exact plain_of_digits fun c hc => absurd hc List.not_mem_nil
    | some v =>
      rcases List.mem_cons.mp hline with rfl | hline
      · exact plain_firstLine v
      · exact plain_of_digits (mem_more hline)

lemma plain_header {header : Str} (h : lower header ∈ headers) :
    Trimmed header ∧ Single header := by
  have hall : ∀ x ∈ headers, (∀ c ∈ x.head?, isSpace c = false) ∧
      (∀ c ∈ x.getLast?, isSpace c = false) ∧ Single x := by
    simp only [headers, List.mem_cons, List.not_mem_nil, or_false, forall_eq_or_imp, forall_eq]
    refine ⟨⟨fun c hc => ?_, fun c hc => ?_, by decide +kernel⟩, fun c hc => ?_, fun c hc => ?_,
      by decide +kernel⟩
    all_goals
      obtain rfl := Option.mem_some_iff.mp hc
      decide
  obtain ⟨hhead, hlast, hsingle⟩ := hall _ h
  unfold lower at hhead hlast hsingle
  refine ⟨⟨fun c hc => ?_, fun c hc => ?_⟩, fun hc => ?_, fun hc => ?_⟩
  · rw [← isSpace_toLower]
    refine hhead _ ?_
    rw [List.head?_map, Option.mem_def.mp hc]
    rfl
  · rw [← isSpace_toLower]
    refine hlast _ ?_
    rw [List.getLast?_map, Option.mem_def.mp hc]
    rfl
  · exact hsingle.1 (List.mem_map.mpr ⟨_, hc, by decide⟩)
  · exact hsingle.2 (List.mem_map.mpr ⟨_, hc, by decide⟩)

lemma plain_contents (e : Export) : ∀ content ∈ e.contents, Trimmed content ∧ Single content := by
  have hblank : ∀ {n : ℕ} {content : Str}, content ∈ List.replicate n [] → Trimmed content ∧
      Single content := by
    intro n content h
    rw [(List.mem_replicate.mp h).2]
    exact plain_of_digits fun c hc => absurd hc List.not_mem_nil
  have hkeys : ∀ {keys : List Key} {content : Str}, content ∈ keys.flatMap Key.lines →
      Trimmed content ∧ Single content := by
    intro keys content h
    obtain ⟨k, -, hk⟩ := List.mem_flatMap.mp h
    exact plain_key hk
  intro content h
  unfold Export.contents at h
  simp only [List.mem_append, List.mem_cons] at h
  rcases h with h | rfl | h | h | h | h
  · exact hblank h
  · exact plain_header e.header_mem
  · exact hblank h
  · exact hkeys h
  · exact plain_key h
  · exact hkeys h

end Texts

end Pxeos.Display
