import Pxeos.Linux.HostsExact
import Pxeos.Linux.Transaction

/-!
# Which token the rendering leaves

Edited lines, the line behind them, and what a second rendering finds.
-/

namespace Pxeos.Linux

open Pxeos.Lib

/-! ### The names -/

/-- What `rootpxe_lh_old_hostname` prints. -/
structure OldName where
  text : Str
  valid : text = [] ∨ oldHostnameChars text = true

/-- A hostname of the task. -/
structure HostName where
  text : Str
  valid : validateLinuxHostname text = true

/-! ### What may change -/

/-- Pieces of a line of which tokens with the old name may have become the new one, the first token
apart. -/
inductive Replaced (old name : Str) : Bool → List Piece → List Piece → Prop
  | nil {first : Bool} : Replaced old name first [] []
  | blank {first : Bool} {c : Char} {ps qs : List Piece} (h : Replaced old name first ps qs) :
      Replaced old name first (.blank c :: ps) (.blank c :: qs)
  | same {first : Bool} {w : Str} {ps qs : List Piece} (h : Replaced old name false ps qs) :
      Replaced old name first (.token w :: ps) (.token w :: qs)
  | renamed {ps qs : List Piece} (h : Replaced old name false ps qs) :
      Replaced old name false (.token old :: ps) (.token name :: qs)

/-- The tokens in front of the comment. -/
def lineTokens (line : Str) : List Str := tokensOf (pieces (hostsPrefix line))

/-- A line of the loopback network. -/
def isLoopbackLine (line : Str) : Bool := isLoopback ((lineTokens line).headD [])

/-- The line is the same, or one of the loopback network with other names behind the first
column. -/
structure LineEdited (old name line line' : Str) : Prop where
  comment : hostsComment line' = hostsComment line
  replaced : Replaced old name true (pieces (hostsPrefix line)) (pieces (hostsPrefix line'))
  loopback : line' = line ∨ isLoopbackLine line = true

/-- Lines with the end that the file had. -/
def rejoin (trailing : Bool) (lines : List Str) : Str :=
  List.intercalate ['\n'] lines ++ if trailing then ['\n'] else []

/-- The line `127.0.1.1 name`, behind a newline if the last line has none. -/
def appended (name content : Str) : Str :=
  (if content ≠ [] ∧ trailingNewline content = false then ['\n'] else []) ++
    ("127.0.1.1 ".toList ++ name ++ ['\n'])

/-- What the rendering promises of its output. -/
structure Rendered (old name : Str) (content : Str) : Prop where
  edited : ∃ lines, List.Forall₂ (LineEdited old name) (records content) lines ∧
    (renderHosts old name (some content) = rejoin (trailingNewline content) lines ∨
      renderHosts old name (some content) = rejoin (trailingNewline content) lines ++
        appended name content)
  named : ∃ line ∈ records (renderHosts old name (some content)), isLoopbackLine line = true ∧
    name ∈ (lineTokens line).tail
  again : renderHosts name name (some (renderHosts old name (some content))) =
    renderHosts old name (some content)

/-- The rendering takes a number for the name: a later token of a line of the loopback network is
the same number as the name, and no such line has the name itself or, without such a number, the old
name. -/
def Mistaken (old name content : Str) : Prop :=
  (∃ line ∈ records content, isLoopbackLine line = true ∧ ∃ w ∈ (lineTokens line).tail,
    awkEqual w name = true) ∧
    ∀ line ∈ records content, isLoopbackLine line = true →
      name ∉ (lineTokens line).tail ∧
        ((∃ w ∈ (lineTokens line).tail, awkEqual w name = true) ∨ ∀ w ∈ (lineTokens line).tail,
          w = old → isLocalhost w = true)

/-! ### The letters of names -/

lemma HostName.char (name : HostName) {c : Char} (hc : c ∈ name.text) :
    c.isAlphanum = true ∨ c = '-' := by
  have h := name.valid
  simp only [validateLinuxHostname, Bool.and_eq_true, List.all_eq_true] at h
  simpa using h.1.1.2 c hc

lemma HostName.notMem (name : HostName) {c : Char} (h : c.isAlphanum = false) (hc : c ≠ '-') :
    c ∉ name.text := by
  intro hmem
  rcases name.char hmem with h' | h'
  · rw [h] at h'
    cases h'
  · exact hc h'

lemma HostName.ne_nil (name : HostName) : name.text ≠ [] := by
  intro h
  have hvalid := name.valid
  rw [h] at hvalid
  cases hvalid

lemma HostName.noBlank (name : HostName) : ∀ c ∈ name.text, isSpace c = false := by
  intro c hc
  rcases name.char hc with h | rfl
  · exact isSpace_of_isAlphanum h
  · decide

lemma HostName.unescape (name : HostName) : unescape name.text = name.text :=
  unescape_of_notMem (name.notMem (by decide) (by decide))

lemma OldName.unescape (old : OldName) : unescape old.text = old.text := by
  refine unescape_of_notMem fun hmem => ?_
  rcases old.valid with h | h
  · rw [h] at hmem
    cases hmem
  · simp only [oldHostnameChars, Bool.and_eq_true, List.all_eq_true] at h
    exact absurd (h.2 _ hmem) (by decide)

/-! ### Records and lines -/

lemma rejoin_true {lines : List Str} (h : lines ≠ []) : rejoin true lines = unlines lines := by
  unfold rejoin unlines
  rw [if_pos rfl]
  exact intercalate_fenced h

lemma notMem_of_mem_records {s l : Str} (h : l ∈ records s) : '\n' ∉ l := by
  have hmem : l ∈ s.splitOn '\n' := by
    unfold records at h
    split at h
    · rename_i rest heq
      rw [← List.mem_reverse, heq]
      exact List.mem_cons_of_mem _ (List.mem_reverse.mp h)
    · rwa [List.reverse_reverse] at h
  exact fun hc => absurd (not_of_mem_splitOnP hmem _ hc) (by decide)

/-- The lines are read back, if the last one is not lost. -/
lemma records_rejoin {trailing : Bool} {lines : List Str} (hnl : ∀ l ∈ lines, '\n' ∉ l)
    (hlast : trailing = false → lines.getLast? ≠ some []) (hne : trailing = true → lines ≠ []) :
    records (rejoin trailing lines) = lines := by
  cases trailing with
  | true => rw [rejoin_true (hne rfl), records_unlines hnl]
  | false =>
    unfold rejoin
    rw [if_neg Bool.false_ne_true, List.append_nil]
    rcases List.eq_nil_or_concat' lines with rfl | ⟨init, l, rfl⟩
    · rfl
    · have hl : l ≠ [] := by
        intro h
        exact hlast rfl (by rw [h]; simp)
      exact records_concat (List.splitOn_intercalate _ hnl (by simp)) hl

/-- The end of a file. -/
inductive FileEnd (content : Str) : Prop
  | empty (h : content = [])
  | newline (lines : List Str) (hne : lines ≠ []) (hrecords : records content = lines)
      (h : content = unlines lines)
  | none (init : List Str) (l : Str) (hne : l ≠ []) (hrecords : records content = init ++ [l])
      (h : content = List.intercalate ['\n'] (init ++ [l]))

lemma intercalate_concat {sep l : Str} {init : List Str} (h : init ≠ []) :
    List.intercalate sep (init ++ [l]) = List.intercalate sep init ++ (sep ++ l) := by
  induction init with
  | nil => exact absurd rfl h
  | cons w ws ih =>
    cases ws with
    | nil => simp
    | cons v ws =>
      rw [List.cons_append, List.cons_append, List.intercalate_cons_cons, ← List.cons_append,
        ih (List.cons_ne_nil v ws),
        List.intercalate_cons_cons]
      simp

lemma fileEnd (content : Str) : FileEnd content := by
  have hcontent : ['\n'].intercalate (content.splitOn '\n') = content :=
    List.intercalate_splitOn '\n'
  rcases List.eq_nil_or_concat' (content.splitOn '\n') with hnil | ⟨init, l, hsplit⟩
  · exact absurd hnil (by simp)
  rw [hsplit] at hcontent
  by_cases hl : l = []
  · rw [hl] at hsplit hcontent
    have hrecords : records content = init := by
      unfold records
      rw [hsplit, List.reverse_append]
      exact List.reverse_reverse init
    by_cases hinit : init = []
    · refine .empty ?_
      rw [← hcontent, hinit]
      rfl
    · refine .newline init hinit hrecords ?_
      rw [← hcontent, intercalate_concat hinit, List.append_nil]
      exact intercalate_fenced hinit
  · exact .none init l hl (records_concat hsplit hl) hcontent.symm

lemma trailingNewline_unlines {lines : List Str} (h : lines ≠ []) :
    trailingNewline (unlines lines) = true := by
  obtain ⟨init, l, rfl⟩ := (List.eq_nil_or_concat' lines).resolve_left h
  rw [unlines_concat, ← List.append_assoc]
  simp [trailingNewline]

lemma trailingNewline_intercalate {init : List Str} {l : Str} (hne : l ≠ []) (hl : '\n' ∉ l) :
    trailingNewline (List.intercalate ['\n'] (init ++ [l])) = false := by
  have hlast : (List.intercalate ['\n'] (init ++ [l])).getLast? = l.getLast? := by
    by_cases hinit : init = []
    · rw [hinit]
      simp
    · rw [intercalate_concat hinit, List.getLast?_append, List.getLast?_append]
      cases h : l.getLast? with
      | none => exact absurd (List.getLast?_eq_none_iff.mp h) hne
      | some c => rfl
  unfold trailingNewline
  rw [hlast, beq_eq_false_iff_ne]
  exact fun h => hl (List.mem_of_getLast? h)

/-- A file is its records and their end. -/
lemma rejoin_records (content : Str) :
    rejoin (trailingNewline content) (records content) = content := by
  cases fileEnd content with
  | empty h => rw [h]; rfl
  | newline lines hne hrecords h =>
    rw [hrecords, h, trailingNewline_unlines hne, rejoin_true hne]
  | none init l hne hrecords h =>
    have hl : '\n' ∉ l := notMem_of_mem_records (s := content) (by rw [hrecords]; simp)
    rw [hrecords]
    conv_lhs => rw [h]
    rw [trailingNewline_intercalate hne hl, h]
    exact List.append_nil _

/-! ### The tokens that are printed -/

section Tokens

variable {old name : Str} {self already : Bool}

lemma newToken_ne {w : Str} (h : newToken old name self already w ≠ w) : w = old ∧ self = true := by
  unfold newToken at h
  split at h
  · rename_i hrep
    simp only [replaceable, Bool.and_eq_true, beq_iff_eq] at hrep
    exact ⟨hrep.1.2, hrep.1.1.1.1⟩
  · exact absurd rfl h

lemma newToken_self (w : Str) : newToken name name self already w = w := by
  by_contra h
  obtain ⟨rfl, -⟩ := newToken_ne h
  apply h
  unfold newToken
  split <;> rfl

lemma newToken_eq_or (w : Str) :
    newToken old name self already w = w ∨ newToken old name self already w = name := by
  unfold newToken
  split
  · exact .inr rfl
  · exact .inl rfl

/-- Nothing is printed but the pieces, if no token is replaced. -/
lemma editPieces_eq_self (h : ∀ w, newToken old name self already w = w) (first : Bool)
    (ps : List Piece) :
    editPieces old name self already first ps = ps := by
  induction ps generalizing first with
  | nil => rfl
  | cons p ps ih =>
    cases p with
    | blank c => rw [editPieces, ih]
    | token w =>
      rw [editPieces, ih, h w]
      split <;> rfl

lemma replaced_edit (first : Bool) (ps : List Piece) :
    Replaced old name first ps (editPieces old name self already first ps) := by
  induction ps generalizing first with
  | nil => exact .nil
  | cons p ps ih =>
    cases p with
    | blank c => exact .blank (ih first)
    | token w =>
      unfold editPieces
      cases first with
      | true => exact .same (ih false)
      | false =>
        rw [if_neg Bool.false_ne_true]
        rcases @newToken_eq_or old name self already w with h | h
        · rw [h]
          exact .same (ih false)
        · by_cases hw : newToken old name self already w = w
          · rw [hw]
            exact .same (ih false)
          · obtain ⟨rfl, -⟩ := newToken_ne hw
            rw [h]
            exact .renamed (ih false)

lemma tokensOf_edit_false (ps : List Piece) :
    tokensOf (editPieces old name self already false ps) =
      (tokensOf ps).map (newToken old name self already) := by
  induction ps with
  | nil => rfl
  | cons p ps ih =>
    cases p with
    | blank c => exact ih
    | token w =>
      show newToken old name self already w :: tokensOf
        (editPieces old name self already false ps) = _
      rw [ih]
      rfl

/-- The first column is printed as it is, the others are changed one by one. -/
lemma tokensOf_edit (ps : List Piece) :
    (tokensOf (editPieces old name self already true ps)).headD [] = (tokensOf ps).headD [] ∧
      (tokensOf (editPieces old name self already true ps)).tail =
        (tokensOf ps).tail.map (newToken old name self already) := by
  induction ps with
  | nil => exact ⟨rfl, rfl⟩
  | cons p ps ih =>
    cases p with
    | blank c => exact ih
    | token w => exact ⟨rfl, tokensOf_edit_false ps⟩

lemma anyMarks_false (ps : List Piece) :
    anyMarks old name self already false ps = (tokensOf ps).any (marks old name self already) := by
  induction ps with
  | nil => rfl
  | cons p ps ih =>
    cases p with
    | blank c => exact ih
    | token w =>
      show (marks old name self already w || anyMarks old name self already false ps) = _
      rw [ih]
      rfl

lemma anyMarks_true (ps : List Piece) :
    anyMarks old name self already true ps =
      (tokensOf ps).tail.any (marks old name self already) := by
  induction ps with
  | nil => rfl
  | cons p ps ih =>
    cases p with
    | blank c => exact ih
    | token w => exact anyMarks_false ps

/-- The pieces stay separate. -/
lemma separate_edit (hne : name ≠ []) (hname : ∀ c ∈ name, isSpace c = false) (first : Bool)
    {ps : List Piece} (h : Separate ps) :
    Separate (editPieces old name self already first ps) := by
  have hnew : ∀ (first : Bool) (w : Str), w ≠ [] → (∀ c ∈ w, isSpace c = false) →
      (if first then w else newToken old name self already w) ≠ [] ∧
        ∀ c ∈ (if first then w else newToken old name self already w), isSpace c = false := by
    intro first w hw hblank
    rcases @newToken_eq_or old name self already w with h | h
    · rw [h, ite_self]
      exact ⟨hw, hblank⟩
    · rw [h]
      split
      · exact ⟨hw, hblank⟩
      · exact ⟨hne, hname⟩
  induction h generalizing first with
  | nil => exact .nil
  | blank hc _ ih => exact .blank hc (ih first)
  | last hw hblank => exact .last (hnew first _ hw hblank).1 (hnew first _ hw hblank).2
  | token hw hblank _ ih =>
    exact .token (hnew first _ hw hblank).1 (hnew first _ hw hblank).2 (ih false)

lemma mem_edit {c : Char} {first : Bool} {ps : List Piece}
    (h : c ∈ piecesText (editPieces old name self already first ps)) :
    c ∈ piecesText ps ∨ c ∈ name := by
  induction ps generalizing first with
  | nil => exact .inl h
  | cons p ps ih =>
    cases p with
    | blank d =>
      rcases List.mem_cons.mp
        (show c ∈ d :: piecesText
          (editPieces old name self already first ps) from h) with hd | hrest
      · exact .inl (List.mem_cons.mpr (.inl hd))
      · exact (ih hrest).imp_left (List.mem_cons_of_mem d)
    | token w =>
      rcases List.mem_append.mp (show c ∈ (if first then w else newToken old name self already w) ++
          piecesText (editPieces old name self already false ps) from h) with hw | hrest
      · rcases @newToken_eq_or old name self already w with heq | heq
        · rw [heq, ite_self] at hw
          exact .inl (List.mem_append.mpr (.inl hw))
        · rw [heq] at hw
          split at hw
          · exact .inl (List.mem_append.mpr (.inl hw))
          · exact .inr hw
      · exact (ih hrest).imp_left (List.mem_append_right w)

end Tokens

/-! ### One line -/

/-- `already`, at the end of its loop. -/
def alreadyOn (name line : Str) : Bool :=
  isLoopbackLine line && (lineTokens line).tail.any (awkEqual · name)

def editLine (old name line : Str) : List Piece :=
  editPieces old name (isLoopbackLine line) (alreadyOn name line) true (pieces (hostsPrefix line))

/-- The line that is printed. -/
def newLine (old name line : Str) : Str := piecesText (editLine old name line) ++ hostsComment line

/-- Whether a line sets `found`. -/
def foundOn (old name line : Str) : Bool :=
  alreadyOn name line ||
    (lineTokens line).tail.any (marks old name (isLoopbackLine line) (alreadyOn name line))

section Line

variable {old name : Str} (hne : name ≠ [])

include hne

lemma renderLine_eq (found : Bool) (line : Str) :
    renderLine old name found line = (newLine old name line, found || foundOn old name line) := by
  have hself : isLoopback ((hostsFields (hostsPrefix line)).headD []) = isLoopbackLine line := by
    rw [headD_hostsFields]
    rfl
  have halready : (hostsFields (hostsPrefix line)).tail.any (awkEqual · name) =
      (lineTokens line).tail.any (awkEqual · name) :=
    any_hostsFields (p := (awkEqual · name)) (awkEqual_nil hne) _
  unfold renderLine
  dsimp only
  rw [hself, halready]
  obtain ⟨hout, hfound⟩ :=
    renderPrefix_eq old name (isLoopbackLine line) (alreadyOn name line)
      (found || alreadyOn name line)
    (hostsPrefix line)
  refine Prod.ext (congrArg (· ++ hostsComment line) hout) (hfound.trans ?_)
  rw [anyMarks_true, Bool.or_assoc]
  rfl

lemma renderLines_eq (lines : List Str) :
    renderLines old name lines = (lines.map (newLine old name), lines.any (foundOn old name)) := by
  have hfold : ∀ {step : List Str × Bool → Str → List Str × Bool},
      (∀ out found line, step (out, found) line = (out ++ [newLine old name line], found ||
        foundOn old name line)) →
        ∀ out found, lines.foldl step (out, found) =
          (out ++ lines.map (newLine old name), found || lines.any (foundOn old name)) := by
    intro step hstep
    induction lines with
    | nil => simp
    | cons line lines ih =>
      intro out found
      rw [List.foldl_cons, hstep, ih]
      simp [Bool.or_assoc]
  refine (hfold (fun out found line => ?_) [] false).trans (by simp)
  dsimp only
  rw [renderLine_eq hne]

end Line

section NewLine

variable (old : Str) (name : HostName) (line : Str)

lemma hash_notMem_edit : '#' ∉ piecesText (editLine old name.text line) := by
  intro h
  rcases mem_edit h with h | h
  · rw [piecesText_pieces] at h
    simpa using List.mem_takeWhile_imp h
  · exact name.notMem (by decide) (by decide) h

lemma comment_cases : hostsComment line = [] ∨ ∃ rest, hostsComment line = '#' :: rest := by
  unfold hostsComment
  cases h : line.dropWhile (· ≠ '#') with
  | nil => exact .inl rfl
  | cons c rest =>
    have := List.head_dropWhile_not (p := (decide <| · ≠ '#')) (l := line) (by rw [h]; simp)
    refine .inr ⟨rest, ?_⟩
    simp only [h, List.head_cons] at this
    simpa using this

lemma hostsPrefix_newLine :
    hostsPrefix (newLine old name.text line) = piecesText (editLine old name.text line) := by
  have hall : ∀ c ∈ piecesText (editLine old name.text line), decide (c ≠ '#') = true := by
    intro c hc
    refine decide_eq_true ?_
    rintro rfl
    exact hash_notMem_edit old name line hc
  unfold hostsPrefix newLine
  rw [List.takeWhile_append_of_pos hall]
  rcases comment_cases line with h | ⟨rest, h⟩ <;> rw [h] <;> simp

lemma hostsComment_newLine : hostsComment (newLine old name.text line) = hostsComment line := by
  have hall : ∀ c ∈ piecesText (editLine old name.text line), decide (c ≠ '#') = true := by
    intro c hc
    refine decide_eq_true ?_
    rintro rfl
    exact hash_notMem_edit old name line hc
  show List.dropWhile (· ≠ '#') (piecesText (editLine old name.text line) ++ hostsComment line) = _
  rw [List.dropWhile_append_of_pos hall]
  rcases comment_cases line with h | ⟨rest, h⟩ <;> rw [h] <;> simp

lemma pieces_newLine :
    pieces (hostsPrefix (newLine old name.text line)) = editLine old name.text line := by
  rw [hostsPrefix_newLine]
  exact pieces_piecesText (separate_edit name.ne_nil name.noBlank true (separate_pieces _))

lemma isLoopbackLine_newLine :
    isLoopbackLine (newLine old name.text line) = isLoopbackLine line := by
  unfold isLoopbackLine lineTokens
  rw [pieces_newLine]
  exact congrArg isLoopback (tokensOf_edit _).1

lemma tail_newLine : (lineTokens (newLine old name.text line)).tail =
    (lineTokens line).tail.map
      (newToken old name.text (isLoopbackLine line) (alreadyOn name.text line)) := by
  unfold lineTokens
  rw [pieces_newLine]
  exact (tokensOf_edit _).2

lemma newLine_eq_self
    (h : ∀ w, newToken old name.text (isLoopbackLine line) (alreadyOn name.text line) w = w) :
    newLine old name.text line = line := by
  unfold newLine editLine
  rw [editPieces_eq_self h, piecesText_pieces]
  exact List.takeWhile_append_dropWhile

lemma newLine_self : newLine name.text name.text line = line :=
  newLine_eq_self name.text name line newToken_self

lemma lineEdited_newLine : LineEdited old name.text line (newLine old name.text line) := by
  refine ⟨hostsComment_newLine old name line, ?_, ?_⟩
  · rw [pieces_newLine]
    exact replaced_edit true _
  · by_cases hself : isLoopbackLine line = true
    · exact .inr hself
    · refine .inl (newLine_eq_self old name line fun w => ?_)
      by_contra h
      exact hself (newToken_ne h).2

lemma newline_notMem_newLine (h : '\n' ∉ line) : '\n' ∉ newLine old name.text line := by
  intro hmem
  rcases List.mem_append.mp hmem with hmem | hmem
  · rcases mem_edit hmem with hmem | hmem
    · rw [piecesText_pieces] at hmem
      exact h ((List.takeWhile_sublist _).subset hmem)
    · exact name.notMem (by decide) (by decide) hmem
  · exact h ((List.dropWhile_sublist _).subset hmem)

lemma newLine_ne_nil (h : line ≠ []) : newLine old name.text line ≠ [] := by
  intro hnil
  have hpieces : editLine old name.text line = [] := by
    rw [← pieces_newLine, hnil]
    rfl
  obtain ⟨-, hcomment⟩ := List.append_eq_nil_iff.mp hnil
  have hempty : pieces (hostsPrefix line) = [] := by
    revert hpieces
    unfold editLine
    cases pieces (hostsPrefix line) with
    | nil => exact fun _ => rfl
    | cons p ps => cases p <;> exact fun h => absurd h (List.cons_ne_nil _ _)
  have hbegin := piecesText_pieces (hostsPrefix line)
  rw [hempty] at hbegin
  have hline : hostsPrefix line ++ hostsComment line = line := List.takeWhile_append_dropWhile
  rw [← hbegin, hcomment] at hline
  exact h hline.symm

/-! ### When a line has the name -/

lemma replaceable_iff {self already : Bool} {w : Str} : replaceable old self already w = true ↔
    self = true ∧ already = false ∧ old ≠ [] ∧ w = old ∧ isLocalhost w = false := by
  simp only [replaceable, Bool.and_eq_true, Bool.not_eq_true', bne_iff_ne, beq_iff_eq, and_assoc]

/-- The printed line has the name if and only if it had it or a token has been replaced. -/
lemma name_mem_newLine : name.text ∈ (lineTokens (newLine old name.text line)).tail ↔
    name.text ∈ (lineTokens line).tail ∨
      ∃ w ∈ (lineTokens line).tail,
        replaceable old (isLoopbackLine line) (alreadyOn name.text line) w = true := by
  rw [tail_newLine, List.mem_map]
  constructor
  · rintro ⟨w, hw, hname⟩
    unfold newToken at hname
    split at hname
    · exact .inr ⟨w, hw, ‹_›⟩
    · exact .inl (hname ▸ hw)
  · rintro (hmem | ⟨w, hw, hrep⟩)
    · refine ⟨name.text, hmem, ?_⟩
      unfold newToken
      exact ite_self _
    · exact ⟨w, hw, if_pos hrep⟩

/-- A line that sets `found` has the name or a token that is taken for it. -/
lemma foundOn_iff : foundOn old name.text line = true ↔
    isLoopbackLine line = true ∧
      (alreadyOn name.text line = true ∨
        name.text ∈ (lineTokens (newLine old name.text line)).tail) := by
  have hself : alreadyOn name.text line = true → isLoopbackLine line = true :=
    fun h => (Bool.and_eq_true_iff.mp h).1
  rw [name_mem_newLine]
  unfold foundOn
  rw [Bool.or_eq_true, List.any_eq_true]
  simp only [marks, Bool.or_eq_true, Bool.and_eq_true, beq_iff_eq]
  constructor
  · rintro (h | ⟨w, hw, ⟨hs, rfl⟩ | hrep⟩)
    · exact ⟨hself h, .inl h⟩
    · exact ⟨hs, .inr (.inl hw)⟩
    · exact ⟨((replaceable_iff old).mp hrep).1, .inr (.inr ⟨w, hw, hrep⟩)⟩
  · rintro ⟨hs, h | h | ⟨w, hw, hrep⟩⟩
    · exact .inl h
    · exact .inr ⟨_, h, .inl ⟨hs, rfl⟩⟩
    · exact .inr ⟨w, hw, .inr hrep⟩

/-- A second rendering finds the name where the first one did. -/
lemma foundOn_newLine (h : foundOn old name.text line = true) :
    foundOn name.text name.text (newLine old name.text line) = true := by
  obtain ⟨hself, h⟩ := (foundOn_iff old name line).mp h
  refine (foundOn_iff name.text name _).mpr ⟨(isLoopbackLine_newLine old name line).trans hself, ?_⟩
  rcases h with h | h
  · -- nothing is replaced on such a line
    left
    have hsame : newLine old name.text line = line := by
      refine newLine_eq_self old name line fun w => ?_
      unfold newToken
      refine if_neg fun hrep => ?_
      rw [((replaceable_iff old).mp hrep).2.1] at h
      cases h
    rwa [hsame]
  · right
    rwa [newLine_self]

end NewLine

section Appended

variable (name : HostName)

lemma lineTokens_appended :
    lineTokens ("127.0.1.1 ".toList ++ name.text) = ["127.0.1.1".toList, name.text] := by
  have hhash : ∀ c ∈ "127.0.1.1 ".toList ++ name.text, decide (c ≠ '#') = true := by
    intro c hc
    refine decide_eq_true ?_
    rintro rfl
    rcases List.mem_append.mp hc with hc | hc
    · revert hc
      decide
    · exact name.notMem (by decide) (by decide) hc
  have hsep : Separate [.token "127.0.1.1".toList, .blank ' ', .token name.text] := by
    refine .token (by decide) ?_ (.blank (by decide) (.last name.ne_nil name.noBlank))
    exact forall_mem_of_all (by decide)
  have htext : piecesText [.token "127.0.1.1".toList, .blank ' ', .token name.text] =
      "127.0.1.1 ".toList ++ name.text := by
    simp [piecesText, Piece.text]
  unfold lineTokens hostsPrefix
  rw [List.takeWhile_eq_self_iff.mpr hhash, ← htext, pieces_piecesText hsep]
  rfl

lemma isLoopbackLine_appended : isLoopbackLine ("127.0.1.1 ".toList ++ name.text) = true := by
  unfold isLoopbackLine
  rw [lineTokens_appended]
  show isLoopback "127.0.1.1".toList = true
  decide +kernel

lemma foundOn_appended : foundOn name.text name.text ("127.0.1.1 ".toList ++ name.text) = true := by
  refine (foundOn_iff name.text name _).mpr ⟨isLoopbackLine_appended name, .inr ?_⟩
  rw [newLine_self, lineTokens_appended]
  exact List.mem_singleton_self _

end Appended

/-! ### The file -/

section Content

variable (old : OldName) (name : HostName) (content : Str)

/-- The lines that are printed. -/
def newLines (old name content : Str) : List Str := (records content).map (newLine old name)

def foundIn (old name content : Str) : Bool := (records content).any (foundOn old name)

lemma records_eq_nil : records content = [] ↔ content = [] := by
  cases fileEnd content with
  | empty h =>
    rw [h]
    exact iff_of_true rfl rfl
  | newline lines hne hrecords h =>
    refine iff_of_false (by rwa [hrecords]) ?_
    rintro rfl
    exact hne hrecords.symm
  | none init l hne hrecords h =>
    refine iff_of_false (by simp [hrecords]) ?_
    rintro rfl
    exact absurd hrecords.symm (by simp [records])

lemma renderHosts_eq : renderHosts old.text name.text (some content) =
    rejoin (trailingNewline content) (newLines old.text name.text content) ++
      if foundIn old.text name.text content = true then [] else appended name.text content := by
  unfold renderHosts
  dsimp only
  rw [old.unescape, name.unescape, renderLines_eq name.ne_nil]
  simp only [ne_eq, records_eq_nil, List.append_assoc, rejoin, newLines, foundIn, appended]

lemma newline_notMem_newLines : ∀ l ∈ newLines old.text name.text content, '\n' ∉ l := by
  intro l hl
  obtain ⟨line, hline, rfl⟩ := List.mem_map.mp hl
  exact newline_notMem_newLine old.text name line (notMem_of_mem_records hline)

/-- The end of the file is the one that it had. -/
lemma records_rejoin_newLines :
    records (rejoin (trailingNewline content) (newLines old.text name.text content)) =
    newLines old.text name.text content := by
  refine records_rejoin (newline_notMem_newLines old name content) ?_ ?_
  · intro htrailing
    unfold newLines
    cases fileEnd content with
    | empty h =>
      rw [h]
      simp [records]
    | newline lines hne hrecords h =>
      rw [h, trailingNewline_unlines hne] at htrailing
      cases htrailing
    | none init l hne hrecords h =>
      rw [hrecords, List.map_append, List.map_singleton, List.getLast?_concat]
      exact fun h => newLine_ne_nil old.text name l hne (Option.some.inj h)
  · intro htrailing hnil
    rw [newLines, List.map_eq_nil_iff, records_eq_nil] at hnil
    rw [hnil] at htrailing
    cases htrailing

/-- What is printed if no line has been found: the lines and one more. -/
lemma rejoin_appended :
    rejoin (trailingNewline content) (newLines old.text name.text content) ++
      appended name.text content =
    unlines (newLines old.text name.text content ++ ["127.0.1.1 ".toList ++ name.text]) := by
  rw [unlines_concat]
  cases fileEnd content with
  | empty h =>
    rw [h]
    rfl
  | newline lines hne hrecords h =>
    have htrailing : trailingNewline content = true := by rw [h, trailingNewline_unlines hne]
    have hlines : newLines old.text name.text content ≠ [] := by
      unfold newLines
      rwa [hrecords, ne_eq, List.map_eq_nil_iff]
    unfold appended
    rw [htrailing, rejoin_true hlines, if_neg (by simp)]
    rfl
  | none init l hne hrecords h =>
    have hl : '\n' ∉ l := notMem_of_mem_records (s := content) (by rw [hrecords]; simp)
    have htrailing : trailingNewline content = false := by
      rw [h, trailingNewline_intercalate hne hl]
    have hlines : newLines old.text name.text content ≠ [] := by
      unfold newLines
      rw [hrecords]
      simp
    have hcontent : content ≠ [] := by
      intro hnil
      rw [(records_eq_nil content).mpr hnil] at hrecords
      simp at hrecords
    unfold appended
    rw [if_pos ⟨hcontent, htrailing⟩, htrailing, ← rejoin_true hlines]
    simp [rejoin, List.append_assoc]

lemma records_output :
    records (renderHosts old.text name.text (some content)) = newLines old.text name.text content ++
    if foundIn old.text name.text content = true then []
    else ["127.0.1.1 ".toList ++ name.text] := by
  rw [renderHosts_eq]
  split
  · rw [List.append_nil, List.append_nil, records_rejoin_newLines]
  · rw [rejoin_appended]
    refine records_unlines fun l hl => ?_
    rcases List.mem_append.mp hl with hl | hl
    · exact newline_notMem_newLines old name content l hl
    · rw [List.mem_singleton.mp hl]
      intro h
      rcases List.mem_append.mp h with h | h
      · revert h
        decide
      · exact name.notMem (by decide) (by decide) h

/-- A rendering with the new name as the old one changes no line. -/
lemma renderHosts_self (hfound : foundIn name.text name.text content = true) :
    renderHosts name.text name.text (some content) = content := by
  have hold : name.text = [] ∨ oldHostnameChars name.text = true := by
    have h := name.valid
    simp only [validateLinuxHostname, Bool.and_eq_true, List.all_eq_true] at h
    refine .inr (Bool.and_eq_true_iff.mpr ⟨h.1.2, List.all_eq_true.mpr fun c hc => ?_⟩)
    rcases name.char hc with hc | rfl
    · simp [hc]
    · decide
  have hlines : newLines name.text name.text content = records content := by
    unfold newLines
    rw [List.map_congr_left fun line _ => newLine_self name line, List.map_id']
  have heq := renderHosts_eq ⟨name.text, hold⟩ name content
  rwa [hlines, rejoin_records, if_pos hfound, List.append_nil] at heq

/-- The first rendering leaves something that the second one finds. -/
lemma foundIn_output :
    foundIn name.text name.text (renderHosts old.text name.text (some content)) = true := by
  unfold foundIn
  rw [records_output, List.any_append, Bool.or_eq_true]
  by_cases hfound : foundIn old.text name.text content = true
  · obtain ⟨line, hline, h⟩ := List.any_eq_true.mp hfound
    exact .inl
      (List.any_eq_true.mpr ⟨_, List.mem_map_of_mem hline, foundOn_newLine old.text name line h⟩)
  · rw [if_neg hfound]
    refine .inr (List.any_eq_true.mpr ⟨_, List.mem_singleton_self _, foundOn_appended name⟩)

lemma edited : ∃ lines, List.Forall₂ (LineEdited old.text name.text) (records content) lines ∧
    (renderHosts old.text name.text (some content) = rejoin (trailingNewline content) lines ∨
      renderHosts old.text name.text (some content) = rejoin (trailingNewline content) lines ++
        appended name.text content) := by
  refine ⟨newLines old.text name.text content, ?_, ?_⟩
  · unfold newLines
    rw [List.forall₂_map_right_iff, List.forall₂_same]
    exact fun line _ => lineEdited_newLine old.text name line
  · rw [renderHosts_eq]
    split
    · exact .inl (List.append_nil _)
    · exact .inr rfl

/-! ### The token -/

lemma token_ne_nil {ps : List Piece} (h : Separate ps) : ∀ w ∈ tokensOf ps, w ≠ [] := by
  induction h with
  | nil => simp [tokensOf]
  | blank _ _ ih => exact ih
  | last hne _ => simpa [tokensOf] using hne
  | @token w c ps hne _ _ ih =>
    intro v hv
    rcases List.mem_cons.mp (show v ∈ w :: tokensOf (.blank c :: ps) from hv) with rfl | hv
    · exact hne
    · exact ih v hv

/-- A line of the loopback network does not get the name. -/
lemma name_notMem_iff (line : Str) (hself : isLoopbackLine line = true) :
    name.text ∉ (lineTokens (newLine old.text name.text line)).tail ↔
      name.text ∉ (lineTokens line).tail ∧
        ((∃ w ∈ (lineTokens line).tail, awkEqual w name.text = true) ∨
          ∀ w ∈ (lineTokens line).tail, w = old.text → isLocalhost w = true) := by
  have halready : alreadyOn name.text line = true ↔ ∃ w ∈ (lineTokens line).tail,
      awkEqual w name.text = true := by
    unfold alreadyOn
    rw [hself, Bool.true_and, List.any_eq_true]
  rw [name_mem_newLine, not_or, ← halready]
  refine and_congr_right fun _ => ?_
  simp only [replaceable_iff, hself, true_and, not_exists, not_and, Bool.not_eq_false]
  constructor
  · intro h
    by_cases hal : alreadyOn name.text line = true
    · exact .inl hal
    · refine .inr fun w hw hwold => h w hw (by simpa using hal) ?_ hwold
      rw [← hwold]
      exact token_ne_nil (separate_pieces _) w (List.mem_of_mem_tail hw)
  · rintro (hal | h) w hw hfalse _ hwold
    · rw [hal] at hfalse
      cases hfalse
    · exact h w hw hwold

/-- The name is a token, unless something else has been taken for it. -/
lemma named_iff :
    (∃ line ∈ records (renderHosts old.text name.text (some content)),
      isLoopbackLine line = true ∧ name.text ∈ (lineTokens line).tail) ↔
        ¬ Mistaken old.text name.text content := by
  have hlines : (∃ line ∈ newLines old.text name.text content, isLoopbackLine line = true ∧
      name.text ∈ (lineTokens line).tail) ↔
      ∃ line ∈ records content, isLoopbackLine line = true ∧
        name.text ∈ (lineTokens (newLine old.text name.text line)).tail := by
    simp only [newLines, List.mem_map, exists_exists_and_eq_and, isLoopbackLine_newLine]
  rw [records_output]
  by_cases hfound : foundIn old.text name.text content = true
  · -- the lines are all there is
    rw [if_pos hfound, List.append_nil, hlines]
    obtain ⟨line, hline, hon⟩ := List.any_eq_true.mp hfound
    obtain ⟨hself, hcause⟩ := (foundOn_iff old.text name line).mp hon
    constructor
    · rintro ⟨line, hline, hself, hname⟩ ⟨-, hno⟩
      exact (name_notMem_iff old name line hself).mpr (hno line hline hself) hname
    · intro hmistaken
      by_contra hno
      push Not at hno
      refine hmistaken ⟨⟨line, hline, hself, ?_⟩, fun line hline hself =>
        (name_notMem_iff old name line hself).mp (hno line hline hself)⟩
      have halready := hcause.resolve_right (hno line hline hself)
      rw [alreadyOn, hself, Bool.true_and, List.any_eq_true] at halready
      exact halready
  · rw [if_neg hfound]
    refine iff_of_true ⟨_, List.mem_append_right _ (List.mem_singleton_self _),
      isLoopbackLine_appended name, ?_⟩ ?_
    · rw [lineTokens_appended]
      exact List.mem_singleton_self _
    · -- a number that is taken for the name sets `found`
      rintro ⟨⟨line, hline, hself, w, hw, hequal⟩, -⟩
      refine hfound
        (List.any_eq_true.mpr ⟨line, hline, (foundOn_iff old.text name line).mpr ⟨hself, .inl ?_⟩⟩)
      rw [alreadyOn, hself, Bool.true_and]
      exact List.any_eq_true.mpr ⟨w, hw, hequal⟩

end Content

/-- The rendering edits what it promises and can be repeated; the name is a token of a line of the
loopback network behind the first column if and only if no number has been taken for it. -/
theorem rendered_iff (old : OldName) (name : HostName) (content : Str) :
    Rendered old.text name.text content ↔ ¬ Mistaken old.text name.text content := by
  rw [← named_iff]
  exact ⟨fun h => h.named,
    fun h =>
      ⟨edited old name content, h, renderHosts_self name _ (foundIn_output old name content)⟩⟩

/-- On the line of another number nothing is replaced, and no line is appended. -/
theorem not_rendered_number :
    ¬ ∀ (old : OldName) (name : HostName) (content : Str), Rendered old.text name.text content := by
  intro h
  obtain ⟨line, hline, -, hname⟩ :=
    (h ⟨[], .inl rfl⟩ ⟨"123".toList, by decide +kernel⟩ "127.0.0.1 0123\n".toList).named
  have houtput : renderHosts [] "123".toList (some "127.0.0.1 0123\n".toList) =
      "127.0.0.1 0123\n".toList := by decide +kernel
  rw [houtput] at hline
  obtain rfl : line = "127.0.0.1 0123".toList := by
    have hrecords : records "127.0.0.1 0123\n".toList = ["127.0.0.1 0123".toList] := by
      decide +kernel
    rw [hrecords] at hline
    exact List.mem_singleton.mp hline
  revert hname
  decide +kernel

end Pxeos.Linux
