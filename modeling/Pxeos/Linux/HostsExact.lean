import Pxeos.Linux.Hosts

/-!
# What the rendering of the hosts does

The rendering changes nothing but tokens with the old name on lines of the loopback network, and
appends at most one line. The new name is then a token of such a line unless a field that is the
same number for `awk`, but another text, has been taken for it.
-/

namespace Pxeos.Linux

open Pxeos.Lib

/-! ### Tokens and blanks -/

/-- A piece of a line. -/
inductive Piece where
  | blank (c : Char)
  | token (w : Str)
  deriving DecidableEq

def Piece.text : Piece → Str
  | .blank c => [c]
  | .token w => w

def piecesText (ps : List Piece) : Str := ps.flatMap Piece.text

/-- The token that has been read. -/
def pending (w : Str) : List Piece := if w = [] then [] else [.token w]

/-- The pieces of a text, of which a part of a token has been read. -/
def piecesFrom : Str → Str → List Piece
  | w, [] => pending w
  | w, c :: s =>
    if isSpace c then pending w ++ .blank c :: piecesFrom [] s else piecesFrom (w ++ [c]) s

def pieces (s : Str) : List Piece := piecesFrom [] s

/-- The tokens. -/
def tokensOf (ps : List Piece) : List Str := ps.filterMap fun p =>
  match p with
  | .blank _ => none
  | .token w => some w

section Pieces

lemma piecesText_append (ps qs : List Piece) :
    piecesText (ps ++ qs) = piecesText ps ++ piecesText qs := List.flatMap_append

lemma piecesText_pending (w : Str) : piecesText (pending w) = w := by
  unfold pending
  split
  · rename_i h
    rw [h]
    rfl
  · exact List.append_nil w

lemma piecesText_piecesFrom (w s : Str) : piecesText (piecesFrom w s) = w ++ s := by
  induction s generalizing w with
  | nil => rw [piecesFrom, piecesText_pending, List.append_nil]
  | cons c s ih =>
    unfold piecesFrom
    split
    · rw [piecesText_append, piecesText_pending]
      show w ++ ([c] ++ piecesText (piecesFrom [] s)) = _
      rw [ih]
      rfl
    · rw [ih, List.append_assoc]
      rfl

lemma piecesText_pieces (s : Str) : piecesText (pieces s) = s := piecesText_piecesFrom [] s

/-- The pieces of some text: no token is empty or has a blank, and blanks stand between tokens. -/
inductive Separate : List Piece → Prop
  | nil : Separate []
  | blank {c : Char} {ps : List Piece} (hc : isSpace c = true) (h : Separate ps) :
      Separate (.blank c :: ps)
  | last {w : Str} (hne : w ≠ []) (hw : ∀ c ∈ w, isSpace c = false) : Separate [.token w]
  | token {w : Str} {c : Char} {ps : List Piece} (hne : w ≠ []) (hw : ∀ c ∈ w, isSpace c = false)
      (h : Separate (.blank c :: ps)) : Separate (.token w :: .blank c :: ps)

lemma separate_piecesFrom {w : Str} (hw : ∀ c ∈ w, isSpace c = false) (s : Str) :
    Separate (piecesFrom w s) := by
  induction s generalizing w with
  | nil =>
    unfold piecesFrom pending
    split
    · exact .nil
    · exact .last ‹_› hw
  | cons c s ih =>
    unfold piecesFrom
    split
    · rename_i hc
      have hrest : Separate (.blank c :: piecesFrom [] s) := .blank hc (ih (by simp))
      unfold pending
      split
      · exact hrest
      · exact .token ‹_› hw hrest
    · rename_i hc
      refine ih fun d hd => ?_
      rcases List.mem_append.mp hd with hd | hd
      · exact hw d hd
      · rw [List.mem_singleton.mp hd]
        simpa using hc

lemma separate_pieces (s : Str) : Separate (pieces s) := separate_piecesFrom (by simp) s

lemma piecesFrom_token {w : Str} (hw : ∀ c ∈ w, isSpace c = false) (v s : Str) :
    piecesFrom v (w ++ s) = piecesFrom (v ++ w) s := by
  induction w generalizing v with
  | nil => rw [List.nil_append, List.append_nil]
  | cons c w ih =>
    rw [List.cons_append, piecesFrom,
      if_neg (by rw [hw c List.mem_cons_self]; exact Bool.false_ne_true),
      ih fun d hd => hw d (List.mem_cons_of_mem _ hd), List.append_assoc]
    rfl

/-- Separate pieces are found again in their text. -/
lemma pieces_piecesText {ps : List Piece} (h : Separate ps) : pieces (piecesText ps) = ps := by
  induction h with
  | nil => rfl
  | @blank c ps hc _ ih =>
    show piecesFrom [] (c :: piecesText ps) = _
    rw [piecesFrom, if_pos hc]
    exact congrArg (Piece.blank c :: ·) ih
  | @last w hne hw =>
    show piecesFrom [] (w ++ []) = _
    rw [piecesFrom_token hw, List.nil_append, piecesFrom, pending, if_neg hne]
  | @token w c ps hne hw h ih =>
    have hc : isSpace c = true := by
      cases h
      assumption
    show piecesFrom [] (w ++ (c :: piecesText ps)) = _
    have ih : piecesFrom [] (c :: piecesText ps) = .blank c :: ps := ih
    rw [piecesFrom, if_pos hc] at ih
    have ih : Piece.blank c :: piecesFrom [] (piecesText ps) = .blank c :: ps := ih
    rw [piecesFrom_token hw, List.nil_append, piecesFrom, if_pos hc, ih, pending, if_neg hne]
    rfl

/-! ### Fields -/

lemma tokensOf_append (ps qs : List Piece) : tokensOf (ps ++ qs) = tokensOf ps ++ tokensOf qs :=
  List.filterMap_append

lemma tokensOf_pending {w : Str} (h : w ≠ []) : tokensOf (pending w) = [w] := by
  unfold pending
  rw [if_neg h]
  rfl

lemma splitBlanksFrom_eq (s : Str) :
    (∀ w, w ≠ [] → ∃ extra : List Str, (∀ v ∈ extra, v = []) ∧
      splitBlanksFrom true w s = tokensOf (piecesFrom w s) ++ extra) ∧
      ∃ extra : List Str, (∀ v ∈ extra, v = []) ∧
        splitBlanksFrom false [] s = tokensOf (piecesFrom [] s) ++ extra := by
  induction s with
  | nil =>
    refine ⟨fun w hw => ⟨[], by simp, ?_⟩, [[]], by simp, rfl⟩
    rw [piecesFrom, tokensOf_pending hw]
    rfl
  | cons c s ih =>
    obtain ⟨htrue, extra, hextra, hfalse⟩ := ih
    by_cases hc : isSpace c = true
    · refine ⟨fun w hw => ⟨extra, hextra, ?_⟩, extra, hextra, ?_⟩
      · rw [splitBlanksFrom, if_pos hc, hfalse, piecesFrom, if_pos hc, tokensOf_append,
          tokensOf_pending hw]
        rfl
      · rw [splitBlanksFrom, if_pos hc, hfalse, piecesFrom, if_pos hc]
        rfl
    · refine ⟨fun w hw => ?_, ?_⟩
      · obtain ⟨extra', hextra', heq⟩ := htrue (w ++ [c]) (by simp)
        refine ⟨extra', hextra', ?_⟩
        rw [splitBlanksFrom, if_neg hc, heq, piecesFrom, if_neg hc]
      · obtain ⟨extra', hextra', heq⟩ := htrue [c] (by simp)
        refine ⟨extra', hextra', ?_⟩
        rw [splitBlanksFrom, if_neg hc, heq, piecesFrom, if_neg hc]
        rfl

lemma tokensOf_dropWhile (s : Str) :
    tokensOf (pieces (s.dropWhile isSpace)) = tokensOf (pieces s) := by
  induction s with
  | nil => rfl
  | cons c s ih =>
    by_cases hc : isSpace c = true
    · rw [List.dropWhile_cons_of_pos hc, ih]
      show _ = tokensOf (piecesFrom [] (c :: s))
      rw [piecesFrom, if_pos hc]
      rfl
    · rw [List.dropWhile_cons_of_neg hc]

/-- The fields are the tokens, with an empty one behind blanks at the end. -/
lemma hostsFields_eq (text : Str) : ∃ extra : List Str, (∀ v ∈ extra, v = []) ∧
    hostsFields text = tokensOf (pieces text) ++ extra ∧
    (tokensOf (pieces text) = [] → extra = []) := by
  rw [← tokensOf_dropWhile]
  unfold hostsFields
  cases hdata : text.dropWhile isSpace with
  | nil => exact ⟨[], by simp, rfl, fun _ => rfl⟩
  | cons c s =>
    have hc : isSpace c = false := by
      have := List.head_dropWhile_not (p := isSpace) (l := text) (by rw [hdata]; simp)
      simpa [hdata] using this
    have hc' : ¬ isSpace c = true := by
      rw [hc]
      exact Bool.false_ne_true
    obtain ⟨extra, hextra, heq⟩ := (splitBlanksFrom_eq s).1 [c] (by simp)
    refine ⟨extra, hextra, ?_, fun hnil => ?_⟩
    · dsimp only
      rw [if_neg (List.cons_ne_nil c s), splitBlanksFrom, if_neg hc', List.nil_append, heq]
      unfold pieces
      rw [piecesFrom, if_neg hc']
      rfl
    · -- the first character that is no blank begins a token
      exfalso
      have htext := piecesText_pieces (c :: s)
      have hsep := separate_pieces (c :: s)
      generalize pieces (c :: s) = ps at htext hsep hnil
      cases hsep with
      | nil => cases htext
      | blank hb _ =>
        obtain ⟨rfl, -⟩ := List.cons.inj htext
        exact hc' hb
      | last => cases hnil
      | token => cases hnil

lemma headD_hostsFields (text : Str) :
    (hostsFields text).headD [] = (tokensOf (pieces text)).headD [] := by
  obtain ⟨extra, -, heq, hnil⟩ := hostsFields_eq text
  rw [heq]
  cases h : tokensOf (pieces text) with
  | nil => rw [hnil h, List.append_nil]
  | cons w ws => rfl

lemma any_hostsFields {p : Str → Bool} (hp : p [] = false) (text : Str) :
    (hostsFields text).tail.any p = (tokensOf (pieces text)).tail.any p := by
  obtain ⟨extra, hextra, heq, hnil⟩ := hostsFields_eq text
  have hfalse : extra.any p = false := by
    rw [List.any_eq_false]
    intro v hv
    rw [hextra v hv, hp]
    exact Bool.false_ne_true
  rw [heq]
  cases h : tokensOf (pieces text) with
  | nil => rw [hnil h, List.append_nil]
  | cons w ws =>
    rw [List.cons_append, List.tail_cons, List.tail_cons, List.any_append, hfalse, Bool.or_false]

end Pieces

/-! ### The rendering of the pieces -/

section Render

variable (old name : Str) (self already : Bool)

/-- Whether a token behind the first column is replaced. -/
def replaceable (w : Str) : Bool := self && !already && old != [] && w == old && !isLocalhost w

def newToken (w : Str) : Str := if replaceable old self already w then name else w

/-- Whether a token behind the first column sets `found`. -/
def marks (w : Str) : Bool := (self && w == name) || replaceable old self already w

/-- The pieces that are printed; `first` says that no token has come. -/
def editPieces : Bool → List Piece → List Piece
  | _, [] => []
  | first, .blank c :: ps => .blank c :: editPieces first ps
  | first, .token w :: ps =>
    .token (if first then w else newToken old name self already w) :: editPieces false ps

/-- Whether a piece sets `found`. -/
def anyMarks : Bool → List Piece → Bool
  | _, [] => false
  | first, .blank _ :: ps => anyMarks first ps
  | first, .token w :: ps => (!first && marks old name self already w) || anyMarks false ps

lemma tokenValue_eq (r : Rendering) : tokenValue old name self already r =
    { r with
      out := r.out ++ (if r.column = 0 then r.token else newToken old name self already r.token)
      column := r.column + 1
      found := r.found || (decide (r.column ≠ 0) && marks old name self already r.token) } := by
  unfold tokenValue newToken marks replaceable
  by_cases hcol : r.column = 0
  · simp [hcol]
  · have hcol' : r.column + 1 ≠ 1 := by omega
    simp only [if_neg hcol, if_neg hcol']
    split
    · rename_i h
      simp [h, hcol]
    · rename_i h
      simp only [Bool.not_eq_true] at h
      simp [h, hcol]

/-- Behind the last character. -/
def flushed (r : Rendering) : Rendering :=
  if r.token = [] then r else tokenValue old name self already r

lemma foldl_renderChar (s : Str) (r : Rendering) :
    let r' := flushed old name self already (s.foldl (renderChar old name self already) r)
    r'.out =
      r.out ++
        piecesText
          (editPieces old name self already (decide (r.column = 0)) (piecesFrom r.token s)) ∧
      r'.found =
        (r.found || anyMarks old name self already (decide (r.column = 0))
          (piecesFrom r.token s)) := by
  induction s generalizing r with
  | nil =>
    show (flushed old name self already r).out = _ ∧ (flushed old name self already r).found = _
    unfold flushed
    rw [piecesFrom, pending]
    split
    · simp [editPieces, anyMarks, piecesText]
    · rw [tokenValue_eq]
      by_cases hcol : r.column = 0 <;> simp [editPieces, anyMarks, piecesText, Piece.text, hcol]
  | cons c s ih =>
    rw [List.foldl_cons]
    by_cases hc : isSpace c = true
    · by_cases htoken : r.token = []
      · have hstep : renderChar old name self already r c = { r with out := r.out ++ [c] } := by
          unfold renderChar
          rw [if_pos hc]
          simp only [if_pos htoken]
        obtain ⟨h1, h2⟩ := ih { r with out := r.out ++ [c] }
        rw [hstep]
        refine ⟨h1.trans ?_, h2.trans ?_⟩
        · rw [piecesFrom, if_pos hc, htoken]
          simp [pending, editPieces, piecesText, Piece.text]
        · rw [piecesFrom, if_pos hc, htoken]
          simp [pending, anyMarks]
      · have hstep : renderChar old name self already r c =
            { out := r.out ++ (if r.column = 0 then r.token else newToken old name self already r.token) ++ [c]
              token := []
              column := r.column + 1
              found :=
                r.found || (decide (r.column ≠ 0) && marks old name self already r.token) } := by
          unfold renderChar
          rw [if_pos hc]
          simp only [if_neg htoken, tokenValue_eq]
        obtain ⟨h1, h2⟩ := ih { out := r.out ++ (if r.column = 0 then r.token else newToken old name self already r.token) ++ [c]
                                token := []
                                column := r.column + 1
                                found :=
                                  r.found ||
                                    (decide (r.column ≠ 0) && marks old name self already r.token) }
        rw [hstep]
        refine ⟨h1.trans ?_, h2.trans ?_⟩
        · rw [piecesFrom, if_pos hc]
          by_cases hcol : r.column = 0 <;> simp [pending, htoken, editPieces, piecesText,
            Piece.text, hcol]
        · rw [piecesFrom, if_pos hc]
          by_cases hcol : r.column = 0 <;> simp [pending, htoken, anyMarks, hcol, Bool.or_assoc]
    · have hstep : renderChar old name self already r c = { r with token := r.token ++ [c] } := by
        unfold renderChar
        rw [if_neg hc]
      obtain ⟨h1, h2⟩ := ih { r with token := r.token ++ [c] }
      rw [hstep]
      refine ⟨h1.trans ?_, h2.trans ?_⟩
      · conv_rhs => rw [piecesFrom, if_neg hc]
      · conv_rhs => rw [piecesFrom, if_neg hc]

/-- **What `render` prints**: the pieces, with some tokens replaced. -/
lemma renderPrefix_eq (found : Bool) (text : Str) :
    (renderPrefix old name self already found text).out =
      piecesText (editPieces old name self already true (pieces text)) ∧
      (renderPrefix old name self already found text).found =
        (found || anyMarks old name self already true (pieces text)) :=
  foldl_renderChar old name self already text ⟨[], [], 0, found⟩

end Render

end Pxeos.Linux
