import Mathlib.Data.List.TakeWhile
import Pxeos.Lib.Utf8

/-!
# The reason of a rejected error report

`rootpxe_utf8_safe_prefix` cuts a text without ending inside a character, and `rootpxe_error_report`
uses it to print the reason of a rejection in pieces of 72 bytes.  The piece goes through a command
substitution, which removes newlines at its end: the loop stops on every reason that has no run of
newlines at the end of a piece, and in particular on those without control characters that
`rootpxe_error_response_reason` makes.
-/

namespace Pxeos.Report

open Lib (Utf8 utf8 isContinuation LeadOf LongestPrefix Cut Boundary)

/-- The bytes of a shell variable. -/
abbrev Bytes := List UInt8

/-! ### The safe prefix -/

/-- The continuation bytes that a lead byte asks for; none for a byte that begins no character. -/
def leadNeed (lead : UInt8) : Option ℕ :=
  if lead.toNat ≤ 127 then some 0
  else if 192 ≤ lead.toNat ∧ lead.toNat ≤ 223 then some 1
  else if 224 ≤ lead.toNat ∧ lead.toNat ≤ 239 then some 2
  else if 240 ≤ lead.toNat ∧ lead.toNat ≤ 244 then some 3
  else none

/-- What is left of the first `maximum` bytes, given from the last one to the first. -/
def safeBackwards (back : Bytes) : Bytes :=
  match back.dropWhile isContinuation with
  | [] => []
  | lead :: before => if leadNeed lead = some (back.takeWhile isContinuation).length then
    back.reverse else before.reverse

/-- The numbers of bytes that the shell can count, up to `2 ^ 63`. -/
abbrev Maximum : Type := Fin 9223372036854775808

/-- `rootpxe_utf8_safe_prefix` for a number of bytes. -/
def utf8SafePrefix (text : Bytes) (maximum : Maximum) : Bytes :=
  safeBackwards (text.take maximum).reverse

/-! ### The reason -/

def newline : UInt8 := 10

/-- `$(…)` for bytes without NUL: no newline at the end. -/
def substituted (s : Bytes) : Bytes := (s.reverse.dropWhile (· = newline)).reverse

/-- `${text#"$line"}`. -/
def withoutPrefix (line text : Bytes) : Bytes :=
  if line <+: text then text.drop line.length else text

/-- The lines that the loop of `rootpxe_error_report` prints for a reason; nothing if it has not
stopped by then. -/
def reasonPieces : ℕ → Bytes → Option (List Bytes)
  | 0, _ => none
  | _ + 1, [] => some []
  | fuel + 1, b :: reason =>
    let line := substituted (utf8SafePrefix (b :: reason) 72)
    (reasonPieces fuel (withoutPrefix line (b :: reason))).map (line :: ·)

/-- The bytes of `[:cntrl:]`. -/
def isCntrl (b : UInt8) : Bool := decide (b.toNat < 32) || decide (b.toNat = 127)

/-- `rootpxe_error_response_reason` from the redacted text on, and the substitution that keeps
it. -/
def errorResponseReason (reason : Bytes) : Bytes :=
  substituted (utf8SafePrefix (substituted (reason.filter fun b => !isCntrl b)) 160)

/-! ### The safe prefix is the longest -/

lemma leadNeed_eq {lead : UInt8} {n : ℕ} (h : LeadOf lead n) : leadNeed lead = some n := by
  unfold leadNeed
  cases h with
  | one h => rw [if_pos h]
  | two h1 h2 => rw [if_neg (by omega), if_pos ⟨h1, h2⟩]
  | three h1 h2 => rw [if_neg (by omega), if_neg (by omega), if_pos ⟨h1, h2⟩]
  | four h1 h2 => rw [if_neg (by omega), if_neg (by omega), if_neg (by omega), if_pos ⟨h1, h2⟩]

/-- One lead byte, and continuation bytes behind it. -/
lemma safeBackwards_eq {pre conts : Bytes} {lead : UInt8} {n : ℕ} (hlead : LeadOf lead n)
    (hconts : ∀ b ∈ conts, isContinuation b = true) :
    safeBackwards (pre ++ lead :: conts).reverse = if n = conts.length then
      pre ++ lead :: conts else pre := by
  have hback : (pre ++ lead :: conts).reverse = conts.reverse ++ lead :: pre.reverse := by
    rw [List.reverse_append, List.reverse_cons, List.append_assoc]
    rfl
  have hall : ∀ b ∈ conts.reverse, isContinuation b = true :=
    fun b hb => hconts b (List.mem_reverse.mp hb)
  have hlead' : ¬ isContinuation lead = true := by
    rw [hlead.not_continuation]; exact Bool.false_ne_true
  unfold safeBackwards
  rw [List.reverse_reverse, hback, List.dropWhile_append_of_pos hall,
    List.dropWhile_cons_of_neg hlead',
    List.takeWhile_append_of_pos hall, List.takeWhile_cons_of_neg hlead', List.append_nil,
      List.length_reverse]
  dsimp only
  rw [leadNeed_eq hlead, List.reverse_reverse]
  simp only [Option.some.injEq]

/-- The text that is whole. -/
lemma utf8SafePrefix_cut {cs pre : List Char} {n : Maximum} {part : Bytes} (h : Cut cs n pre part) :
    utf8SafePrefix (utf8 cs) n = utf8 pre := by
  unfold utf8SafePrefix
  rw [h.take]
  rcases part with - | ⟨p, ps⟩
  · -- the cut is behind the last character of `pre`
    rw [List.append_nil]
    rcases List.eq_nil_or_concat pre with rfl | ⟨pre, c, rfl⟩
    · rfl
    · obtain ⟨lead, conts, hc, hlead, hconts⟩ := Lib.utf8EncodeChar_shape c
      rw [List.concat_eq_append, Lib.utf8_append, Lib.utf8_cons, Lib.utf8_nil, List.append_nil, hc,
        safeBackwards_eq hlead hconts, if_pos rfl]
  · -- the cut is inside the character `c`
    rcases h.next with ⟨-, hpart⟩ | ⟨c, post, -, hlen, hpart, -⟩
    · cases hpart
    · obtain ⟨lead, conts, hc, hlead, hconts⟩ := Lib.utf8EncodeChar_shape c
      rw [hc, List.cons_prefix_cons] at hpart
      obtain ⟨rfl, hps⟩ := hpart
      rw [hc, List.length_cons, List.length_cons] at hlen
      rw [safeBackwards_eq hlead fun b hb => hconts b (hps.subset hb), if_neg (by omega)]

/-- `rootpxe_utf8_safe_prefix` is right. -/
theorem utf8SafePrefix_longest {s : Bytes} (h : Utf8 s) (n : Maximum) :
    LongestPrefix s n (utf8SafePrefix s n) := by
  obtain ⟨cs, rfl⟩ := h
  obtain ⟨pre, part, hcut⟩ := Lib.exists_cut cs n
  rw [utf8SafePrefix_cut hcut]
  exact hcut.longestPrefix

/-! ### The loop over the pieces -/

/-- A substitution takes newlines away at the end, and nothing else. -/
lemma substituted_append (s : Bytes) : ∃ k, s = substituted s ++ List.replicate k newline := by
  refine ⟨(s.reverse.takeWhile (· = newline)).length, ?_⟩
  have hcut :=
    congrArg List.reverse (List.takeWhile_append_dropWhile (p := (· = newline)) (l := s.reverse))
  rw [List.reverse_append, List.reverse_reverse] at hcut
  have hall : ∀ b ∈ (s.reverse.takeWhile (· = newline)).reverse, b = newline := by
    intro b hb
    have := List.mem_takeWhile_imp (List.mem_reverse.mp hb)
    exact of_decide_eq_true this
  have hnew := List.eq_replicate_of_mem hall
  rw [List.length_reverse] at hnew
  unfold substituted
  rw [← hnew]
  exact hcut.symm

/-- Newlines behind a text are gone with those at its end. -/
lemma substituted_append_newlines (s : Bytes) (k : ℕ) :
    substituted (s ++ List.replicate k newline) = substituted s := by
  unfold substituted
  rw [List.reverse_append, List.reverse_replicate, List.dropWhile_append_of_pos]
  intro b hb
  exact decide_eq_true (List.eq_of_mem_replicate hb)

lemma substituted_of_notMem {s : Bytes} (h : newline ∉ s) : substituted s = s := by
  obtain ⟨k, hk⟩ := substituted_append s
  rcases k with - | k
  · rw [List.replicate_zero, List.append_nil] at hk
    exact hk.symm
  · refine absurd ?_ h
    rw [hk]
    exact List.mem_append_right _ List.mem_cons_self

lemma substituted_isCut (s : Bytes) : substituted s <+: s := by
  obtain ⟨k, hk⟩ := substituted_append s
  exact ⟨_, hk.symm⟩

lemma withoutPrefix_append (line rest : Bytes) : withoutPrefix line (line ++ rest) = rest := by
  unfold withoutPrefix
  rw [if_pos (List.prefix_append _ _), List.drop_left]

lemma utf8_replicate_newline (k : ℕ) : utf8 (List.replicate k '\n') = List.replicate k newline := by
  induction k with
  | zero => rfl
  | succ k ih => rw [List.replicate_succ, List.replicate_succ, Lib.utf8_cons, ih]; rfl

/-- Newlines that fill a piece: 72 of them, or fewer up to the end of the text or to a character
that does not fit. -/
def Jams (b : Bytes) : Prop :=
  ∃ k, 1 ≤ k ∧ k ≤ 72 ∧ (b = List.replicate k newline ∨
    ∃ c rest, b = List.replicate k newline ++ String.utf8EncodeChar c ++ rest ∧
      72 < k + (String.utf8EncodeChar c).length)

lemma Jams.head {b : Bytes} (h : Jams b) : ∃ b', b = newline :: b' := by
  obtain ⟨k, h1, -, h⟩ := h
  obtain ⟨k, rfl⟩ : ∃ j, k = j + 1 := ⟨k - 1, by omega⟩
  rcases h with rfl | ⟨c, rest, rfl, -⟩
  · exact ⟨_, rfl⟩
  · exact ⟨_, rfl⟩

/-- The piece of a text, and what is behind it. -/
lemma piece_spec {t : Bytes} (h : Utf8 t) (hne : t ≠ []) :
    ∃ k rest, t = substituted (utf8SafePrefix t 72) ++ List.replicate k newline ++
      rest ∧ Utf8 rest ∧
      utf8SafePrefix t 72 = substituted (utf8SafePrefix t 72) ++ List.replicate k newline ∧
      0 < (utf8SafePrefix t 72).length ∧ (utf8SafePrefix t 72).length ≤ 72 := by
  have hq := utf8SafePrefix_longest h 72
  obtain ⟨rest, hrest, -, hutf⟩ := hq.boundary
  obtain ⟨k, hk⟩ := substituted_append (utf8SafePrefix t 72)
  refine ⟨k, rest, by rw [← hk]; exact hrest, hutf, hk, ?_, hq.le⟩
  obtain ⟨cs, rfl⟩ := h
  rcases cs with - | ⟨c, cs⟩
  · exact absurd rfl hne
  · -- the first character fits
    have hone : Boundary (utf8 (c :: cs)) (String.utf8EncodeChar c) :=
      ⟨utf8 cs, rfl, ⟨[c], (List.append_nil _).symm⟩, ⟨cs, rfl⟩⟩
    have := hq.longest _ hone (Nat.le_trans (Lib.utf8EncodeChar_length_le c) (by omega))
    have := Lib.utf8EncodeChar_length_pos c
    omega

lemma reasonPieces_step {t : Bytes} (hne : t ≠ []) (fuel : ℕ) {rest : Bytes}
    (h : t = substituted (utf8SafePrefix t 72) ++ rest) :
    reasonPieces (fuel + 1) t = (reasonPieces fuel rest).map
      (substituted (utf8SafePrefix t 72) :: ·) := by
  have hw : withoutPrefix (substituted (utf8SafePrefix t 72)) t = rest := by
    have := withoutPrefix_append (substituted (utf8SafePrefix t 72)) rest
    rwa [← h] at this
  rcases t with - | ⟨b, t⟩
  · exact absurd rfl hne
  · rw [reasonPieces, hw]

/-- **A piece that is empty jams the loop.** -/
lemma jams_of_piece_nil {t : Bytes} (h : Utf8 t) (hne : t ≠ [])
    (hnil : substituted (utf8SafePrefix t 72) = []) : Jams t := by
  obtain ⟨k, rest, ht, ⟨ds, rfl⟩, hpre, hpos, hle⟩ := piece_spec h hne
  rw [hnil, List.nil_append] at ht hpre
  have hk : (utf8SafePrefix t 72).length = k := by rw [hpre, List.length_replicate]
  refine ⟨k, by omega, by omega, ?_⟩
  rcases ds with - | ⟨c, ds⟩
  · exact .inl (by rw [Lib.utf8_nil, List.append_nil] at ht; exact ht)
  · refine .inr ⟨c, utf8 ds, by rw [Lib.utf8_cons, ← List.append_assoc] at ht; exact ht, ?_⟩
    -- otherwise the character fits as well
    by_contra hfit
    have hnew : Utf8 (List.replicate k newline ++ String.utf8EncodeChar c) := by
      refine ⟨List.replicate k '\n' ++ [c], ?_⟩
      rw [Lib.utf8_append, Lib.utf8_cons, Lib.utf8_nil, List.append_nil, utf8_replicate_newline]
    have := (utf8SafePrefix_longest h 72).longest _
      ⟨utf8 ds, by rw [Lib.utf8_cons, ← List.append_assoc] at ht; exact ht, hnew, ⟨ds, rfl⟩⟩
      (by rw [List.length_append, List.length_replicate]; omega)
    rw [List.length_append, List.length_replicate] at this
    have := Lib.utf8EncodeChar_length_pos c
    omega

/-- **A jam stays**: the piece ends in front of it. -/
lemma piece_length_le {x b : Bytes} (h : Utf8 (x ++ b)) (hjam : Jams b) :
    (substituted (utf8SafePrefix (x ++ b) 72)).length ≤ x.length := by
  have hq := utf8SafePrefix_longest h 72
  obtain ⟨rest, hrest, -, hutf⟩ := hq.boundary
  have hle := hq.le
  generalize utf8SafePrefix (x ++ b) 72 = q at hq hrest hle ⊢
  have hsub := (substituted_isCut q).length_le
  rcases Nat.lt_or_ge x.length q.length with hlt | hge
  · -- what the piece takes of the newlines is lost in the substitution
    obtain ⟨y, rfl⟩ : ∃ y, q = x ++ y := by
      have hx : x <+: q :=
        List.prefix_of_prefix_length_le (List.prefix_append x b) ⟨rest, hrest.symm⟩ (by omega)
      obtain ⟨y, hy⟩ := hx
      exact ⟨y, hy.symm⟩
    rw [List.append_assoc, List.append_cancel_left_eq] at hrest
    obtain ⟨k, -, hk72, hb⟩ := hjam
    have hyk : y.length ≤ k := by
      rcases hb with rfl | ⟨c, post, rfl, hlong⟩
      · have := congrArg List.length hrest
        rw [List.length_append, List.length_replicate] at this
        omega
      · by_contra hlt'
        have := hutf.not_inside hrest (by rw [List.length_replicate]; omega)
        rw [List.length_replicate] at this
        rw [List.length_append] at hle
        omega
    have hy : y = List.replicate y.length newline := by
      have hyb : y <+: b := ⟨rest, hrest.symm⟩
      have hrep : y <+: List.replicate k newline := by
        rcases hb with rfl | ⟨c, post, rfl, -⟩
        · exact hyb
        · rw [List.append_assoc] at hyb
          exact List.prefix_of_prefix_length_le hyb (List.prefix_append _ _)
            (by rw [List.length_replicate]; exact hyk)
      exact List.eq_replicate_of_mem fun b hb => List.eq_of_mem_replicate (hrep.subset hb)
    rw [hy, substituted_append_newlines]
    exact (substituted_isCut x).length_le
  · omega

/-! ### Runs of the loop -/

/-- In front of a jam the loop never stops. -/
lemma reasonPieces_of_jams {b : Bytes} (hjam : Jams b) (fuel : ℕ) {x : Bytes} (h : Utf8 (x ++ b)) :
    reasonPieces fuel (x ++ b) = none := by
  induction fuel generalizing x with
  | zero => rfl
  | succ fuel ih =>
    obtain ⟨b', hb'⟩ := hjam.head
    have hne : x ++ b ≠ [] := by
      rw [hb']; exact List.append_ne_nil_of_right_ne_nil _ (List.cons_ne_nil _ _)
    obtain ⟨k, rest, ht, hrest, -⟩ := piece_spec h hne
    rw [List.append_assoc] at ht
    have hline : substituted (utf8SafePrefix (x ++ b) 72) <+: x :=
      List.prefix_of_prefix_length_le ⟨_, ht.symm⟩ (List.prefix_append x b) (piece_length_le h hjam)
    obtain ⟨x', hx'⟩ := hline
    have hleft : List.replicate k newline ++ rest = x' ++ b := by
      have hcut : substituted (utf8SafePrefix (x ++ b) 72) ++ (List.replicate k newline ++ rest) =
          substituted (utf8SafePrefix (x ++ b) 72) ++ (x' ++ b) := by
            rw [← ht, ← List.append_assoc, hx']
      exact List.append_cancel_left hcut
    have hutf : Utf8 (x' ++ b) := by
      obtain ⟨ds, rfl⟩ := hrest
      exact ⟨List.replicate k '\n' ++ ds, by rw [← hleft, Lib.utf8_append, utf8_replicate_newline]⟩
    rw [reasonPieces_step hne fuel (by rw [hleft] at ht; exact ht), ih hutf, Option.map_none]

/-- Without a jam every piece takes something. -/
lemma exists_reasonPieces {t : Bytes} (h : Utf8 t) (hjam : ∀ b, b <:+ t → ¬ Jams b) :
    ∃ fuel pieces, reasonPieces fuel t = some pieces ∧ pieces.flatten = t := by
  induction hn : t.length using Nat.strong_induction_on generalizing t with
  | _ n ih =>
    rcases eq_or_ne t [] with rfl | hne
    · exact ⟨1, [], rfl, rfl⟩
    · obtain ⟨k, rest, ht, ⟨ds, rfl⟩, -⟩ := piece_spec h hne
      have hline : substituted (utf8SafePrefix t 72) ≠ [] := fun hnil =>
        hjam t (List.suffix_refl t) (jams_of_piece_nil h hne hnil)
      rw [List.append_assoc] at ht
      have hlen := congrArg List.length ht
      rw [List.length_append] at hlen
      have hpos := List.length_pos_iff.mpr hline
      obtain ⟨fuel, pieces, hrun, hflat⟩ := ih _ (by omega)
        ⟨List.replicate k '\n' ++ ds, by rw [Lib.utf8_append, utf8_replicate_newline]⟩
        (fun b hb => hjam b (hb.trans ⟨_, ht.symm⟩)) rfl
      refine ⟨fuel + 1, substituted (utf8SafePrefix t 72) :: pieces, ?_, ?_⟩
      · rw [reasonPieces_step hne fuel ht, hrun, Option.map_some]
      · rw [List.flatten_cons, hflat]
        exact ht.symm

/-- **The loop over a reason** stops with the whole reason printed exactly if nothing jams it. -/
theorem reasonPieces_iff {t : Bytes} (h : Utf8 t) :
    (∃ fuel pieces, reasonPieces fuel t = some pieces ∧ pieces.flatten = t) ↔ ∀ b,
      b <:+ t → ¬ Jams b := by
  refine ⟨?_, exists_reasonPieces h⟩
  rintro ⟨fuel, pieces, hrun, -⟩ b ⟨x, rfl⟩ hjam
  rw [reasonPieces_of_jams hjam fuel h] at hrun
  cases hrun

/-! ### The reasons of the server -/

/-- Deleting control characters takes whole characters. -/
lemma utf8_filter_cntrl {s : Bytes} (h : Utf8 s) : Utf8 (s.filter fun b => !isCntrl b) := by
  obtain ⟨cs, rfl⟩ := h
  induction cs with
  | nil => exact ⟨[], rfl⟩
  | cons c cs ih =>
    obtain ⟨ds, hds⟩ := ih
    obtain ⟨lead, conts, hc, hlead, hconts⟩ := Lib.utf8EncodeChar_shape c
    have hkeep : ∀ b ∈ conts, (!isCntrl b) = true := by
      intro b hb
      have := hconts b hb
      unfold isContinuation at this
      unfold isCntrl
      rw [Bool.and_eq_true, decide_eq_true_iff, decide_eq_true_iff] at this
      rw [Bool.not_eq_true', Bool.or_eq_false_iff, decide_eq_false_iff_not, decide_eq_false_iff_not]
      omega
    rw [Lib.utf8_cons, List.filter_append, hds, hc]
    rcases Bool.eq_false_or_eq_true (!isCntrl lead) with hk | hk
    · rw [List.filter_cons_of_pos (by exact hk), List.filter_eq_self.mpr hkeep]
      exact ⟨c :: ds, by rw [Lib.utf8_cons, hc]⟩
    · -- a control character is a byte of its own
      have hzero : conts = [] := by
        unfold isCntrl at hk
        rw [Bool.not_eq_false', Bool.or_eq_true, decide_eq_true_iff, decide_eq_true_iff] at hk
        generalize hn : conts.length = n at hlead
        cases hlead with
        | one => exact List.length_eq_zero_iff.mp hn
        | two => omega
        | three => omega
        | four => omega
      rw [List.filter_cons_of_neg (by rw [hk]; exact Bool.false_ne_true), hzero]
      exact ⟨ds, rfl⟩

lemma newline_notMem_filter_cntrl (s : Bytes) : newline ∉ s.filter fun b => !isCntrl b := by
  intro h
  have := (List.mem_filter.mp h).2
  revert this
  decide

/-- A reason has no newlines. -/
lemma errorResponseReason_spec {s : Bytes} (h : Utf8 s) :
    Utf8 (errorResponseReason s) ∧ newline ∉ errorResponseReason s := by
  have hno := newline_notMem_filter_cntrl s
  have hq := utf8SafePrefix_longest (utf8_filter_cntrl h) 160
  unfold errorResponseReason
  rw [substituted_of_notMem hno]
  obtain ⟨rest, hrest, hutf, -⟩ := hq.boundary
  have hno' : newline ∉ utf8SafePrefix (s.filter fun b => !isCntrl b) 160 := by
    intro hmem
    rw [hrest] at hno
    exact hno (List.mem_append_left _ hmem)
  rw [substituted_of_notMem hno']
  exact ⟨hutf, hno'⟩

/-- A text without newlines is printed whole. -/
lemma exists_reasonPieces_of_notMem {t : Bytes} (h : Utf8 t) (hno : newline ∉ t) :
    ∃ fuel pieces, reasonPieces fuel t = some pieces ∧ pieces.flatten = t := by
  refine exists_reasonPieces h fun b hb hjam => hno ?_
  obtain ⟨b', rfl⟩ := hjam.head
  exact hb.subset List.mem_cons_self

/-- **Safe prefixes and pieces.**  The prefix is the longest one that ends between two characters; a
reason is printed whole exactly if no newlines jam the loop, and a reason that the server gave
always is. -/
theorem safe_prefix_and_pieces :
    (∀ text, Utf8 text → ∀ maximum : Maximum,
      LongestPrefix text maximum (utf8SafePrefix text maximum)) ∧
    (∀ reason, Utf8 reason →
      ((∃ fuel pieces, reasonPieces fuel reason = some pieces ∧ pieces.flatten = reason) ↔
        ∀ b, b <:+ reason → ¬ Jams b)) ∧
    ∀ response, Utf8 response → ∃ fuel pieces,
      reasonPieces fuel (errorResponseReason response) = some pieces ∧
      pieces.flatten = errorResponseReason response := by
  refine ⟨fun text h maximum => utf8SafePrefix_longest h maximum,
    fun reason h => reasonPieces_iff h, fun response h => ?_⟩
  obtain ⟨hutf, hno⟩ := errorResponseReason_spec h
  exact exists_reasonPieces_of_notMem hutf hno

/-- Four bytes of a word that ends in a two-byte character, and a reason of one line. -/
theorem safe_prefix_and_pieces_word :
    LongestPrefix [99, 97, 102, 195, 169] 4 (utf8SafePrefix [99, 97, 102, 195, 169] 4) ∧
    ∃ fuel pieces, reasonPieces fuel (errorResponseReason [99, 97, 102, 195, 169, 10]) =
      some pieces ∧
      pieces.flatten = errorResponseReason [99, 97, 102, 195, 169, 10] :=
  ⟨safe_prefix_and_pieces.1 _ ⟨['c', 'a', 'f', 'é'], by decide⟩ 4,
    safe_prefix_and_pieces.2.2 _ ⟨['c', 'a', 'f', 'é', '\n'], by decide⟩⟩

/-- A reason that is a newline is printed as empty lines without end. -/
theorem newline_reason_jams :
    ¬ ∀ reason, Utf8 reason → ∃ fuel pieces, reasonPieces fuel reason = some pieces ∧
      pieces.flatten = reason := by
  intro h
  obtain ⟨fuel, pieces, hrun, -⟩ := h [newline] ⟨['\n'], rfl⟩
  have hjam : Jams [newline] := ⟨1, by omega, by omega, .inl rfl⟩
  have hnone : reasonPieces fuel ([] ++ [newline]) = none :=
    reasonPieces_of_jams hjam fuel ⟨['\n'], rfl⟩
  rw [List.nil_append, hrun] at hnone
  cases hnone

end Pxeos.Report
