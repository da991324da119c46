import Mathlib.Data.Nat.Notation
import Mathlib.Data.List.Basic
import Mathlib.Data.List.TakeWhile
import Mathlib.Tactic.IntervalCases
import Pxeos.Lib.Text

/-!
# Text between commands

What a shell script makes of the text that its commands print, and `awk` of the text it is given:
what a command substitution keeps, the records of a text, the fields of a record, the escapes of a
value given on the command line, and the pattern of a repeated word.
-/

namespace Pxeos.Lib

/-- A text. -/
abbrev Str := List Char

/-! ### Command substitution -/

/-- `$(…)`: no NUL, and no newline at the end. -/
def captured (s : Str) : Str := ((s.filter (· ≠ '\x00')).reverse.dropWhile (· = '\n')).reverse

/-- A text behind which only newlines stand. -/
lemma captured_eq_iff {t w : Str} (hz : '\x00' ∉ t) (hw : w.getLast? ≠ some '\n') :
    captured t = w ↔ ∃ k, t = w ++ List.replicate k '\n' := by
  have hfilter : t.filter (· ≠ '\x00') = t := by
    rw [List.filter_eq_self]
    intro c hc
    refine decide_eq_true ?_
    rintro rfl
    exact hz hc
  unfold captured
  rw [hfilter]
  constructor
  · rintro rfl
    have hsplit :=
      congrArg List.reverse (List.takeWhile_append_dropWhile (p := (· = '\n')) (l := t.reverse))
    rw [List.reverse_append, List.reverse_reverse] at hsplit
    refine ⟨(t.reverse.takeWhile (· = '\n')).length, ?_⟩
    conv_lhs => rw [← hsplit]
    refine congrArg _ ?_
    rw [List.eq_replicate_iff, List.length_reverse]
    refine ⟨rfl, fun c hc => ?_⟩
    have := List.mem_takeWhile_imp (List.mem_reverse.mp hc)
    exact of_decide_eq_true this
  · rintro ⟨k, rfl⟩
    rw [List.reverse_append, List.reverse_replicate, List.dropWhile_append_of_pos]
    · cases hr : w.reverse with
      | nil => rw [List.dropWhile_nil, ← hr, List.reverse_reverse]
      | cons c r =>
        have hc : c ≠ '\n' := by
          rintro rfl
          rw [List.getLast?_eq_head?_reverse, hr] at hw
          exact hw rfl
        rw [List.dropWhile_cons_of_neg (by simpa using hc), ← hr, List.reverse_reverse]
    · intro c hc
      exact decide_eq_true (List.eq_of_mem_replicate hc)

/-- A line of a text without newlines at its end. -/
lemma captured_line {t : Str} (hz : '\x00' ∉ t) (hlast : t.getLast? ≠ some '\n') :
    captured (t ++ ['\n']) = t := by
  refine (captured_eq_iff ?_ hlast).mpr ⟨1, rfl⟩
  exact fun h => (List.mem_append.mp h).elim hz (by decide)

/-! ### Records -/

/-- The records of a text: the lines, of which the last one may have no newline. -/
def records (s : Str) : List Str :=
  match (s.splitOn '\n').reverse with
  | [] :: rest => rest.reverse
  | lines => lines.reverse

lemma records_concat {s l : Str} {init : List Str} (h : s.splitOn '\n' = init ++ [l])
    (hl : l ≠ []) : records s = init ++ [l] := by
  cases l with
  | nil => exact absurd rfl hl
  | cons c l =>
    unfold records
    rw [h, List.reverse_append]
    have hreverse : ((c :: l) :: init.reverse).reverse = init ++ [c :: l] := by simp
    exact hreverse

/-- The lines of a text that end, as a loop over `read` sees them. -/
def endedLines (text : Str) : List Str := (text.splitOn '\n').dropLast

lemma endedLines_prefix_records (text : Str) : endedLines text <+: records text := by
  rcases List.eq_nil_or_concat (text.splitOn '\n') with hnil | ⟨init, last, hsplit⟩
  · exact absurd hnil (List.splitOn_ne_nil '\n' text)
  · rw [endedLines, hsplit, List.concat_eq_append, List.dropLast_concat]
    cases last with
    | nil =>
      unfold records
      rw [hsplit, List.concat_eq_append, List.reverse_append]
      show init <+: init.reverse.reverse
      rw [List.reverse_reverse]
    | cons c last =>
      rw [records_concat (hsplit.trans (List.concat_eq_append ..)) (List.cons_ne_nil _ _)]
      exact List.prefix_append _ _

/-- A line without the carriage return at its end. -/
def stripCr (line : Str) : Str := if line.getLast? = some '\r' then line.dropLast else line

/-- The fields of a record between tabs. -/
def tabFields (line : Str) : List Str := if line = [] then [] else line.splitOn '\t'

/-- The fields of a record between blanks. -/
def blankFields (line : Str) : List Str :=
  (line.splitOnP fun c => c == ' ' || c == '\t' || c == '\n').filter (· ≠ [])

lemma not_of_mem_splitOnP {p : Char → Bool} {line w : Str} (h : w ∈ line.splitOnP p) :
    ∀ c ∈ w, p c = false := by
  induction line generalizing w with
  | nil =>
    rw [List.splitOnP_nil, List.mem_singleton] at h
    simp [h]
  | cons x line ih =>
    rw [List.splitOnP_cons_eq_if_modifyHead] at h
    split at h
    · rcases List.mem_cons.mp h with rfl | h
      · simp
      · exact ih h
    · rename_i hx
      -- the first piece of the rest gets one more character
      cases hs : line.splitOnP p with
      | nil => exact absurd hs (List.splitOnP_ne_nil p line)
      | cons v ws =>
        rw [hs, List.modifyHead_cons] at h
        rcases List.mem_cons.mp h with rfl | h
        · intro c hc
          rcases List.mem_cons.mp hc with rfl | hc
          · simpa using hx
          · exact ih (hs ▸ List.mem_cons_self) c hc
        · exact ih (hs ▸ List.mem_cons_of_mem _ h)

lemma notMem_of_mem_blankFields {line w : Str} (h : w ∈ blankFields line) : '\n' ∉ w := by
  intro hc
  have := not_of_mem_splitOnP (List.mem_of_mem_filter h) '\n' hc
  simp at this

lemma notMem_of_mem_endedLines {text line : Str} (h : line ∈ endedLines text) : '\n' ∉ line := by
  intro hc
  have := not_of_mem_splitOnP (List.mem_of_mem_dropLast h) '\n' hc
  simp at this

lemma word_of_mem_blankFields {text w : Str} (h : w ∈ blankFields text) : w ≠ [] ∧ ' ' ∉ w := by
  unfold blankFields at h
  obtain ⟨hmem, hne⟩ := List.mem_filter.mp h
  refine ⟨of_decide_eq_true hne, fun hc => ?_⟩
  have := not_of_mem_splitOnP hmem ' ' hc
  simp at this

/-- Words without blanks between single ones. -/
lemma blankFields_intercalate {d : Char} (hd : d = ' ' ∨ d = '\n') {ws : List Str}
    (hws : ∀ w ∈ ws, w ≠ [] ∧ ∀ c ∈ w, (c == ' ' || c == '\t' || c == '\n') = false) :
    blankFields (List.intercalate [d] ws) = ws := by
  have hsep : (d == ' ' || d == '\t' || d == '\n') = true := by rcases hd with rfl | rfl <;> rfl
  induction ws with
  | nil => rfl
  | cons w ws ih =>
    obtain ⟨hne, hw⟩ := hws w List.mem_cons_self
    cases ws with
    | nil =>
      rw [List.intercalate_singleton]
      unfold blankFields
      rw [List.splitOnP_eq_singleton hw, List.filter_cons_of_pos (by simpa using hne)]
      rfl
    | cons v ws =>
      have ih := ih fun u hu => hws u (List.mem_cons_of_mem _ hu)
      unfold blankFields at ih ⊢
      rw [List.intercalate_cons_cons, List.append_assoc, List.singleton_append,
        List.splitOnP_append_cons_of_forall_mem hw d hsep,
          List.filter_cons_of_pos (by simpa using hne), ih]

/-- `IFS=d read -r first rest` for a separator that is no blank: a single separator at the end of
the rest is dropped. -/
def readTwo (d : Char) (line : Str) : Str × Str :=
  let rest := (line.dropWhile (· ≠ d)).drop 1
  let last := rest.takeWhile (· ≠ d)
  (line.takeWhile (· ≠ d), if rest = last ++ [d] then last else rest)

/-- Lines with their newlines. -/
def unlines (lines : List Str) : Str := lines.flatMap fun l => l ++ ['\n']

lemma splitOn_unlines {lines : List Str} (h : ∀ l ∈ lines, '\n' ∉ l) :
    (unlines lines).splitOn '\n' = lines ++ [[]] := by
  induction lines with
  | nil => rfl
  | cons l lines ih =>
    have hl : '\n' ∉ l := h l List.mem_cons_self
    have hrec := ih fun m hm => h m (List.mem_cons_of_mem _ hm)
    show ((l ++ ['\n']) ++ unlines lines).splitOn '\n' = _
    rw [List.append_assoc, List.singleton_append, List.splitOn_append_cons_self, hrec,
      List.splitOn_eq_singleton hl]
    rfl

/-- The lines that were written are the records that are read. -/
lemma records_unlines {lines : List Str} (h : ∀ l ∈ lines, '\n' ∉ l) :
    records (unlines lines) = lines := by
  unfold records
  rw [splitOn_unlines h, List.reverse_append]
  exact List.reverse_reverse lines

lemma unlines_concat (lines : List Str) (l : Str) :
    unlines (lines ++ [l]) = unlines lines ++ (l ++ ['\n']) := by
  simp [unlines]

lemma filter_unlines (lines : List Str) :
    (unlines lines).filter (· ≠ '\x00') = unlines (lines.map (List.filter (· ≠ '\x00'))) := by
  induction lines with
  | nil => rfl
  | cons l lines ih =>
    show ((l ++ ['\n']) ++ unlines lines).filter (· ≠ '\x00') =
      (l.filter (· ≠ '\x00') ++ ['\n']) ++ unlines _
    rw [List.filter_append, List.filter_append, ih]
    rfl

/-- What is captured of lines that are not empty, read again line by line. -/
lemma records_captured_unlines {lines : List Str} (hne : lines ≠ []) (hnl : ∀ l ∈ lines, '\n' ∉ l)
    (hlast : ∀ l ∈ lines, l.filter (· ≠ '\x00') ≠ []) :
    records (captured (unlines lines) ++ ['\n']) = lines.map (List.filter (· ≠ '\x00')) := by
  have hnl' : ∀ l ∈ lines.map (List.filter (· ≠ '\x00')), '\n' ∉ l := by
    intro l hl
    obtain ⟨l', hl', rfl⟩ := List.mem_map.mp hl
    exact fun h => hnl l' hl' (List.mem_of_mem_filter h)
  have hclose : captured (unlines lines) ++ ['\n'] =
      unlines (lines.map (List.filter (· ≠ '\x00'))) := by
    obtain ⟨init, l, rfl⟩ := (List.eq_nil_or_concat' _).resolve_left hne
    have hl : l.filter (· ≠ '\x00') ≠ [] := hlast l (by simp)
    unfold captured
    rw [filter_unlines, List.map_append, List.map_singleton, unlines_concat]
    obtain ⟨pre, c, hc⟩ := (List.eq_nil_or_concat' _).resolve_left hl
    have hcn : c ≠ '\n' := by
      rintro rfl
      have hmem : '\n' ∈ l.filter (· ≠ '\x00') := by rw [hc]; simp
      exact hnl l (by simp) (List.mem_of_mem_filter hmem)
    rw [hc]
    simp [hcn]
  rw [hclose, records_unlines hnl']

lemma readTwo_append {d : Char} {a b : Str} (ha : d ∉ a) (hb : d ∉ b) :
    readTwo d (a ++ d :: b) = (a, b) := by
  have hall : ∀ x ∈ a, decide (x ≠ d) = true := fun x hx => decide_eq_true fun h => ha (h ▸ hx)
  have hallb : ∀ x ∈ b, decide (x ≠ d) = true := fun x hx => decide_eq_true fun h => hb (h ▸ hx)
  unfold readTwo
  have hdrop : ((a ++ d :: b).dropWhile (· ≠ d)).drop 1 = b := by
    rw [List.dropWhile_append_of_pos hall]
    simp
  have htake : (a ++ d :: b).takeWhile (· ≠ d) = a := by
    rw [List.takeWhile_append_of_pos hall]
    simp
  simp only [hdrop, htake, List.takeWhile_eq_self_iff.mpr hallb]
  simp

/-- Three fields. -/
lemma tabFields_three {a b c : Str} (ha : '\t' ∉ a) (hb : '\t' ∉ b) (hc : '\t' ∉ c) :
    tabFields (a ++ '\t' :: (b ++ '\t' :: c)) = [a, b, c] := by
  unfold tabFields
  rw [if_neg (by simp), List.splitOn_append_cons_self, List.splitOn_append_cons_self,
    List.splitOn_eq_singleton ha,
    List.splitOn_eq_singleton hb, List.splitOn_eq_singleton hc]
  rfl

/-! ### Classes of texts -/

/-- `[[:space:]]`. -/
def isSpace (c : Char) : Bool := c == ' ' || ('\t' ≤ c && c ≤ '\r')

lemma isSpace_of_isAlphanum {c : Char} (h : c.isAlphanum = true) : isSpace c = false := by
  by_contra hs
  simp only [isSpace, Bool.not_eq_false, Bool.or_eq_true, beq_iff_eq, Bool.and_eq_true,
    decide_eq_true_eq] at hs
  have hnat : c.toNat ≤ 32 := by
    rcases hs with rfl | ⟨-, hle⟩
    · decide
    · have : c.toNat ≤ ('\r' : Char).toNat := hle
      exact le_trans this (by decide)
  simp only [Char.isAlphanum, isAlpha_eq, isUpper_eq, isLower_eq, Char.isDigit, Bool.or_eq_true,
    Bool.and_eq_true,
    decide_eq_true_eq, ge_iff_le, UInt32.le_iff_toNat_le] at h
  have hval : c.val.toNat = c.toNat := rfl
  rw [hval] at h
  revert h
  simp
  omega

/-- `^[0-9]+$`. -/
def isNumber (s : Str) : Bool := s != [] && s.all Char.isDigit

/-- `^[1-9][0-9]*$`. -/
def isPositive (s : Str) : Bool :=
  match s with
  | [] => false
  | c :: rest => c != '0' && c.isDigit && rest.all Char.isDigit

lemma isPositive_append {s : Str} (h : isPositive s = true) {c : Char} (hc : c.isDigit = true) :
    isPositive (s ++ [c]) = true := by
  cases s with
  | nil => cases h
  | cons d s =>
    simp only [isPositive, Bool.and_eq_true] at h
    simp [isPositive, h, hc]

lemma notMem_of_isPositive {s : Str} (h : isPositive s = true) {c : Char} (hc : c.isDigit = false) :
    c ∉ s := by
  cases s with
  | nil => cases h
  | cons d s =>
    simp only [isPositive, Bool.and_eq_true, List.all_eq_true] at h
    rw [List.mem_cons, not_or]
    constructor
    · rintro rfl
      exact absurd h.1.2 (by simp [hc])
    · intro hmem
      exact absurd (h.2 c hmem) (by simp [hc])

lemma isPositive_toDigits {n : ℕ} (h : 0 < n) : isPositive (Nat.toDigits 10 n) = true := by
  induction n using Nat.strong_induction_on with
  | _ n ih =>
    rw [Nat.toDigits_eq_if (by decide)]
    split
    · rename_i hn
      interval_cases n <;> decide
    · rename_i hn
      have hlt : n / 10 < n := Nat.div_lt_self h (by decide)
      have hpos : 0 < n / 10 := Nat.div_pos (by omega) (by decide)
      have hdigit : (Nat.digitChar (n % 10)).isDigit = true := by
        rw [Nat.isDigit_digitChar, decide_eq_true_eq]
        exact Nat.mod_lt _ (by decide)
      exact isPositive_append (ih _ hlt hpos) hdigit

/-! ### Lists in a text -/

/-- The words of a list, each with the separator behind it. -/
def fenced (d : Char) (ws : List Str) : Str := ws.flatMap fun w => w ++ [d]

lemma intercalate_fenced {d : Char} {ws : List Str} (h : ws ≠ []) :
    List.intercalate [d] ws ++ [d] = fenced d ws := by
  induction ws with
  | nil => exact absurd rfl h
  | cons w ws ih =>
    cases ws with
    | nil => simp [fenced]
    | cons v ws =>
      rw [List.intercalate_cons_cons, List.append_assoc, List.append_assoc, ih (by simp)]
      simp [fenced]

/-- What begins with the separator does not begin inside a word. -/
lemma infix_append_word {d : Char} {v k t : Str} (hv : d ∉ v) (h : d :: k <:+: v ++ t) :
    d :: k <:+: t := by
  induction v with
  | nil => exact h
  | cons c v ih =>
    rw [List.mem_cons, not_or] at hv
    rcases List.infix_cons_iff.mp h with h | h
    · exact absurd (List.cons_prefix_cons.mp h).1 hv.1
    · exact ih hv.2 h

lemma infix_fenced {d : Char} {w : Str} (hw : d ∉ w) {ws : List Str} (hws : ∀ v ∈ ws, d ∉ v) :
    d :: w ++ [d] <:+: d :: fenced d ws ↔ w ∈ ws := by
  induction ws with
  | nil =>
    simp only [fenced, List.flatMap_nil, List.not_mem_nil, iff_false]
    intro h
    have := h.length_le
    simp at this
  | cons v ws ih =>
    have hv : d ∉ v := hws v List.mem_cons_self
    have ih := ih fun u hu => hws u (List.mem_cons_of_mem _ hu)
    have hstep : d :: fenced d (v :: ws) = d :: (v ++ (d :: fenced d ws)) := by simp [fenced]
    rw [hstep, List.mem_cons]
    constructor
    · intro h
      rcases List.infix_cons_iff.mp h with h | h
      · left
        have h : w ++ [d] <+: v ++ (d :: fenced d ws) := (List.cons_prefix_cons.mp h).2
        have h' : v ++ [d] <+: v ++ (d :: fenced d ws) := ⟨fenced d ws, by simp⟩
        exact tight_prefix_eq hw hv h h'
      · right
        exact ih.mp (infix_append_word hv h)
    · rintro (rfl | h)
      · exact ⟨[], fenced d ws, by simp⟩
      · refine (ih.mpr h).trans ?_
        exact ⟨d :: v, [], by simp⟩

/-- A word is one of those of a text when it stands there between two separators. -/
lemma infix_intercalate {d : Char} {w : Str} (hne : w ≠ []) (hw : d ∉ w) {ws : List Str}
    (hws : ∀ v ∈ ws, d ∉ v) :
    d :: w ++ [d] <:+: d :: List.intercalate [d] ws ++ [d] ↔ w ∈ ws := by
  rcases ws with _ | ⟨v, ws⟩
  · simp only [List.intercalate_nil, List.not_mem_nil, iff_false]
    intro h
    have := h.length_le
    have hlen : 0 < w.length := List.length_pos_of_ne_nil hne
    simp only [List.length_append, List.length_cons, List.length_nil] at this
    omega
  · rw [List.cons_append, List.cons_append, intercalate_fenced (by simp)]
    exact infix_fenced hw hws

/-! ### Escapes -/

def octalDigit (c : Char) : Option ℕ := if '0' ≤ c ∧ c ≤ '7' then some (c.toNat - 48) else none

def hexDigit (c : Char) : Option ℕ :=
  if '0' ≤ c ∧ c ≤ '9' then some (c.toNat - 48)
  else if 'a' ≤ c ∧ c ≤ 'f' then some (c.toNat - 87)
  else if 'A' ≤ c ∧ c ≤ 'F' then some (c.toNat - 55)
  else none

/-- Where `awk` is in an escape: before one, after the backslash, or in the digits of a number. -/
inductive Escape where
  | plain
  | slash
  | octal (value digits : ℕ)
  | hex (value digits : ℕ)
  deriving DecidableEq, Repr

/-- The character of a simple escape; an unknown one is the character itself. -/
def escaped (c : Char) : Char :=
  if c = 'a' then '\x07' else if c = 'b' then '\x08' else if c = 'f' then '\x0c'
  else if c = 'n' then '\n'
  else if c = 'r' then '\r' else if c = 't' then '\t' else if c = 'v' then '\x0b' else c

/-- What stands for a number that has ended. -/
def Escape.flush : Escape → Str
  | .plain => []
  | .slash => ['\\']
  | .octal v _ => [Char.ofNat (v % 256)]
  | .hex v n => if n = 0 then ['x'] else [Char.ofNat v]

def unescapeFrom : Escape → Str → Str
  | e, [] => e.flush
  | .plain, c :: s => if c = '\\' then unescapeFrom .slash s else c :: unescapeFrom .plain s
  | .slash, c :: s =>
    match octalDigit c with
    | some d => unescapeFrom (.octal d 1) s
    | none =>
      if c = 'x' then unescapeFrom (.hex 0 0) s
      else if c = '\n' then unescapeFrom .plain s
      else escaped c :: unescapeFrom .plain s
  | .octal v n, c :: s =>
    match if n < 3 then octalDigit c else none with
    | some d => unescapeFrom (.octal (8 * v + d) (n + 1)) s
    | none =>
      Escape.flush (.octal v n) ++ if c = '\\' then unescapeFrom .slash s
        else c :: unescapeFrom .plain s
  | .hex v n, c :: s =>
    match if n < 2 then hexDigit c else none with
    | some d => unescapeFrom (.hex (16 * v + d) (n + 1)) s
    | none =>
      Escape.flush (.hex v n) ++ if c = '\\' then unescapeFrom .slash s
        else c :: unescapeFrom .plain s

/-- The value of `-v name=text`. -/
def unescape (s : Str) : Str := unescapeFrom .plain s

lemma unescape_of_notMem {s : Str} (h : '\\' ∉ s) : unescape s = s := by
  unfold unescape
  induction s with
  | nil => rfl
  | cons c s ih =>
    rw [List.mem_cons, not_or] at h
    unfold unescapeFrom
    rw [if_neg (Ne.symm h.1), ih h.2]

/-! ### Patterns -/

/-- A text that is one or more of the words, in at most so many steps. -/
def plusGlobIn (words : List Str) : ℕ → Str → Bool
  | 0, _ => false
  | n + 1, t => words.any fun w =>
    w.isPrefixOf t && (t.drop w.length == [] || plusGlobIn words n (t.drop w.length))

/-- The extended pattern `+(…)` of words that are not empty. -/
def plusGlob (words : List Str) (t : Str) : Bool := plusGlobIn words t.length t

lemma plusGlobIn_spec {words : List Str} {n : ℕ} {t : Str} (h : plusGlobIn words n t = true) :
    ∃ ws, ws ≠ [] ∧ (∀ w ∈ ws, w ∈ words) ∧ t = ws.flatten := by
  induction n generalizing t with
  | zero => cases h
  | succ n ih =>
    rw [plusGlobIn, List.any_eq_true] at h
    obtain ⟨w, hw, h⟩ := h
    rw [Bool.and_eq_true, Bool.or_eq_true, beq_iff_eq, List.isPrefixOf_iff_prefix] at h
    obtain ⟨⟨rest, rfl⟩, h⟩ := h
    rw [List.drop_left] at h
    rcases h with rfl | h
    · refine ⟨[w], List.cons_ne_nil _ _, fun v hv => ?_, by simp⟩
      rwa [List.mem_singleton.mp hv]
    · obtain ⟨ws, -, hws, rfl⟩ := ih h
      refine ⟨w :: ws, List.cons_ne_nil _ _, fun v hv => ?_, rfl⟩
      rcases List.mem_cons.mp hv with rfl | hv
      · exact hw
      · exact hws v hv

lemma plusGlobIn_flatten {words ws : List Str} (hempty : [] ∉ words) (hne : ws ≠ [])
    (hws : ∀ w ∈ ws, w ∈ words) {n : ℕ} (hn : ws.flatten.length ≤ n) :
    plusGlobIn words n ws.flatten = true := by
  induction ws generalizing n with
  | nil => exact absurd rfl hne
  | cons w ws ih =>
    have hw := hws w List.mem_cons_self
    have hpos : 0 < w.length := List.length_pos_of_ne_nil fun h => hempty (h ▸ hw)
    rw [List.flatten_cons, List.length_append] at hn
    obtain ⟨n, rfl⟩ := Nat.exists_eq_add_of_le' (show 1 ≤ n by omega)
    rw [plusGlobIn, List.any_eq_true]
    refine ⟨w, hw, ?_⟩
    rw [List.flatten_cons, List.drop_left, Bool.and_eq_true, Bool.or_eq_true, beq_iff_eq,
      List.isPrefixOf_iff_prefix]
    refine ⟨List.prefix_append _ _, ?_⟩
    by_cases hlast : ws = []
    · rw [hlast]
      exact .inl rfl
    · exact .inr (ih hlast (fun v hv => hws v (List.mem_cons_of_mem w hv)) (by omega))

/-- **What the pattern matches**: one or more of its words, one behind the other. -/
theorem plusGlob_iff {words : List Str} (hempty : [] ∉ words) {t : Str} :
    plusGlob words t = true ↔ ∃ ws, ws ≠ [] ∧ (∀ w ∈ ws, w ∈ words) ∧ t = ws.flatten := by
  refine ⟨plusGlobIn_spec, ?_⟩
  rintro ⟨ws, hne, hws, rfl⟩
  exact plusGlobIn_flatten hempty hne hws le_rfl

end Pxeos.Lib
