import Pxeos.Lib.Shell

/-!
# Words and lines

How `echo` and `xargs` print words again, how `read` takes the fields of a line, and how a stream
editor takes a word out of the lines of a text.
-/

namespace Pxeos.Lib

/-! ### Printing words -/

/-- A word that `echo` takes for options. -/
def isEchoOption : Str → Bool
  | '-' :: c :: s => (c :: s).all fun x => x == 'n' || x == 'e' || x == 'E'
  | _ => false

/-- `echo` with its arguments.  The escapes that `-e` asks for stay as they are. -/
def echo (args : List Str) : Str :=
  let text := List.intercalate [' '] (args.dropWhile isEchoOption)
  if (args.takeWhile isEchoOption).any (·.contains 'n') then text else text ++ ['\n']

/-- Where `xargs` stands in its input: outside a quotation, in one, or behind a backslash. -/
inductive Quoting where
  | outside
  | quoted (q : Char)
  | escaped
  deriving DecidableEq, Repr

def Quoting.isOpen : Quoting → Bool
  | .quoted _ => true
  | _ => false

/-- The arguments in the input of `xargs`, of which a part is read; nothing if a quotation stays
open around one. -/
def argumentsFrom : Quoting → Str → Str → Option (List Str)
  | state, part, [] => if part = [] then some [] else if state.isOpen then none else some [part]
  | .escaped, part, c :: s => argumentsFrom .outside (part ++ [c]) s
  | .quoted q, part, c :: s =>
    if c = q then argumentsFrom .outside part s else argumentsFrom (.quoted q) (part ++ [c]) s
  | .outside, part, c :: s =>
    if isSpace c then if part = [] then argumentsFrom .outside [] s
    else (argumentsFrom .outside [] s).map (part :: ·)
    else if c = '\\' then argumentsFrom .escaped part s
    else if c = '\'' ∨ c = '"' then argumentsFrom (.quoted c) part s
    else argumentsFrom .outside (part ++ [c]) s

/-- `xargs` without a command of its own. -/
def xargs (s : Str) : Str :=
  match argumentsFrom .outside [] s with
  | some args => echo args
  | none => []

/-- Characters that have no meaning of their own for `xargs`. -/
def Plain (w : Str) : Prop := ∀ c ∈ w, isSpace c = false ∧ c ≠ '\\' ∧ c ≠ '\'' ∧ c ≠ '"'

lemma argumentsFrom_word {w : Str} (hw : Plain w) (part s : Str) :
    argumentsFrom .outside part (w ++ s) = argumentsFrom .outside (part ++ w) s := by
  induction w generalizing part with
  | nil => rw [List.nil_append, List.append_nil]
  | cons c w ih =>
    obtain ⟨hspace, hback, hsingle, hdouble⟩ := hw c List.mem_cons_self
    rw [List.cons_append, argumentsFrom, if_neg (by rw [hspace]; exact Bool.false_ne_true),
      if_neg hback,
      if_neg (not_or.mpr ⟨hsingle, hdouble⟩), ih (fun x hx => hw x (List.mem_cons_of_mem _ hx)),
        List.append_assoc]
    rfl

/-- Words with a blank in front of each, in a line, are the arguments. -/
lemma argumentsFrom_blanks {ws : List Str} (hne : ∀ w ∈ ws, w ≠ []) (hws : ∀ w ∈ ws, Plain w)
    (part : Str) :
    argumentsFrom .outside part (ws.flatMap (' ' :: ·) ++ ['\n']) =
      some (if part = [] then ws else part :: ws) := by
  induction ws generalizing part with
  | nil =>
    have hspace : isSpace '\n' = true := by decide
    rw [List.flatMap_nil, List.nil_append, argumentsFrom, if_pos hspace, argumentsFrom, if_pos rfl]
    split
    · rfl
    · rfl
  | cons w ws ih =>
    have ih :=
      ih (fun v hv => hne v (List.mem_cons_of_mem _ hv))
        (fun v hv => hws v (List.mem_cons_of_mem _ hv)) w
    have hblank : isSpace ' ' = true := by decide
    rw [List.flatMap_cons, List.cons_append, List.cons_append, argumentsFrom, if_pos hblank,
      List.append_assoc,
      argumentsFrom_word (hws w List.mem_cons_self), List.nil_append, ih,
        if_neg (hne w List.mem_cons_self)]
    split
    · rfl
    · rfl

lemma isEchoOption_of_head {c : Char} {w : Str} (hc : c ≠ '-') : isEchoOption (c :: w) = false := by
  unfold isEchoOption
  split
  · rename_i heq
    exact absurd (List.cons.inj heq).1 hc
  · rfl

lemma echo_of_head {w : Str} {ws : List Str} (hw : isEchoOption w = false) :
    echo (w :: ws) = List.intercalate [' '] (w :: ws) ++ ['\n'] := by
  unfold echo
  rw [List.dropWhile_cons_of_neg (by rw [hw]; exact Bool.false_ne_true),
    List.takeWhile_cons_of_neg (by rw [hw]; exact Bool.false_ne_true)]
  rfl

lemma echo_single {w : Str} (hw : isEchoOption w = false) : echo [w] = w ++ ['\n'] := by
  rw [echo_of_head hw, List.intercalate_singleton]

/-! ### Reading fields -/

/-- `IFS=d read -r` into so many variables, for a separator that is no blank: the last variable gets
what is left, without the separator of a field behind which nothing stands. -/
def readMany (d : Char) : ℕ → Str → List Str
  | 0, _ => []
  | 1, line =>
    let w := line.takeWhile (· ≠ d)
    [if line = w ++ [d] then w else line]
  | n + 2, line => line.takeWhile (· ≠ d) :: readMany d (n + 1) ((line.dropWhile (· ≠ d)).drop 1)

lemma readMany_cons {d : Char} {w : Str} (hw : d ∉ w) (n : ℕ) (rest : Str) :
    readMany d (n + 2) (w ++ d :: rest) = w :: readMany d (n + 1) rest := by
  have hall : ∀ x ∈ w, decide (x ≠ d) = true := fun x hx => decide_eq_true fun h => hw (h ▸ hx)
  rw [readMany, List.takeWhile_append_of_pos hall, List.dropWhile_append_of_pos hall]
  simp

/-- What stands in words with separators between them. -/
lemma mem_intercalate {sep : Str} {ws : List Str} {c : Char} (h : c ∈ List.intercalate sep ws) :
    c ∈ sep ∨ ∃ w ∈ ws, c ∈ w := by
  induction ws with
  | nil => cases h
  | cons w ws ih =>
    cases ws with
    | nil =>
      rw [List.intercalate_singleton] at h
      exact .inr ⟨w, List.mem_cons_self, h⟩
    | cons v ws =>
      rw [List.intercalate_cons_cons, List.append_assoc, List.mem_append, List.mem_append] at h
      rcases h with h | h | h
      · exact .inr ⟨w, List.mem_cons_self, h⟩
      · exact .inl h
      · rcases ih h with h | ⟨u, hu, h⟩
        · exact .inl h
        · exact .inr ⟨u, List.mem_cons_of_mem _ hu, h⟩

/-! ### Editing lines -/

/-- Whether a pattern of single characters, with a dot for any character, begins a text. -/
def matchesHere : Str → Str → Bool
  | [], _ => true
  | _ :: _, [] => false
  | p :: ps, c :: s => (p == '.' || p == c) && matchesHere ps s

/-- `s/pat/new/g` in a line; what is left of a match comes first. -/
def substituteFrom (pat new : Str) : ℕ → Str → Str
  | _, [] => []
  | skip + 1, _ :: s => substituteFrom pat new skip s
  | 0, c :: s =>
    if matchesHere pat (c :: s) then new ++ substituteFrom pat new (pat.length - 1) s
    else c :: substituteFrom pat new 0 s

/-- `s/pat/new/g` in a line. -/
def substituteAll (pat new line : Str) : Str := substituteFrom pat new 0 line

/-- `s/^ *//; s/ *$//`. -/
def trimBlanks (line : Str) : Str :=
  ((line.dropWhile (· = ' ')).reverse.dropWhile (· = ' ')).reverse

/-- A word between blanks. -/
lemma trimBlanks_replicate {w : Str} (h : ' ' ∉ w) (a b : ℕ) :
    trimBlanks (List.replicate a ' ' ++ (w ++ List.replicate b ' ')) = w := by
  have hall : ∀ n, ∀ c ∈ List.replicate n ' ', decide (c = ' ') = true := fun n c hc =>
    decide_eq_true (List.eq_of_mem_replicate hc)
  unfold trimBlanks
  rw [List.dropWhile_append_of_pos (hall a)]
  rcases w with - | ⟨c, w⟩
  · rw [List.nil_append, List.dropWhile_eq_nil_iff.mpr (hall b)]
    rfl
  · have hhead : ¬ decide (c = ' ') = true :=
      fun hc => h (of_decide_eq_true hc ▸ List.mem_cons_self)
    have hlast : ∀ x ∈ (c :: w).reverse.head?, ¬ decide (x = ' ') = true := fun x hx hc =>
      h (of_decide_eq_true hc ▸ List.mem_reverse.mp (List.mem_of_mem_head? hx))
    rw [List.cons_append, List.dropWhile_cons_of_neg (p := fun x => decide (x = ' ')) hhead,
      ← List.cons_append, List.reverse_append, List.reverse_replicate,
      List.dropWhile_append_of_pos (hall b)]
    cases hr : (c :: w).reverse with
    | nil => cases List.reverse_eq_nil_iff.mp hr
    | cons x r =>
      rw [List.dropWhile_cons_of_neg (p := fun x => decide (x = ' ')) (hlast x (by rw [hr]; rfl)),
        ← hr, List.reverse_reverse]

/-- A pattern with more blanks than the text has is not there. -/
lemma matchesHere_count {pat s : Str} (h : matchesHere pat s = true) :
    pat.count ' ' ≤ s.count ' ' := by
  induction pat generalizing s with
  | nil => rw [List.count_nil]; exact Nat.zero_le _
  | cons p pat ih =>
    cases s with
    | nil => cases h
    | cons c s =>
      rw [matchesHere, Bool.and_eq_true, Bool.or_eq_true, beq_iff_eq, beq_iff_eq] at h
      have := ih h.2
      rw [List.count_cons, List.count_cons]
      rcases h.1 with rfl | rfl
      · have hdot : ('.' == ' ') = false := rfl
        rw [hdot, if_neg Bool.false_ne_true]
        omega
      · omega

lemma substituteAll_eq_self {pat new line : Str} (h : line.count ' ' < pat.count ' ') :
    substituteAll pat new line = line := by
  unfold substituteAll
  induction line with
  | nil => rfl
  | cons c line ih =>
    have hnot : ¬ matchesHere pat (c :: line) = true := fun hm => by
      have := matchesHere_count hm
      omega
    rw [substituteFrom, if_neg hnot, ih (by rw [List.count_cons] at h; omega)]

lemma matchesHere_self (pat s : Str) : matchesHere pat (pat ++ s) = true := by
  induction pat with
  | nil => rfl
  | cons p pat ih =>
    rw [List.cons_append, matchesHere, ih, Bool.and_true, beq_self_eq_true, Bool.or_true]

lemma substituteFrom_length {pat new s : Str} : substituteFrom pat new s.length s = [] := by
  induction s with
  | nil => rfl
  | cons c s ih => exact ih

lemma substituteAll_self {pat new : Str} (h : pat ≠ []) : substituteAll pat new pat = new := by
  obtain ⟨c, pat, rfl⟩ := List.exists_cons_of_ne_nil h
  have hself := matchesHere_self (c :: pat) []
  rw [List.append_nil] at hself
  unfold substituteAll
  rw [substituteFrom, if_pos hself, List.length_cons, Nat.add_sub_cancel, substituteFrom_length,
    List.append_nil]

end Pxeos.Lib
