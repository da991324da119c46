import Mathlib.Data.List.Basic

/-!
# UTF-8 byte strings

A byte string is valid if it is the encoding of a list of characters.  Every encoded character is a
lead byte, whose value gives the number of continuation bytes behind it, so a prefix of a valid
string that ends inside a character is found by its last lead byte.
-/

namespace Pxeos.Lib

/-- The encoding of a text. -/
def utf8 (cs : List Char) : List UInt8 := cs.flatMap String.utf8EncodeChar

/-- Valid UTF-8. -/
def Utf8 (s : List UInt8) : Prop := ∃ cs, s = utf8 cs

/-- A continuation byte. -/
def isContinuation (b : UInt8) : Bool := decide (128 ≤ b.toNat) && decide (b.toNat ≤ 191)

/-- The lead byte of a character with `n` continuation bytes. -/
inductive LeadOf (b : UInt8) : ℕ → Prop
  | one (h : b.toNat ≤ 127) : LeadOf b 0
  | two (h1 : 192 ≤ b.toNat) (h2 : b.toNat ≤ 223) : LeadOf b 1
  | three (h1 : 224 ≤ b.toNat) (h2 : b.toNat ≤ 239) : LeadOf b 2
  | four (h1 : 240 ≤ b.toNat) (h2 : b.toNat ≤ 244) : LeadOf b 3

@[simp] lemma utf8_nil : utf8 [] = [] := rfl

@[simp] lemma utf8_cons (c : Char) (cs : List Char) :
    utf8 (c :: cs) = String.utf8EncodeChar c ++ utf8 cs := rfl

@[simp] lemma utf8_append (as bs : List Char) : utf8 (as ++ bs) = utf8 as ++ utf8 bs :=
  List.flatMap_append

lemma toNat_ofNat_of_lt {n : ℕ} (h : n < 256) : (UInt8.ofNat n).toNat = n := by
  rw [UInt8.toNat_ofNat']
  exact Nat.mod_eq_of_lt h

lemma isContinuation_ofNat (n : ℕ) : isContinuation (UInt8.ofNat (n % 64 + 128)) = true := by
  have hlt := Nat.mod_lt n (show 0 < 64 by omega)
  unfold isContinuation
  rw [toNat_ofNat_of_lt (by omega), Bool.and_eq_true, decide_eq_true_iff, decide_eq_true_iff]
  omega

/-- **An encoded character**: a lead byte and as many continuation bytes as it says. -/
theorem utf8EncodeChar_shape (c : Char) :
    ∃ lead conts, String.utf8EncodeChar c = lead :: conts ∧ LeadOf lead conts.length ∧
    ∀ b ∈ conts, isContinuation b = true := by
  have hrange : c.val.toNat < 1114112 := by
    rcases c.valid with h | h
    · have h : c.val.toNat < 55296 := h
      omega
    · exact h.2
  unfold String.utf8EncodeChar
  dsimp only
  generalize c.val.toNat = v at hrange ⊢
  split
  next h1 => exact ⟨_, [], rfl, .one (by rw [toNat_ofNat_of_lt (by omega)]; exact h1), by simp⟩
  next h1 =>
    split
    next h2 =>
      refine ⟨_, _, rfl, .two ?_ ?_, ?_⟩
      · rw [toNat_ofNat_of_lt (by omega)]
        omega
      · rw [toNat_ofNat_of_lt (by omega)]
        omega
      · simp only [List.forall_mem_cons, isContinuation_ofNat, List.not_mem_nil, false_implies,
          implies_true, and_self]
    next h2 =>
      split
      next h3 =>
        refine ⟨_, _, rfl, .three ?_ ?_, ?_⟩
        · rw [toNat_ofNat_of_lt (by omega)]
          omega
        · rw [toNat_ofNat_of_lt (by omega)]
          omega
        · simp only [List.forall_mem_cons, isContinuation_ofNat, List.not_mem_nil, false_implies,
            implies_true, and_self]
      next h3 =>
        refine ⟨_, _, rfl, .four ?_ ?_, ?_⟩
        · rw [toNat_ofNat_of_lt (by omega)]
          omega
        · rw [toNat_ofNat_of_lt (by omega)]
          omega
        · simp only [List.forall_mem_cons, isContinuation_ofNat, List.not_mem_nil, false_implies,
            implies_true, and_self]

lemma LeadOf.not_continuation {b : UInt8} {n : ℕ} (h : LeadOf b n) : isContinuation b = false := by
  unfold isContinuation
  rw [Bool.and_eq_false_iff, decide_eq_false_iff_not, decide_eq_false_iff_not]
  cases h <;> omega

lemma utf8EncodeChar_length_pos (c : Char) : 0 < (String.utf8EncodeChar c).length := by
  obtain ⟨lead, conts, h, -⟩ := utf8EncodeChar_shape c
  rw [h, List.length_cons]
  omega

lemma utf8EncodeChar_length_le (c : Char) : (String.utf8EncodeChar c).length ≤ 4 := by
  obtain ⟨lead, conts, h, hlead, -⟩ := utf8EncodeChar_shape c
  rw [h, List.length_cons]
  generalize conts.length = n at hlead
  cases hlead <;> omega

/-- The first byte of a valid string is a lead byte. -/
lemma head_utf8 {cs : List Char} {b : UInt8} {s : List UInt8} (h : utf8 cs = b :: s) :
    isContinuation b = false := by
  cases cs with
  | nil => cases h
  | cons c cs =>
    obtain ⟨lead, conts, hc, hlead, -⟩ := utf8EncodeChar_shape c
    rw [utf8_cons, hc, List.cons_append] at h
    rw [← (List.cons.inj h).1]
    exact hlead.not_continuation

/-! ### Boundaries -/

/-- `q` ends between two characters of the text `s`. -/
def Boundary (s q : List UInt8) : Prop := ∃ rest, s = q ++ rest ∧ Utf8 q ∧ Utf8 rest

/-- `q` is the longest part of at most `n` bytes that ends between two characters. -/
structure LongestPrefix (s : List UInt8) (n : ℕ) (q : List UInt8) : Prop where
  boundary : Boundary s q
  le : q.length ≤ n
  longest : ∀ q', Boundary s q' → q'.length ≤ n → q'.length ≤ q.length

/-- How the first `n` bytes end: `pre` is whole, and `part` is the beginning of the next
character. -/
structure Cut (cs : List Char) (n : ℕ) (pre : List Char) (part : List UInt8) : Prop where
  take : (utf8 cs).take n = utf8 pre ++ part
  next : (cs = pre ∧ part = []) ∨
    ∃ c post, cs = pre ++ c :: post ∧ part.length < (String.utf8EncodeChar c).length ∧
      part <+: String.utf8EncodeChar c ∧
      n < (utf8 pre).length + (String.utf8EncodeChar c).length

lemma exists_cut (cs : List Char) (n : ℕ) : ∃ pre part, Cut cs n pre part := by
  induction cs generalizing n with
  | nil => exact ⟨[], [], by simp, .inl ⟨rfl, rfl⟩⟩
  | cons c cs ih =>
    rcases Nat.lt_or_ge n (String.utf8EncodeChar c).length with hlt | hge
    · refine ⟨[], (String.utf8EncodeChar c).take n, ?_,
        .inr ⟨c, cs, rfl, ?_, List.take_prefix _ _, by simpa using hlt⟩⟩
      · rw [utf8_cons, List.take_append_of_le_length (Nat.le_of_lt hlt)]
        rfl
      · rw [List.length_take]
        omega
    · obtain ⟨pre, part, htake, hnext⟩ := ih (n - (String.utf8EncodeChar c).length)
      refine ⟨c :: pre, part, ?_, ?_⟩
      · rw [utf8_cons, List.take_append, List.take_of_length_le hge, htake, utf8_cons,
          List.append_assoc]
      · rcases hnext with ⟨rfl, rfl⟩ | ⟨c', post, rfl, hlen, hpart, hn⟩
        · exact .inl ⟨rfl, rfl⟩
        · refine .inr ⟨c', post, rfl, hlen, hpart, ?_⟩
          rw [utf8_cons, List.length_append]
          omega

/-- A boundary is not inside a character. -/
lemma Utf8.not_inside {pre rest q r : List UInt8} {c : Char} (hr : Utf8 r)
    (h : pre ++ String.utf8EncodeChar c ++ rest = q ++ r) (hlt : pre.length < q.length) :
    pre.length + (String.utf8EncodeChar c).length ≤ q.length := by
  by_contra hlong
  obtain ⟨j, hj⟩ : ∃ j, q.length = pre.length + j + 1 := Nat.exists_eq_add_of_lt hlt
  obtain ⟨ds, rfl⟩ := hr
  obtain ⟨lead, conts, hc, -, hconts⟩ := utf8EncodeChar_shape c
  rw [hc, List.length_cons] at hlong
  have hjlt : j < conts.length := by omega
  -- the rest begins with the continuation byte `j`
  have hdrop : utf8 ds = conts.drop j ++ rest := by
    have hd := congrArg (List.drop q.length) h
    rw [List.drop_left, hj, hc, List.append_assoc, List.drop_append,
      List.drop_of_length_le (by omega),
      show pre.length + j + 1 - pre.length = j + 1 by
        omega, List.nil_append, List.cons_append, List.drop_succ_cons,
      List.drop_append_of_le_length (by omega)] at hd
    exact hd.symm
  rw [List.drop_eq_getElem_cons hjlt, List.cons_append] at hdrop
  have hlead := head_utf8 hdrop
  rw [hconts _ (List.getElem_mem hjlt)] at hlead
  cases hlead

/-- **The longest prefix** is what is whole. -/
theorem Cut.longestPrefix {cs : List Char} {n : ℕ} {pre : List Char} {part : List UInt8}
    (h : Cut cs n pre part) :
    LongestPrefix (utf8 cs) n (utf8 pre) := by
  have hle : (utf8 pre).length ≤ n := by
    have := congrArg List.length h.take
    rw [List.length_append] at this
    have := List.length_take_le n (utf8 cs)
    omega
  rcases h.next with ⟨rfl, rfl⟩ | ⟨c, post, rfl, -, -, hn⟩
  · refine ⟨⟨[], (List.append_nil _).symm, ⟨cs, rfl⟩, ⟨[], rfl⟩⟩, hle, ?_⟩
    rintro q' ⟨rest, hrest, -⟩ -
    rw [hrest, List.length_append]
    omega
  · refine ⟨⟨utf8 (c :: post), utf8_append _ _, ⟨pre, rfl⟩, ⟨c :: post, rfl⟩⟩, hle, ?_⟩
    rintro q' ⟨rest, hrest, -, hutf⟩ hq'
    by_contra hlong
    rw [utf8_append, utf8_cons, ← List.append_assoc] at hrest
    have := hutf.not_inside hrest (by omega)
    omega

end Pxeos.Lib
