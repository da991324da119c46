import Pxeos.Lib.Shell
import Pxeos.Sfdisk.Table

/-!
# The types of extended partitions

The scripts decide in four places whether a partition type is that of an extended partition.  The
four agree on the spellings of `sfdisk` and `blkid`, and part on two kinds of others: a code with
zeros before it, and several codes in one.
-/

namespace Pxeos.Sfdisk

open Pxeos.Lib

/-! ### The four tests -/

/-- `is_extended` of `rootpxe_build_original_schema`. -/
def isExtended (value : Text) : Bool := isExtendedType value

/-- `${value#0x}`. -/
def withoutPrefix : Text → Text
  | '0' :: 'x' :: rest => rest
  | t => t

/-- A digit of `[0-9a-f]`. -/
def isHexLower (c : Char) : Bool := c.isDigit || ('a' ≤ c && c ≤ 'f')

/-- The loop that takes zeros away. -/
def stripZeros : Text → Text
  | '0' :: c :: t => stripZeros (c :: t)
  | t => t

/-- A type without the zeros before it. -/
def withoutZeros (value : Text) : Text :=
  if value.length = 2 ∧ value.head? = some '0' ∧ value.tail.all isHexLower = true then value.tail
  else if value ≠ [] ∧ value.all Char.isDigit = true then stripZeros value
  else value

/-- `rootpxe_preflight_normalized_type`. -/
def preflightNormalizedType (value : Text) : Text :=
  withoutZeros (withoutPrefix (value.map Char.toLower)) ++ ['\n']

/-- The codes of extended partitions. -/
def extendedCodes : List Text := ["5".toList, "f".toList, "85".toList]

/-- `rootpxe_preflight_extended_type`. -/
def preflightExtendedType (value : Text) : Bool :=
  decide (captured (preflightNormalizedType value) ∈ extendedCodes)

/-- The words of the pattern in `partitionIsDosExtended`. -/
def dosWords : List Text :=
  ["5".toList, "f".toList, "85".toList, "0x5".toList, "0xf".toList, "0x85".toList]

/-- The test of `partitionIsDosExtended`. -/
def dosExtendedType (parttype : Text) : Bool := plusGlob dosWords (parttype.map Char.toLower)

/-- The four tests give one verdict. -/
def Agree (value : Text) : Prop :=
  isExtended value = isExtendedType value ∧ preflightExtendedType value = isExtendedType value ∧
    dosExtendedType value = isExtendedType value

/-! ### Spellings -/

/-- The spelling of a type, in lower case and without `0x`. -/
def spelling (value : Text) : Text := withoutPrefix (value.map Char.toLower)

/-- A code with zeros before it, or with line ends behind it. -/
def Padded (t : Text) : Prop :=
  t = "0f".toList ∨
    (∃ k w, 1 ≤ k ∧ (w = "5".toList ∨ w = "85".toList) ∧ t = List.replicate k '0' ++ w) ∨
    ∃ k w, 1 ≤ k ∧ w ∈ extendedCodes ∧ t = w ++ List.replicate k '\n'

/-- Several codes in one. -/
def Repeated (t : Text) : Prop :=
  ∃ ws : List Text, 2 ≤ ws.length ∧ (∀ w ∈ ws, w ∈ dosWords) ∧ t = ws.flatten

lemma isExtendedType_iff (value : Text) :
    isExtendedType value = true ↔ spelling value ∈ extendedCodes := by
  have hdef : isExtendedType value =
      (spelling value == "5".toList || spelling value == "f".toList ||
        spelling value == "85".toList) := by
    unfold isExtendedType spelling withoutPrefix
    rfl
  rw [hdef, Bool.or_eq_true, Bool.or_eq_true, beq_iff_eq, beq_iff_eq, beq_iff_eq]
  unfold extendedCodes
  rw [List.mem_cons, List.mem_cons, List.mem_singleton, or_assoc]

/-! ### Zeros -/

lemma stripZeros_replicate (k : ℕ) {w : Text} (hne : w ≠ []) (hw : w.head? ≠ some '0') :
    stripZeros (List.replicate k '0' ++ w) = w := by
  induction k with
  | zero =>
    rw [List.replicate_zero, List.nil_append]
    unfold stripZeros
    split
    · exact absurd rfl hw
    · rfl
  | succ k ih =>
    rw [List.replicate_succ, List.cons_append]
    obtain ⟨c, t, ht⟩ :=
      List.exists_cons_of_ne_nil (List.append_ne_nil_of_right_ne_nil (List.replicate k '0') hne)
    rw [ht] at ih ⊢
    rw [stripZeros, ih]

lemma exists_replicate_stripZeros (t : Text) : ∃ k, t = List.replicate k '0' ++ stripZeros t := by
  fun_induction stripZeros t with
  | case1 c t ih =>
    obtain ⟨k, hk⟩ := ih
    exact ⟨k + 1, by rw [List.replicate_succ, List.cons_append, ← hk]⟩
  | case2 t => exact ⟨0, rfl⟩

lemma mem_extendedCodes {w : Text} :
    w ∈ extendedCodes ↔ w = "5".toList ∨ w = "f".toList ∨ w = "85".toList := by
  unfold extendedCodes
  rw [List.mem_cons, List.mem_cons, List.mem_singleton]

/-- A printed type is a code if nothing but newlines stands behind the code. -/
lemma captured_mem_codes {n : Text} (hz : '\x00' ∉ n) :
    captured (n ++ ['\n']) ∈ extendedCodes ↔ ∃ k, ∃ w ∈ extendedCodes,
      n = w ++ List.replicate k '\n' := by
  have hz' : '\x00' ∉ n ++ ['\n'] := by
    rw [List.mem_append, not_or]
    exact ⟨hz, by decide⟩
  have hlast : ∀ w ∈ extendedCodes, w.getLast? ≠ some '\n' := by
    intro w hw
    rcases mem_extendedCodes.mp hw with rfl | rfl | rfl <;> decide
  constructor
  · intro h
    obtain ⟨k, hk⟩ := (captured_eq_iff hz' (hlast _ h)).mp rfl
    cases k with
    | zero =>
      rw [List.replicate_zero, List.append_nil] at hk
      exact absurd (by rw [← hk, List.getLast?_concat]) (hlast _ h)
    | succ k =>
      rw [List.replicate_succ', ← List.append_assoc] at hk
      exact ⟨k, _, h, List.append_cancel_right hk⟩
  · rintro ⟨k, w, hw, rfl⟩
    rw [List.append_assoc, ← List.replicate_succ'] at hz' ⊢
    rwa [(captured_eq_iff hz' (hlast w hw)).mpr ⟨k + 1, rfl⟩]

/-! ### The four verdicts -/

/-- A type that ends in newlines has a character that is no digit. -/
lemma newlines_of_digits {t w : Text} {k : ℕ} (ht : t.all Char.isDigit = true)
    (h : t = w ++ List.replicate k '\n') : k = 0 := by
  cases k with
  | zero => rfl
  | succ k =>
    have := List.all_eq_true.mp ht '\n' (by rw [h, List.replicate_succ]; simp)
    exact absurd this (by decide)

lemma all_isDigit_replicate (k : ℕ) : (List.replicate k '0').all Char.isDigit = true := by
  rw [List.all_eq_true]
  intro c hc
  rw [List.eq_of_mem_replicate hc]
  decide

/-- The verdict on a number of digits. -/
lemma stripZeros_mem_codes {t : Text} (ht : t.all Char.isDigit = true)
    (hz : '\x00' ∉ stripZeros t) :
    captured (stripZeros t ++ ['\n']) ∈ extendedCodes ↔ t ∈ extendedCodes ∨ Padded t := by
  rw [captured_mem_codes hz]
  obtain ⟨j, hj⟩ := exists_replicate_stripZeros t
  have hstrip : (stripZeros t).all Char.isDigit = true := by
    rw [hj, List.all_append, Bool.and_eq_true] at ht
    exact ht.2
  constructor
  · rintro ⟨k, w, hw, hk⟩
    have hk0 := newlines_of_digits hstrip hk
    rw [hk0, List.replicate_zero, List.append_nil] at hk
    rw [hk] at hj hstrip
    cases j with
    | zero =>
      rw [List.replicate_zero, List.nil_append] at hj
      exact .inl (hj ▸ hw)
    | succ j =>
      right
      right
      left
      refine ⟨j + 1, w, by omega, ?_, hj⟩
      rcases mem_extendedCodes.mp hw with rfl | rfl | rfl
      · exact .inl rfl
      · exact absurd hstrip (by decide)
      · exact .inr rfl
  · rintro (ht' | hf | ⟨k, w, -, hw, rfl⟩ | ⟨k, w, hk, hw, h⟩)
    · refine ⟨0, t, ht', ?_⟩
      rw [List.replicate_zero, List.append_nil]
      rcases mem_extendedCodes.mp ht' with rfl | rfl | rfl <;> rfl
    · rw [hf] at ht
      exact absurd ht (by decide)
    · refine ⟨0, w, ?_, ?_⟩
      · rcases hw with rfl | rfl <;> decide
      · rw [List.replicate_zero, List.append_nil]
        rcases hw with rfl | rfl
        · exact stripZeros_replicate k (by decide) (by decide)
        · exact stripZeros_replicate k (by decide) (by decide)
    · have := newlines_of_digits ht h
      omega

/-- The verdict on a text that is neither a number nor a zero before a digit. -/
lemma other_mem_codes {t : Text} (ht : t.all Char.isDigit ≠ true) (hf : t ≠ "0f".toList)
    (hz : '\x00' ∉ t) :
    captured (t ++ ['\n']) ∈ extendedCodes ↔ t ∈ extendedCodes ∨ Padded t := by
  rw [captured_mem_codes hz]
  constructor
  · rintro ⟨k, w, hw, rfl⟩
    cases k with
    | zero =>
      left
      rwa [List.replicate_zero, List.append_nil]
    | succ k => exact .inr (.inr (.inr ⟨k + 1, w, by omega, hw, rfl⟩))
  · rintro (h | h | ⟨k, w, -, hw, rfl⟩ | ⟨k, w, -, hw, h⟩)
    · exact ⟨0, t, h, by rw [List.replicate_zero, List.append_nil]⟩
    · exact absurd h hf
    · rw [List.all_append, all_isDigit_replicate] at ht
      rcases hw with rfl | rfl
      · exact absurd rfl ht
      · exact absurd rfl ht
    · exact ⟨k, w, hw, h⟩

/-- The verdict on a zero before a hexadecimal digit. -/
lemma two_mem_codes {c : Char} (hz : '\x00' ∉ ['0', c]) :
    captured ([c] ++ ['\n']) ∈ extendedCodes ↔ ['0', c] ∈ extendedCodes ∨ Padded ['0', c] := by
  have hzc : '\x00' ∉ [c] := fun h => hz (List.mem_cons_of_mem _ h)
  by_cases hd : c.isDigit = true
  · have hall : ['0', c].all Char.isDigit = true := by
      rw [List.all_cons, List.all_cons, hd]
      rfl
    have hstrip : stripZeros ['0', c] = [c] := by
      rw [stripZeros]
      unfold stripZeros
      split
      next heq => cases heq
      next => rfl
    rw [← stripZeros_mem_codes hall (by rwa [hstrip]), hstrip]
  · by_cases hc : c = 'f'
    · rw [hc]
      refine iff_of_true ?_ (.inr (.inl rfl))
      rw [captured_mem_codes (by decide)]
      exact ⟨0, "f".toList, by decide, rfl⟩
    · have hcode : ∀ w ∈ extendedCodes, w.head? ≠ some c := by
        intro w hw h
        rcases mem_extendedCodes.mp hw with rfl | rfl | rfl
        · exact hd (by rw [← Option.some.inj h]; rfl)
        · exact hc (Option.some.inj h).symm
        · exact hd (by rw [← Option.some.inj h]; rfl)
      have hzero : ∀ w ∈ extendedCodes, w.head? ≠ some '0' := by
        intro w hw
        rcases mem_extendedCodes.mp hw with rfl | rfl | rfl <;> decide
      have hhead : ∀ w ∈ extendedCodes, ∀ s : Text, (w ++ s).head? = w.head? := by
        intro w hw s
        rcases mem_extendedCodes.mp hw with rfl | rfl | rfl <;> rfl
      refine iff_of_false ?_ ?_
      · rw [captured_mem_codes hzc]
        rintro ⟨k, w, hw, h⟩
        exact hcode w hw (by rw [← hhead w hw, ← h]; rfl)
      · rintro (h | h | ⟨k, w, -, hw, h⟩ | ⟨k, w, -, hw, h⟩)
        · exact hzero _ h rfl
        · exact hc (List.cons.inj (List.cons.inj h).2).1
        · have hall : (['0', c] : Text).all Char.isDigit = true := by
            rw [h, List.all_append, all_isDigit_replicate]
            rcases hw with rfl | rfl <;> rfl
          exact hd (List.all_eq_true.mp hall c (by simp))
        · exact hzero w hw (by rw [← hhead w hw, ← h]; rfl)

lemma not_padded_nil : ¬ Padded [] := by
  rintro (h | ⟨k, w, -, hw, h⟩ | ⟨k, w, -, hw, h⟩)
  · cases h
  · rcases hw with rfl | rfl
    · exact absurd h.symm (List.append_ne_nil_of_right_ne_nil _ (by decide))
    · exact absurd h.symm (List.append_ne_nil_of_right_ne_nil _ (by decide))
  · rcases mem_extendedCodes.mp hw with rfl | rfl | rfl <;> cases h

/-- What is left without the zeros is a code exactly if the type is a code, or a padded one. -/
lemma withoutZeros_mem_codes {t : Text} (hz : '\x00' ∉ t) :
    captured (withoutZeros t ++ ['\n']) ∈ extendedCodes ↔ t ∈ extendedCodes ∨ Padded t := by
  unfold withoutZeros
  split
  next htwo =>
    obtain ⟨hlen, hzero, -⟩ := htwo
    obtain ⟨a, c, rfl⟩ := List.length_eq_two.mp hlen
    obtain rfl : a = '0' := Option.some.inj hzero
    exact two_mem_codes hz
  next htwo =>
    have hf : t ≠ "0f".toList := by
      rintro rfl
      exact htwo (by decide)
    split
    next hdigits =>
      refine stripZeros_mem_codes hdigits.2 fun h => hz ?_
      obtain ⟨k, hk⟩ := exists_replicate_stripZeros t
      rw [hk]
      exact List.mem_append_right _ h
    next hdigits =>
      by_cases hnil : t = []
      · rw [hnil]
        refine iff_of_false (by decide) ?_
        rintro (h | h)
        · exact absurd h (by decide)
        · exact not_padded_nil h
      · exact other_mem_codes (fun h => hdigits ⟨hnil, h⟩) hf hz

/-- `rootpxe_preflight_extended_type`: a code, or a padded one. -/
lemma preflightExtendedType_iff {value : Text} (hz : '\x00' ∉ spelling value) :
    preflightExtendedType value = true ↔ spelling value ∈ extendedCodes ∨
    Padded (spelling value) := by
  unfold preflightExtendedType preflightNormalizedType
  rw [decide_eq_true_iff]
  exact withoutZeros_mem_codes hz

/-- Every word of the pattern has one last digit of a code. -/
lemma countP_dosWord {w : Text} (hw : w ∈ dosWords) :
    w.countP (fun c => c == '5' || c == 'f') = 1 := by
  unfold dosWords at hw
  simp only [List.mem_cons, List.not_mem_nil, or_false] at hw
  rcases hw with rfl | rfl | rfl | rfl | rfl | rfl <;> rfl

lemma countP_flatten {ws : List Text} (hws : ∀ w ∈ ws, w ∈ dosWords) :
    ws.flatten.countP (fun c => c == '5' || c == 'f') = ws.length := by
  induction ws with
  | nil => rfl
  | cons w ws ih =>
    rw [List.flatten_cons, List.countP_append, countP_dosWord (hws w List.mem_cons_self),
      ih fun v hv => hws v (List.mem_cons_of_mem w hv), List.length_cons]
    omega

/-- The words of the pattern are the codes with and without `0x`. -/
lemma mem_dosWords {t : Text} : t ∈ dosWords ↔ withoutPrefix t ∈ extendedCodes := by
  constructor
  · intro h
    unfold dosWords at h
    simp only [List.mem_cons, List.not_mem_nil, or_false] at h
    rcases h with rfl | rfl | rfl | rfl | rfl | rfl <;> decide
  · intro h
    have hself : ∀ w ∈ extendedCodes, w ∈ dosWords ∧ '0' :: 'x' :: w ∈ dosWords := by
      intro w hw
      rcases mem_extendedCodes.mp hw with rfl | rfl | rfl <;> decide
    unfold withoutPrefix at h
    split at h
    · exact (hself _ h).2
    · exact (hself _ h).1

/-- The test of `partitionIsDosExtended`: a code, or several in one. -/
lemma dosExtendedType_iff (value : Text) :
    dosExtendedType value = true ↔ spelling value ∈ extendedCodes ∨
    Repeated (value.map Char.toLower) := by
  unfold dosExtendedType spelling
  rw [plusGlob_iff (by decide), ← mem_dosWords]
  constructor
  · rintro ⟨ws, hne, hws, h⟩
    rcases Nat.lt_or_ge ws.length 2 with hlt | hge
    · obtain ⟨w, rfl⟩ :=
        List.length_eq_one_iff.mp
          (show ws.length = 1 by have := List.length_pos_of_ne_nil hne; omega)
      left
      rw [h, List.flatten_singleton]
      exact hws w List.mem_cons_self
    · exact .inr ⟨ws, hge, hws, h⟩
  · rintro (h | ⟨ws, hlen, hws, h⟩)
    · refine ⟨[_], List.cons_ne_nil _ _, fun w hw => ?_, List.flatten_singleton.symm⟩
      rwa [List.mem_singleton.mp hw]
    · refine ⟨ws, ?_, hws, h⟩
      rintro rfl
      exact absurd hlen (by decide)

/-! ### Agreement -/

lemma not_padded_of_code {t : Text} (h : t ∈ extendedCodes) : ¬ Padded t := by
  rintro (hf | ⟨k, w, hk, -, hw⟩ | ⟨k, w, hk, -, hw⟩)
  · rw [hf] at h
    exact absurd h (by decide)
  · obtain ⟨k, rfl⟩ := Nat.exists_eq_add_of_le' hk
    rw [List.replicate_succ, List.cons_append] at hw
    rcases mem_extendedCodes.mp h with h | h | h
    · exact absurd (List.cons.inj (hw.symm.trans h)).1 (by decide)
    · exact absurd (List.cons.inj (hw.symm.trans h)).1 (by decide)
    · exact absurd (List.cons.inj (hw.symm.trans h)).1 (by decide)
  · have hmem : '\n' ∈ t := by
      rw [hw]
      exact List.mem_append_right _ (List.mem_replicate.mpr ⟨by omega, rfl⟩)
    rcases mem_extendedCodes.mp h with rfl | rfl | rfl <;> exact absurd hmem (by decide)

lemma not_repeated_of_word {t : Text} (h : t ∈ dosWords) : ¬ Repeated t := by
  rintro ⟨ws, hlen, hws, rfl⟩
  have h1 := countP_dosWord h
  rw [countP_flatten hws] at h1
  omega

lemma toLower_eq_nul {c : Char} (h : c.toLower = '\x00') : c = '\x00' := by
  unfold Char.toLower at h
  split at h
  next hupper =>
    have hval : (c.val + 32).toNat = 0 := congrArg (fun x => x.val.toNat) h
    have h65 : 65 ≤ c.val.toNat := hupper.1
    have h90 : c.val.toNat ≤ 90 := hupper.2
    rw [UInt32.toNat_add, show (32 : UInt32).toNat = 32 from rfl] at hval
    omega
  next => exact h

/-- **The four tests agree** on all types but these: a code with zeros before it or line ends behind
it, which only the preflight takes for an extended partition, and several codes in one, which only
`partitionIsDosExtended` does. -/
theorem extendedTypes_agree_iff {value : Text} (hz : '\x00' ∉ value) :
    Agree value ↔ ¬ (Padded (spelling value) ∨ Repeated (value.map Char.toLower)) := by
  have hspell : '\x00' ∉ spelling value := by
    have hlower : '\x00' ∉ value.map Char.toLower := by
      intro h
      obtain ⟨c, hc, hc0⟩ := List.mem_map.mp h
      exact hz (toLower_eq_nul hc0 ▸ hc)
    unfold spelling withoutPrefix
    split
    next heq =>
      rw [heq] at hlower
      exact fun h => hlower (List.mem_cons_of_mem _ (List.mem_cons_of_mem _ h))
    next => exact hlower
  have hawk := isExtendedType_iff value
  have hpre := preflightExtendedType_iff hspell
  have hdos := dosExtendedType_iff value
  have hcode : spelling value ∈ extendedCodes → ¬ Padded (spelling value) ∧
      ¬ Repeated (value.map Char.toLower) :=
    fun h => ⟨not_padded_of_code h, not_repeated_of_word (mem_dosWords.mpr h)⟩
  unfold Agree isExtended
  rw [Bool.eq_iff_iff (a := preflightExtendedType value),
    Bool.eq_iff_iff (a := dosExtendedType value), hawk, hpre, hdos, not_or]
  constructor
  · rintro ⟨-, h1, h2⟩
    refine ⟨fun hp => ?_, fun hr => ?_⟩
    · exact (hcode (h1.mp (.inr hp))).1 hp
    · exact (hcode (h2.mp (.inr hr))).2 hr
  · rintro ⟨hp, hr⟩
    exact ⟨rfl, or_iff_left hp, or_iff_left hr⟩

theorem extendedTypes_agree_blkid : Agree "0xF".toList ∧ isExtended "0xF".toList = true := by
  have hno : ¬ (Padded (spelling "0xF".toList) ∨ Repeated ("0xF".toList.map Char.toLower)) :=
    not_or.mpr ⟨not_padded_of_code (by decide), not_repeated_of_word (by decide)⟩
  exact ⟨(extendedTypes_agree_iff (by decide)).mpr hno, by decide⟩

/-- A zero before the code, and two codes. -/
theorem not_agree_padded : ¬ Agree "05".toList ∧ ¬ Agree "0x5f".toList := by
  have hpre : preflightExtendedType "05".toList = true ∧
      isExtendedType "05".toList = false := by decide
  have hdos : dosExtendedType "0x5f".toList = true ∧
      isExtendedType "0x5f".toList = false := by decide
  constructor
  · rintro ⟨-, h, -⟩
    rw [hpre.1, hpre.2] at h
    cases h
  · rintro ⟨-, -, h⟩
    rw [hdos.1, hdos.2] at h
    cases h

end Pxeos.Sfdisk
