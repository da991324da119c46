import Mathlib.Data.Nat.Notation
import Mathlib.Tactic.Common

/-!
# Blocks of memory

A buffer of fixed length, the copies of `memcpy` and the comparisons of `memcmp` at an offset, and
the element that every position has after them.
-/

namespace Pxeos.Lib

variable {α : Type} {n : ℕ}

/-- `memcpy(dst + off, src + off, len)`. -/
def copyRange (dst src : Vector α n) (off len : ℕ) : Vector α n :=
  Vector.ofFn fun i => if off ≤ i ∧ i < off + len then src[i] else dst[i]

/-- The bytes at `dst + off`. -/
def paste (dst : Vector α n) (off : ℕ) (bytes : List α) : Vector α n :=
  Vector.ofFn fun i => if off ≤ i then (bytes[i - off]?).getD dst[i] else dst[i]

/-- `memcmp(a + off, b + off, len) == 0`. -/
def sameRange [BEq α] (a b : Vector α n) (off len : ℕ) : Bool :=
  (List.range' off len).all fun i => a[i]? == b[i]?

@[simp] lemma getElem_copyRange (dst src : Vector α n) (off len : ℕ) {i : ℕ} (h : i < n) :
    (copyRange dst src off len)[i] = if off ≤ i ∧ i < off + len then src[i] else dst[i] := by
  unfold copyRange
  rw [Vector.getElem_ofFn]
  rfl

/-- Outside the pasted bytes nothing changes. -/
lemma getElem_paste_of_notMem (dst : Vector α n) {off : ℕ} {bytes : List α} {i : ℕ} (h : i < n)
    (hi : ¬ (off ≤ i ∧ i < off + bytes.length)) : (paste dst off bytes)[i] = dst[i] := by
  unfold paste
  rw [Vector.getElem_ofFn]
  dsimp only
  split
  next hle =>
    rw [List.getElem?_eq_none (by omega)]
    rfl
  next => rfl

lemma getElem_paste_of_mem (dst : Vector α n) {off : ℕ} {bytes : List α} {i : ℕ}
    (h : i < bytes.length) (hn : off + i < n) :
    (paste dst off bytes)[off + i] = bytes[i] := by
  unfold paste
  rw [Vector.getElem_ofFn]
  dsimp only
  rw [if_pos (Nat.le_add_right off i), Nat.add_sub_cancel_left, List.getElem?_eq_getElem h]
  rfl

lemma sameRange_iff [BEq α] [LawfulBEq α] {a b : Vector α n} {off len : ℕ} (hlen : off + len ≤ n) :
    sameRange a b off len = true ↔ ∀ i (h : i < n), off ≤ i → i < off + len → a[i] = b[i] := by
  unfold sameRange
  rw [List.all_eq_true]
  constructor
  · intro h i hi hle hlt
    have := h i (List.mem_range'_1.mpr ⟨hle, hlt⟩)
    rw [beq_iff_eq, Vector.getElem?_eq_getElem hi, Vector.getElem?_eq_getElem hi] at this
    exact Option.some.inj this
  · intro h i hi
    obtain ⟨hle, hlt⟩ := List.mem_range'_1.mp hi
    have hn : i < n := by omega
    rw [beq_iff_eq, Vector.getElem?_eq_getElem hn, Vector.getElem?_eq_getElem hn, h i hn hle hlt]

end Pxeos.Lib
