import Mathlib.Data.Nat.Basic
import Mathlib.Tactic.Ring
import Mathlib.Tactic.Linarith

/-!
# Rounding a number to a multiple

`alignUp n a` and `alignDown n a` are the two neighbours of `n` among the multiples of `a`, in the
arithmetic of the programs that use them: `(n + a - 1) / a * a` and `n / a * a`.
-/

namespace Pxeos.Lib

/-- The least multiple of `a` that is at least `n`. -/
def alignUp (n a : ℕ) : ℕ := (n + a - 1) / a * a

/-- The greatest multiple of `a` that is at most `n`. -/
def alignDown (n a : ℕ) : ℕ := n / a * a

lemma dvd_alignUp (n a : ℕ) : a ∣ alignUp n a := Dvd.intro_left _ rfl

lemma dvd_alignDown (n a : ℕ) : a ∣ alignDown n a := Dvd.intro_left _ rfl

lemma le_alignUp {a : ℕ} (ha : 0 < a) (n : ℕ) : n ≤ alignUp n a := by
  unfold alignUp
  have h := Nat.div_add_mod (n + a - 1) a
  have hlt := Nat.mod_lt (n + a - 1) ha
  rw [Nat.mul_comm] at h
  omega

lemma alignUp_lt {a : ℕ} (ha : 0 < a) (n : ℕ) : alignUp n a < n + a := by
  have h := Nat.div_mul_le_self (n + a - 1) a
  unfold alignUp
  omega

/-- Rounding up is the least multiple above. -/
lemma alignUp_le_of_dvd {a n m : ℕ} (ha : 0 < a) (hm : a ∣ m) (h : n ≤ m) : alignUp n a ≤ m := by
  obtain ⟨k, rfl⟩ := hm
  unfold alignUp
  rw [Nat.mul_comm a k]
  refine Nat.mul_le_mul_right a (Nat.lt_succ_iff.mp ?_)
  rw [Nat.div_lt_iff_lt_mul ha, Nat.succ_mul, Nat.mul_comm k a]
  omega

lemma alignUp_zero {a : ℕ} (ha : 0 < a) : alignUp 0 a = 0 :=
  Nat.le_zero.mp (alignUp_le_of_dvd ha (Nat.dvd_zero a) le_rfl)

/-- Rounding down is the greatest multiple below. -/
lemma le_alignDown_of_dvd {a n m : ℕ} (hm : a ∣ m) (h : m ≤ n) : m ≤ alignDown n a := by
  obtain ⟨k, rfl⟩ := hm
  rcases Nat.eq_zero_or_pos a with rfl | ha
  · simp
  · unfold alignDown
    rw [Nat.mul_comm a k] at h ⊢
    exact Nat.mul_le_mul_right a ((Nat.le_div_iff_mul_le ha).mpr h)

lemma alignUp_add_le {a : ℕ} (ha : 0 < a) (m n : ℕ) :
    alignUp (m + n) a ≤ alignUp m a + alignUp n a :=
  alignUp_le_of_dvd ha (Nat.dvd_add (dvd_alignUp m a) (dvd_alignUp n a))
    (Nat.add_le_add (le_alignUp ha m) (le_alignUp ha n))

lemma alignUp_mono {a : ℕ} {m n : ℕ} (h : m ≤ n) : alignUp m a ≤ alignUp n a :=
  Nat.mul_le_mul_right a (Nat.div_le_div_right (by omega))

end Pxeos.Lib
