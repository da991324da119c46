import Mathlib.Order.Bounds.Basic
import Mathlib.Tactic.Linarith

/-!
# The last value that passes

A search by halving for the greatest value of an interval that passes a test.  It is right when the
values that pass come before those that do not, which is all that `lastThat_spec` asks of the test.
-/

namespace Pxeos.Lib

/-- The search; the interval shrinks at every turn, so `high - low` turns are enough. -/
def lastThat (p : ℕ → Bool) : ℕ → ℕ → ℕ → ℕ
  | 0, low, _ => low
  | fuel + 1, low, high =>
    if low ≥ high then low
    else
      let middle := (low + high + 1) / 2
      if p middle then lastThat p fuel middle high else lastThat p fuel low (middle - 1)

section Search

variable {p : ℕ → Bool}

lemma le_lastThat {fuel low high : ℕ} : low ≤ lastThat p fuel low high := by
  induction fuel generalizing low high with
  | zero => exact le_rfl
  | succ fuel ih =>
    unfold lastThat
    split
    · exact le_rfl
    · have hmid : low ≤ (low + high + 1) / 2 := by omega
      simp only
      split
      · exact hmid.trans ih
      · exact ih

/-- What is found has passed, unless nothing but the lower end is left. -/
lemma lastThat_passes {fuel low high : ℕ} :
    lastThat p fuel low high = low ∨ p (lastThat p fuel low high) = true := by
  induction fuel generalizing low high with
  | zero => exact .inl rfl
  | succ fuel ih =>
    unfold lastThat
    split
    · exact .inl rfl
    · simp only
      split
      next hp =>
        right
        rcases @ih ((low + high + 1) / 2) high with h | h
        · rw [h]
          exact hp
        · exact h
      next => exact ih

/-- **Nothing that passes is lost.** -/
theorem lastThat_spec {fuel low high : ℕ} (hfuel : high - low ≤ fuel)
    (hdown : ∀ m n, low ≤ m → m ≤ n → p n = true → p m = true) {n : ℕ} (hn : n ≤ high)
    (hp : p n = true) : n ≤ lastThat p fuel low high := by
  induction fuel generalizing low high with
  | zero =>
    show n ≤ low
    omega
  | succ fuel ih =>
    unfold lastThat
    split
    · omega
    next hlt =>
      have hlow : low < (low + high + 1) / 2 := by omega
      have hhigh : (low + high + 1) / 2 ≤ high := by omega
      simp only
      split
      · exact ih (by omega) (fun m n hm => hdown m n (by omega)) hn
      next hmid =>
        refine ih (by omega) hdown ?_
        -- what passes is below the middle, or the middle would pass as well
        by_contra hge
        exact hmid (hdown _ n hlow.le (by omega) hp)

end Search

end Pxeos.Lib
