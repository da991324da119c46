import Mathlib.Order.Lattice
import Mathlib.Algebra.BigOperators.Group.List.Basic
import Mathlib.Algebra.Order.Group.Defs
import Mathlib.Data.List.Basic
import Mathlib.Order.Interval.Finset.Nat
import Mathlib.Tactic.Linarith

/-!
# Packing extents with a cursor

`Packed lo hi c l d` says that the extents `[lo x, hi x)` of the list `l` lie one after another, in
the order of the list, from the cursor `c` on and end at or before `d`.  It is what every allocation
loop with a running cursor establishes, and what is wanted of the result follows from it: bounds for
every extent, an order between any two, and a bound for the total length.
-/

namespace Pxeos.Lib

variable {ι α : Type*}

/-- The extents of `l` lie in list order between `c` and `d`. -/
inductive Packed [LE α] (lo hi : ι → α) : α → List ι → α → Prop
  | nil {c d : α} : c ≤ d → Packed lo hi c [] d
  | cons {c d : α} {x : ι} {xs : List ι} : c ≤ lo x → lo x ≤ hi x → Packed lo hi (hi x) xs d →
      Packed lo hi c (x :: xs) d

namespace Packed

section Order

variable [Preorder α] {lo hi : ι → α} {c c' d d' : α} {l l' : List ι}

theorem le (h : Packed lo hi c l d) : c ≤ d := by
  induction h with
  | nil h => exact h
  | cons h1 h2 _ ih => exact (h1.trans h2).trans ih

theorem mono (h : Packed lo hi c l d) (hc : c' ≤ c) (hd : d ≤ d') : Packed lo hi c' l d' := by
  induction h generalizing c' with
  | nil h => exact .nil ((hc.trans h).trans hd)
  | cons h1 h2 _ ih => exact .cons (hc.trans h1) h2 (ih le_rfl hd)

/-- Every extent lies between the two cursors. -/
theorem bounds (h : Packed lo hi c l d) : ∀ x ∈ l, c ≤ lo x ∧ lo x ≤ hi x ∧ hi x ≤ d := by
  induction h with
  | nil _ => simp
  | @cons c d x xs h1 h2 h3 ih =>
    intro y hy
    rcases List.mem_cons.mp hy with rfl | hy
    · exact ⟨h1, h2, h3.le⟩
    · obtain ⟨i1, i2, i3⟩ := ih y hy
      exact ⟨(h1.trans h2).trans i1, i2, i3⟩

/-- An extent ends before every later one starts. -/
theorem pairwise (h : Packed lo hi c l d) : l.Pairwise (fun x y => hi x ≤ lo y) := by
  induction h with
  | nil _ => exact .nil
  | @cons c d x xs h1 h2 h3 ih => exact .cons (fun y hy => (h3.bounds y hy).1) ih

end Order

end Packed

/-- Two different members of an ordered list come in one of the two orders. -/
theorem or_of_pairwise {R : ι → ι → Prop} {l : List ι} (h : l.Pairwise R) {a b : ι} (ha : a ∈ l)
    (hb : b ∈ l) (hab : a ≠ b) : R a b ∨ R b a := by
  induction h with
  | nil => simp at ha
  | @cons x l hx _ ih =>
    rcases List.mem_cons.mp ha with rfl | ha' <;> rcases List.mem_cons.mp hb with rfl | hb'
    · exact absurd rfl hab
    · exact .inl (hx b hb')
    · exact .inr (hx a ha')
    · exact ih ha' hb'

/-- Extents in list order, each of length at least `len x`, with the first starting at or after `c`:
the total length fits between `c` and the end of the last. -/
theorem add_sum_le_of_pairwise [AddCommGroup α] [LinearOrder α] [IsOrderedAddMonoid α]
    {lo hi len : ι → α} :
    ∀ {x : ι} {l : List ι} {c : α}, (x :: l).Pairwise (fun x y => hi x ≤ lo y) →
    (∀ y ∈ x :: l, lo y + len y ≤ hi y) → c ≤ lo x →
    c + ((x :: l).map len).sum ≤ hi ((x :: l).getLast (List.cons_ne_nil x l))
  | x, [], c, _, hlen, hc => by
    have := hlen x (by simp)
    simp only [List.map_cons, List.map_nil, List.sum_cons, List.sum_nil, add_zero,
      List.getLast_singleton]
    exact (add_le_add_left hc _).trans this
  | x, y :: l, c, hp, hlen, hc => by
    obtain ⟨hx, hp'⟩ := List.pairwise_cons.mp hp
    have h1 := hlen x (by simp)
    have hcy : c + len x ≤ lo y := ((add_le_add_left hc _).trans h1).trans (hx y (by simp))
    have ih :=
      add_sum_le_of_pairwise (c := c + len x) hp'
        (fun z hz => hlen z (List.mem_cons_of_mem x hz)) hcy
    rw [List.getLast_cons (List.cons_ne_nil y l), List.map_cons, List.sum_cons, ← add_assoc]
    exact ih

/-- Extents that share nothing have no more room than what they lie in. -/
theorem sum_le_of_apart (lo hi : ι → ℕ) {a b : ℕ} {l : List ι}
    (hap : l.Pairwise fun x y => hi x ≤ lo y ∨ hi y ≤ lo x) (hin : ∀ x ∈ l, a ≤ lo x ∧ hi x ≤ b) :
    (l.map fun x => hi x - lo x).sum ≤ b - a := by
  have hcard : ∀ l : List ι, l.Pairwise (fun x y => hi x ≤ lo y ∨ hi y ≤ lo x) →
      ∃ u : Finset ℕ, (∀ n ∈ u, ∃ x ∈ l, lo x ≤ n ∧ n < hi x) ∧
        (l.map fun x => hi x - lo x).sum = u.card := by
    intro l hl
    induction hl with
    | nil => exact ⟨∅, by simp, rfl⟩
    | @cons x l hx _ ih =>
      obtain ⟨u, hu, hsum⟩ := ih
      refine ⟨Finset.Ico (lo x) (hi x) ∪ u, fun n hn => ?_, ?_⟩
      · rcases Finset.mem_union.mp hn with hn | hn
        · exact ⟨x, List.mem_cons_self, Finset.mem_Ico.mp hn⟩
        · obtain ⟨y, hy, h⟩ := hu n hn
          exact ⟨y, List.mem_cons_of_mem _ hy, h⟩
      · have hdis : Disjoint (Finset.Ico (lo x) (hi x)) u := by
          refine Finset.disjoint_left.mpr fun n hn hnu => ?_
          obtain ⟨y, hy, h1, h2⟩ := hu n hnu
          have h3 := Finset.mem_Ico.mp hn
          have h4 := hx y hy
          omega
        rw [Finset.card_union_of_disjoint hdis, Nat.card_Ico, List.map_cons, List.sum_cons, hsum]
  obtain ⟨u, hu, hsum⟩ := hcard l hap
  have hsub : u ⊆ Finset.Ico a b := by
    intro n hn
    obtain ⟨x, hx, h1, h2⟩ := hu n hn
    have := hin x hx
    exact Finset.mem_Ico.mpr ⟨by omega, by omega⟩
  rw [hsum, ← Nat.card_Ico]
  exact Finset.card_le_card hsub

end Pxeos.Lib
