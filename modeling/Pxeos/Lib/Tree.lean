import Mathlib.Data.List.Basic
import Mathlib.Data.List.Infix

/-!
# Trees in a flat store

A store of entries with paths.  The tree at a path is what is at it and below it, with the paths
seen from there; it can be moved as a whole, and entries can be added and removed.  Each of these
keeps the trees at the paths apart from it.
-/

namespace Pxeos.Lib

variable {Seg Node : Type} [DecidableEq Seg]

/-- Neither path leads to the other. -/
def Apart (p q : List Seg) : Prop := ¬ p <+: q ∧ ¬ q <+: p

instance (p q : List Seg) : Decidable (Apart p q) :=
  inferInstanceAs (Decidable (¬ p <+: q ∧ ¬ q <+: p))

omit [DecidableEq Seg] in
lemma Apart.symm {p q : List Seg} (h : Apart p q) : Apart q p := ⟨h.2, h.1⟩

omit [DecidableEq Seg] in
lemma Apart.not_both {p q r : List Seg} (h : Apart p q) (hp : p <+: r) : ¬ q <+: r := by
  intro hq
  rcases List.prefix_or_prefix_of_prefix hp hq with h' | h'
  · exact h.1 h'
  · exact h.2 h'

omit [DecidableEq Seg] in
lemma Apart.below {p q r : List Seg} (h : Apart p q) (hq : q <+: r) : Apart p r :=
  ⟨fun hp => h.not_both hp hq, fun hr => h.2 (hq.trans hr)⟩

/-- What is at a path and below it. -/
def treeAt (r : List Seg) (es : List (List Seg × Node)) : List (List Seg × Node) :=
  es.filterMap fun e => if r <+: e.1 then some (e.1.drop r.length, e.2) else none

/-- Where a path below `a` is when the tree at `a` is at `b`. -/
def relocate (a b p : List Seg) : List Seg := b ++ p.drop a.length

/-- The tree at `a` is moved to `b`. -/
def moveTree (a b : List Seg) (es : List (List Seg × Node)) : List (List Seg × Node) :=
  es.map fun e => if a <+: e.1 then (relocate a b e.1, e.2) else e

variable {a b r p : List Seg} {es : List (List Seg × Node)}

lemma treeAt_eq_nil : treeAt r es = [] ↔ ∀ e ∈ es, ¬ r <+: e.1 := by
  unfold treeAt
  rw [List.filterMap_eq_nil_iff]
  refine forall₂_congr fun e _ => ?_
  split <;> simp_all

/-- The tree is at the new path. -/
lemma treeAt_moveTree_target (hfree : ∀ e ∈ es, ¬ b <+: e.1) :
    treeAt b (moveTree a b es) = treeAt a es := by
  unfold treeAt moveTree
  rw [List.filterMap_map]
  refine List.filterMap_congr fun e he => ?_
  by_cases h : a <+: e.1
  · simp [h, relocate]
  · simp [h, hfree e he]

/-- Nothing is left at the old path. -/
lemma treeAt_moveTree_source (h : Apart a b) : treeAt a (moveTree a b es) = [] := by
  rw [treeAt_eq_nil]
  intro e he
  obtain ⟨e', -, rfl⟩ := List.mem_map.mp he
  split
  · exact fun ha => h.not_both ha (List.prefix_append _ _)
  · assumption

/-- The trees apart from both paths are as before. -/
lemma treeAt_moveTree_other (ha : Apart r a) (hb : Apart r b) :
    treeAt r (moveTree a b es) = treeAt r es := by
  unfold treeAt moveTree
  rw [List.filterMap_map]
  refine List.filterMap_congr fun e _ => ?_
  by_cases h : a <+: e.1
  · have h1 : ¬ r <+: e.1 := ha.symm.not_both h
    have h2 : ¬ r <+: relocate a b e.1 := hb.symm.not_both (List.prefix_append _ _)
    simp [h, h1, h2]
  · simp [h]

lemma treeAt_filter_other (h : ¬ r <+: p) :
    treeAt r (es.filter fun e => decide (e.1 ≠ p)) = treeAt r es := by
  unfold treeAt
  rw [List.filterMap_filter]
  refine List.filterMap_congr fun e _ => ?_
  by_cases hp : e.1 = p
  · simp [hp, h]
  · simp [hp]

lemma treeAt_cons_other {n : Node} (h : ¬ r <+: p) : treeAt r ((p, n) :: es) = treeAt r es := by
  unfold treeAt
  rw [List.filterMap_cons, if_neg h]

lemma treeAt_filter_nil {q : List Seg × Node → Bool} (h : treeAt r es = []) :
    treeAt r (es.filter q) = [] := by
  rw [treeAt_eq_nil] at h ⊢
  exact fun e he => h e (List.mem_of_mem_filter he)

end Pxeos.Lib
