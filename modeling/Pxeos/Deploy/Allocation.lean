import Pxeos.Lib.Packing
import Pxeos.Deploy.Resolver

/-!
# What the allocation loop of the resolver establishes

`resolveLeaves` puts the leaves one after another.  A leaf's *footprint* is its extent together with
the EBR gap before it and, behind the physically last logical partition, the container's tail;
`resolveLeaves_spec` says that the footprints of the leaves are packed, in the order of the items,
from `$front` to the final cursor.
-/

namespace Pxeos.Deploy

open Pxeos.Lib

lemma alignment_pos (logical : ℕ) : 0 < alignment logical := by
  unfold alignment
  split <;> omega

namespace AllocEnv

variable (e : AllocEnv) (r : ℕ)

/-- The sectors kept for the EBR of a leaf. -/
def gap (p : SchemaPart) : ℕ :=
  match e.extended with
  | some (_, ebr) => if p.kind = some .logical then ebr else 0
  | none => 0

/-- The start of a leaf's footprint. -/
def footLo (q : ResolvedPart) : ℤ := q.startSectors - e.gap q.toSchemaPart

/-- The end of a leaf's footprint. -/
def footHi (q : ResolvedPart) : ℤ := q.stop + e.tailAfter r q.toSchemaPart

/-! The footprint of a leaf is that of its item, whose kind and number it keeps. -/

lemma footLo_placed (p : SchemaPart) (start size : ℕ) :
    e.footLo (p.placed start size) = (start : ℤ) - e.gap p := rfl

lemma footHi_placed (p : SchemaPart) (start size : ℕ) :
    e.footHi r (p.placed start size) = (start : ℤ) + size + e.tailAfter r p := by
  have h : e.footHi r (p.placed start size) = ((start + size : ℕ) : ℤ) + e.tailAfter r p := rfl
  rw [h, Nat.cast_add]

lemma dvd_leafStart (c : ℕ) (p : SchemaPart) : alignment e.logical ∣ e.leafStart c p := by
  unfold leafStart
  rcases e.extended with _ | ⟨x, ebr⟩
  · exact dvd_alignUp _ _
  · dsimp only
    split <;> exact dvd_alignUp _ _

lemma add_gap_le_leafStart (c : ℕ) (p : SchemaPart) : c + e.gap p ≤ e.leafStart c p := by
  have ha := alignment_pos e.logical
  unfold leafStart gap
  rcases e.extended with _ | ⟨x, ebr⟩
  · exact le_alignUp ha c
  · dsimp only
    have h1 := le_alignUp ha c
    have h2 := le_alignUp ha (alignUp c (alignment e.logical) + ebr)
    split <;> omega

/-- What the loop does with one item. -/
structure Placement (x : Item × ResolvedPart) : Prop where
  leaf : ∃ start, x.2 = x.1.p.placed start (e.sizeOf r x.1) ∧ alignment e.logical ∣ start
  size : x.1.p.originalSectors ≤ e.sizeOf r x.1

namespace Placement

variable {e r} {x : Item × ResolvedPart}

lemma number_eq (h : Placement e r x) : x.2.number = x.1.p.number := by
  obtain ⟨start, hx, -⟩ := h.leaf
  rw [hx]; rfl

lemma kind_eq (h : Placement e r x) : x.2.kind = x.1.p.kind := by
  obtain ⟨start, hx, -⟩ := h.leaf
  rw [hx]; rfl

lemma resolved_eq (h : Placement e r x) : x.2.resolvedSectors = e.sizeOf r x.1 := by
  obtain ⟨start, hx, -⟩ := h.leaf
  rw [hx]; rfl

lemma aligned (h : Placement e r x) : alignment e.logical ∣ x.2.startSectors := by
  obtain ⟨start, hx, hd⟩ := h.leaf
  rw [hx]; exact hd

end Placement

lemma allocStep_eq_ok {st st' : Cursor} {it : Item} (h : e.allocStep r st it = .ok st') :
    it.p.originalSectors ≤ e.sizeOf r it ∧
      st' = ⟨e.leafStart st.cursor it.p + e.sizeOf r it + e.tailAfter r it.p,
        st.out ++ [it.p.placed (e.leafStart st.cursor it.p) (e.sizeOf r it)]⟩ := by
  unfold allocStep at h
  rw [bind_eq_ok] at h
  obtain ⟨u, h1, h2⟩ := h
  rw [errorIf_eq_ok, decide_eq_false_iff_not, not_lt] at h1
  rw [pure_eq_ok] at h2
  exact ⟨h1, h2.symm⟩

/-- The loop, from a cursor to a cursor. -/
def Allocates (items : List Item) (st st' : Cursor) : Prop :=
  ∃ ps : List (Item × ResolvedPart), ps.map Prod.fst = items ∧ st'.out = st.out ++ ps.map Prod.snd ∧
    (∀ x ∈ ps, Placement e r x) ∧
    Packed (fun x => e.footLo x.2) (fun x => e.footHi r x.2) (st.cursor : ℤ) ps (st'.cursor : ℤ)

lemma allocates_cons {it : Item} {items : List Item} {st st₁ st' : Cursor}
    (h1 : e.allocStep r st it = .ok st₁) (h2 : e.Allocates r items st₁ st') :
    e.Allocates r (it :: items) st st' := by
  obtain ⟨hsize, rfl⟩ := allocStep_eq_ok e r h1
  obtain ⟨ps, hfst, hout, hpl, hpk⟩ := h2
  refine ⟨(it, it.p.placed (e.leafStart st.cursor it.p) (e.sizeOf r it)) :: ps, ?_, ?_, ?_, ?_⟩
  · rw [List.map_cons, hfst]
  · rw [hout, List.map_cons, List.append_assoc, List.singleton_append]
  · intro x hx
    rcases List.mem_cons.mp hx with rfl | hx
    · exact ⟨⟨_, rfl, e.dvd_leafStart _ _⟩, hsize⟩
    · exact hpl x hx
  · have hgap := e.add_gap_le_leafStart st.cursor it.p
    have hlo := e.footLo_placed it.p (e.leafStart st.cursor it.p) (e.sizeOf r it)
    have hhi := e.footHi_placed r it.p (e.leafStart st.cursor it.p) (e.sizeOf r it)
    refine Packed.cons ?_ ?_ (hpk.mono ?_ le_rfl)
    · dsimp only
      rw [hlo]
      omega
    · dsimp only
      rw [hlo, hhi]
      omega
    · dsimp only
      rw [hhi]
      push_cast
      rfl

/-- **The allocation loop.**  The leaves are the items with aligned starts and the sizes asked for,
and their footprints are packed between `$front` and the final cursor. -/
theorem resolveLeaves_spec {st : Cursor} (h : e.resolveLeaves r = .ok st) :
    ∃ ps : List (Item × ResolvedPart), ps.map Prod.fst = e.items ∧ ps.map Prod.snd = st.out ∧
      (∀ x ∈ ps, Placement e r x) ∧
      Packed (fun x => e.footLo x.2) (fun x => e.footHi r x.2) (e.front : ℤ) ps
        (st.cursor : ℤ) := by
  have hall := foldlM_ok (e.Allocates r) (fun s => ⟨[], rfl, by simp, by simp, .nil le_rfl⟩)
    (fun _ _ _ _ _ h1 h2 => e.allocates_cons r h1 h2) e.items h
  obtain ⟨ps, hfst, hout, hpl, hpk⟩ := hall
  exact ⟨ps, hfst, by rw [hout, List.nil_append], hpl, hpk⟩

/-! ### An upper bound for the cursor -/

lemma leafStart_le (c : ℕ) (p : SchemaPart) :
    e.leafStart c p ≤ alignUp c (alignment e.logical) + alignUp (e.gap p)
      (alignment e.logical) := by
  have ha := alignment_pos e.logical
  unfold leafStart gap
  rcases e.extended with _ | ⟨x, ebr⟩
  · exact Nat.le_add_right _ _
  · dsimp only
    split
    · refine alignUp_le_of_dvd ha (Nat.dvd_add (dvd_alignUp _ _) (dvd_alignUp _ _)) ?_
      exact Nat.add_le_add_left (le_alignUp ha ebr) _
    · exact Nat.le_add_right _ _

/-- The sectors an item takes at most, alignment included. -/
def room (it : Item) : ℕ :=
  alignUp (e.gap it.p) (alignment e.logical) + alignUp (e.sizeOf r it) (alignment e.logical) +
    alignUp (e.tailAfter r it.p) (alignment e.logical)

lemma allocStep_le {st st' : Cursor} {it : Item} (h : e.allocStep r st it = .ok st') :
    alignUp st'.cursor (alignment e.logical) ≤ alignUp st.cursor (alignment e.logical) +
      e.room r it := by
  obtain ⟨-, rfl⟩ := allocStep_eq_ok e r h
  have ha := alignment_pos e.logical
  have h1 := alignUp_le_of_dvd ha (e.dvd_leafStart st.cursor it.p) le_rfl
  have h2 := e.leafStart_le st.cursor it.p
  have h3 := alignUp_add_le ha (e.leafStart st.cursor it.p) (e.sizeOf r it)
  have h4 := alignUp_add_le ha (e.leafStart st.cursor it.p + e.sizeOf r it) (e.tailAfter r it.p)
  unfold room
  dsimp only
  omega

/-- The allocation ends at most the room of its items behind the aligned front. -/
theorem resolveLeaves_cursor_le {st : Cursor} (h : e.resolveLeaves r = .ok st) :
    st.cursor ≤ alignUp e.front (alignment e.logical) + (e.items.map (e.room r)).sum := by
  have hall := foldlM_ok (fun items st st' => alignUp st'.cursor (alignment e.logical) ≤
      alignUp st.cursor (alignment e.logical) + (items.map (e.room r)).sum)
    (fun _ => by simp)
    (fun it items st st₁ st' h1 h2 => by
      have h3 := e.allocStep_le r h1
      simp only [List.map_cons, List.sum_cons]
      omega) e.items h
  exact (le_alignUp (alignment_pos e.logical) _).trans hall

end AllocEnv

end Pxeos.Deploy
