import Mathlib.Data.List.Basic

/-!
# Blocks in blocks

Texts whose lines open a block with a name, close one, or stand in one.
-/

namespace Pxeos.Lib

variable {α β γ δ : Type}

/-- What a line does. -/
inductive Item (α β : Type) where
  | opens (name : α)
  | closes
  | leaf (value : β)

/-- Blocks and leaves in their order. -/
inductive Forest (α β : Type) where
  | nil
  | block (name : α) (inside rest : Forest α β)
  | leaf (value : β) (rest : Forest α β)

namespace Forest

/-- The lines of a forest. -/
def items : Forest α β → List (Item α β)
  | nil => []
  | block name inside rest => .opens name :: inside.items ++ .closes :: rest.items
  | leaf value rest => .leaf value :: rest.items

/-- The leaves that stand in no block. -/
def leaves : Forest α β → List β
  | nil => []
  | block _ _ rest => rest.leaves
  | leaf value rest => value :: rest.leaves

/-- The blocks that stand in no other one. -/
def blocks : Forest α β → List (α × Forest α β)
  | nil => []
  | block name inside rest => (name, inside) :: rest.blocks
  | leaf _ rest => rest.blocks

def allLeaves : Forest α β → List β
  | nil => []
  | block _ inside rest => inside.allLeaves ++ rest.allLeaves
  | leaf value rest => value :: rest.allLeaves

def map (g : β → γ) : Forest α β → Forest α γ
  | nil => nil
  | block name inside rest => block name (inside.map g) (rest.map g)
  | leaf value rest => leaf (g value) (rest.map g)

/-- What the leaves and the blocks give, in their order. -/
def collect (onLeaf : β → List δ) (onBlock : α → Forest α β → List δ) : Forest α β → List δ
  | nil => []
  | block name inside rest => onBlock name inside ++ rest.collect onLeaf onBlock
  | leaf value rest => onLeaf value ++ rest.collect onLeaf onBlock

/-- Behind the lines of a forest stands nothing, or the end of the block that it is in. -/
def Closed (rest : List (Item α β)) : Prop := rest = [] ∨ ∃ tail, rest = .closes :: tail

lemma items_append_inj (f g : Forest α β) {r s : List (Item α β)} (hr : Closed r) (hs : Closed s)
    (h : f.items ++ r = g.items ++ s) : f = g ∧ r = s := by
  induction f generalizing g r s with
  | nil =>
    cases g with
    | nil => exact ⟨rfl, h⟩
    | block name inside rest => rcases hr with rfl | ⟨t, rfl⟩ <;> simp [items] at h
    | leaf value rest => rcases hr with rfl | ⟨t, rfl⟩ <;> simp [items] at h
  | block name inside rest ihinside ihrest =>
    cases g with
    | nil => rcases hs with rfl | ⟨t, rfl⟩ <;> simp [items] at h
    | block name' inside' rest' =>
      simp only [items, List.cons_append, List.append_assoc, List.cons.injEq, Item.opens.injEq] at h
      obtain ⟨rfl, h⟩ := h
      obtain ⟨rfl, hrest⟩ := ihinside inside' (.inr ⟨_, rfl⟩) (.inr ⟨_, rfl⟩) h
      obtain ⟨rfl, rfl⟩ := ihrest rest' hr hs (List.cons.inj hrest).2
      exact ⟨rfl, rfl⟩
    | leaf value rest => simp [items] at h
  | leaf value rest ih =>
    cases g with
    | nil => rcases hs with rfl | ⟨t, rfl⟩ <;> simp [items] at h
    | block name inside rest => simp [items] at h
    | leaf value' rest' =>
      simp only [items, List.cons_append, List.cons.injEq, Item.leaf.injEq] at h
      obtain ⟨rfl, h⟩ := h
      obtain ⟨rfl, rfl⟩ := ih rest' hr hs h
      exact ⟨rfl, rfl⟩

/-- The lines determine the forest. -/
theorem items_injective : Function.Injective (items : Forest α β → List (Item α β)) := by
  intro f g h
  exact (items_append_inj f g (.inl rfl) (.inl rfl) (by rw [h])).1

/-- Lines at a depth that come to the end of all blocks, and never below. -/
def Balanced : ℕ → List (Item α β) → Prop
  | n, [] => n = 0
  | n, .opens _ :: rest => Balanced (n + 1) rest
  | 0, .closes :: _ => False
  | n + 1, .closes :: rest => Balanced n rest
  | n, .leaf _ :: rest => Balanced n rest

/-- At a depth, the lines are those of a forest, and of one more behind each end of a block. -/
lemma exists_of_balanced {n : ℕ} {lines : List (Item α β)} (h : Balanced n lines) :
    ∃ (f : Forest α β) (fs : List (Forest α β)), fs.length = n ∧
      lines = f.items ++ fs.flatMap fun g => .closes :: g.items := by
  induction lines generalizing n with
  | nil => exact ⟨nil, [], h.symm, rfl⟩
  | cons line rest ih =>
    cases line with
    | opens name =>
      obtain ⟨inside, fs, hlength, rfl⟩ := ih (n := n + 1) (by simpa [Balanced] using h)
      cases fs with
      | nil => cases hlength
      | cons f fs =>
        refine ⟨block name inside f, fs, Nat.succ.inj hlength, ?_⟩
        simp [items]
    | closes =>
      cases n with
      | zero => exact h.elim
      | succ n =>
        obtain ⟨f, fs, rfl, rfl⟩ := ih (n := n) h
        exact ⟨nil, f :: fs, rfl, rfl⟩
    | leaf value =>
      obtain ⟨f, fs, hlength, rfl⟩ := ih (n := n) (by simpa [Balanced] using h)
      exact ⟨leaf value f, fs, hlength, rfl⟩

/-- Lines that are balanced are those of a forest. -/
theorem exists_items {lines : List (Item α β)} (h : Balanced 0 lines) :
    ∃ f : Forest α β, f.items = lines := by
  obtain ⟨f, fs, hlength, rfl⟩ := exists_of_balanced h
  rw [List.length_eq_zero_iff.mp hlength]
  exact ⟨f, (List.append_nil _).symm⟩

lemma allLeaves_map (g : β → γ) (f : Forest α β) : (f.map g).allLeaves = f.allLeaves.map g := by
  induction f with
  | nil => rfl
  | block name inside rest ihinside ihrest =>
    show (inside.map g).allLeaves ++ (rest.map g).allLeaves = _
    rw [ihinside, ihrest]
    exact List.map_append.symm
  | leaf value rest ih =>
    show g value :: (rest.map g).allLeaves = _
    rw [ih]
    rfl

lemma map_congr {g g' : β → γ} {f : Forest α β} (h : ∀ v ∈ f.allLeaves, g v = g' v) :
    f.map g = f.map g' := by
  induction f with
  | nil => rfl
  | block name inside rest ihinside ihrest =>
    have h1 := ihinside fun v hv => h v (List.mem_append_left _ hv)
    have h2 := ihrest fun v hv => h v (List.mem_append_right _ hv)
    show block name (inside.map g) (rest.map g) = _
    rw [h1, h2]
    rfl
  | leaf value rest ih =>
    have h1 := h value List.mem_cons_self
    have h2 := ih fun v hv => h v (List.mem_cons_of_mem _ hv)
    show leaf (g value) (rest.map g) = _
    rw [h1, h2]
    rfl

/-! ### What is collected -/

section Collect

variable {onLeaf : β → List δ} {onBlock : α → Forest α β → List δ}

lemma mem_collect {e : δ} {f : Forest α β} :
    e ∈ f.collect onLeaf onBlock ↔ (∃ v ∈ f.leaves, e ∈ onLeaf v) ∨ ∃ b ∈ f.blocks,
      e ∈ onBlock b.1 b.2 := by
  induction f with
  | nil => simp [collect, leaves, blocks]
  | block name inside rest _ ih =>
    simp only [collect, leaves, blocks, List.mem_append, ih, List.mem_cons, exists_eq_or_imp]
    exact or_left_comm
  | leaf value rest ih =>
    simp only [collect, leaves, blocks, List.mem_append, ih, List.mem_cons, exists_eq_or_imp]
    exact or_assoc.symm

/-- What only the leaves give. -/
lemma filterMap_collect_leaves {p : δ → Option γ} {f : Forest α β}
    (h : ∀ b ∈ f.blocks, (onBlock b.1 b.2).filterMap p = []) :
    (f.collect onLeaf onBlock).filterMap p = f.leaves.flatMap fun v => (onLeaf v).filterMap p := by
  induction f with
  | nil => rfl
  | block name inside rest _ ih =>
    have hfirst := h (name, inside) List.mem_cons_self
    have hrest := ih fun b hb => h b (List.mem_cons_of_mem _ hb)
    show (onBlock name inside ++ rest.collect onLeaf onBlock).filterMap p = _
    rw [List.filterMap_append, hfirst, hrest]
    rfl
  | leaf value rest ih =>
    show (onLeaf value ++ rest.collect onLeaf onBlock).filterMap p = _
    rw [List.filterMap_append, ih h]
    rfl

/-- What only the blocks give. -/
lemma filterMap_collect_blocks {p : δ → Option γ} {f : Forest α β}
    (h : ∀ v ∈ f.leaves, (onLeaf v).filterMap p = []) :
    (f.collect onLeaf onBlock).filterMap p = f.blocks.flatMap fun b =>
      (onBlock b.1 b.2).filterMap p := by
  induction f with
  | nil => rfl
  | block name inside rest _ ih =>
    show (onBlock name inside ++ rest.collect onLeaf onBlock).filterMap p = _
    rw [List.filterMap_append, ih h]
    rfl
  | leaf value rest ih =>
    have hfirst := h value List.mem_cons_self
    have hrest := ih fun v hv => h v (List.mem_cons_of_mem _ hv)
    show (onLeaf value ++ rest.collect onLeaf onBlock).filterMap p = _
    rw [List.filterMap_append, hfirst, hrest]
    rfl

end Collect

end Forest

end Pxeos.Lib
