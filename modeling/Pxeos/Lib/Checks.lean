import Mathlib.Data.List.Basic
import Mathlib.Data.List.Dedup

/-!
# Straight-line checks

A validator is a sequence of checks, each of which stops the run with its own message.  `errorIf` is
one check and `bind_eq_ok` takes a run that succeeded apart; `foldlM_ok` is the induction rule of a
loop that can stop.
-/

namespace Pxeos.Lib

/-- Stop with `msg` when the condition holds. -/
def errorIf {ε : Type} (c : Bool) (msg : ε) : Except ε Unit := if c then .error msg else .ok ()

@[simp] lemma errorIf_eq_ok {ε : Type} {c : Bool} {msg : ε} {u : Unit} :
    errorIf c msg = .ok u ↔ c = false := by
  unfold errorIf
  cases c <;> simp

lemma errorIf_eq_error {ε : Type} {c : Bool} {msg e : ε} :
    errorIf c msg = .error e ↔ c = true ∧ msg = e := by
  unfold errorIf
  split <;> simp_all

/-- `condition || return 1`. -/
def require (c : Bool) : Option Unit := if c then some () else none

@[simp] lemma require_eq_some {c : Bool} {u : Unit} : require c = some u ↔ c = true := by
  unfold require
  cases c <;> simp

lemma require_isSome (c : Bool) : (require c).isSome = c := by cases c <;> rfl

/-- `if length == 1 then .[0] else error(msg) end`. -/
def exactlyOne {α : Type} (l : List α) (msg : String) : Except String α :=
  match l with
  | [a] => .ok a
  | _ => .error msg

@[simp] lemma exactlyOne_eq_ok {α : Type} {l : List α} {msg : String} {a : α} :
    exactlyOne l msg = .ok a ↔ l = [a] := by
  unfold exactlyOne
  split <;> simp_all

/-- A field of a parsed document: absent, of the type the reader expects, or of another type. -/
inductive DocField (α : Type) where
  | absent
  | value (a : α)
  | illTyped
  deriving DecidableEq, Repr

namespace DocField

variable {α : Type}

/-- `has("key")`. -/
def has : DocField α → Bool
  | absent => false
  | _ => true

/-- The value, when it is there and of the expected type. -/
def get? : DocField α → Option α
  | value a => some a
  | _ => none

end DocField

section Except

variable {ε α β σ : Type}

lemma bind_eq_ok {x : Except ε α} {f : α → Except ε β} {b : β} :
    (x >>= f) = .ok b ↔ ∃ a, x = .ok a ∧ f a = .ok b := by
  cases x <;> simp [bind, Except.bind]

lemma bind_eq_error {x : Except ε α} {f : α → Except ε β} {e : ε} :
    (x >>= f) = .error e ↔ x = .error e ∨ ∃ a, x = .ok a ∧ f a = .error e := by
  cases x <;> simp [bind, Except.bind]

lemma ok_bind (a : α) (f : α → Except ε β) : ((Except.ok a : Except ε α) >>= f) = f a := rfl

lemma pure_eq_ok {a b : α} : (pure a : Except ε α) = .ok b ↔ a = b := by
  simp [pure, Except.pure]

/-- **Induction over a loop that ran to its end**: `R xs s s'` relates the state before and after
the iterations over `xs`. -/
theorem foldlM_ok {f : σ → α → Except ε σ} (R : List α → σ → σ → Prop) (hnil : ∀ s, R [] s s)
    (hcons : ∀ x xs s s₁ s', f s x = .ok s₁ → R xs s₁ s' → R (x :: xs) s s') :
    ∀ (xs : List α) {s s' : σ}, xs.foldlM f s = .ok s' → R xs s s'
  | [], s, s', h => by
    rw [List.foldlM_nil, pure_eq_ok] at h
    exact h ▸ hnil s
  | x :: xs, s, s', h => by
    rw [List.foldlM_cons, bind_eq_ok] at h
    obtain ⟨s₁, h₁, h₂⟩ := h
    exact hcons x xs s s₁ s' h₁ (foldlM_ok R hnil hcons xs h₂)

/-- A pass that succeeds relates its input and output entry by entry. -/
theorem mapM_ok {f : α → Except ε β} : ∀ {xs : List α} {ys : List β}, xs.mapM f = .ok ys →
    List.Forall₂ (fun x y => f x = .ok y) xs ys
  | [], ys, h => by
    rw [List.mapM_nil, pure_eq_ok] at h
    exact h ▸ .nil
  | x :: xs, ys, h => by
    rw [List.mapM_cons, bind_eq_ok] at h
    obtain ⟨y, hy, h⟩ := h
    rw [bind_eq_ok] at h
    obtain ⟨ys', hys, h⟩ := h
    rw [pure_eq_ok] at h
    exact h ▸ .cons hy (mapM_ok hys)

/-- A pass whose results are known. -/
theorem mapM_eq_map {f : α → Except ε β} {g : α → β} {xs : List α} (h : ∀ x ∈ xs, f x = .ok (g x)) :
    xs.mapM f = .ok (xs.map g) := by
  induction xs with
  | nil => rfl
  | cons x xs ih =>
    rw [List.mapM_cons, h x List.mem_cons_self, ok_bind,
      ih fun y hy => h y (List.mem_cons_of_mem _ hy)]
    rfl

/-- A pass succeeds when every entry does. -/
theorem exists_mapM_ok {f : α → Except ε β} {xs : List α} (h : ∀ x ∈ xs, ∃ y, f x = .ok y) :
    ∃ ys, xs.mapM f = .ok ys := by
  induction xs with
  | nil => exact ⟨[], rfl⟩
  | cons x xs ih =>
    obtain ⟨y, hy⟩ := h x List.mem_cons_self
    obtain ⟨ys, hys⟩ := ih fun z hz => h z (List.mem_cons_of_mem _ hz)
    refine ⟨y :: ys, ?_⟩
    rw [List.mapM_cons, hy, ok_bind, hys]
    rfl

/-- A pass of checks succeeds when every check does. -/
theorem forM_eq_ok {f : α → Except ε Unit} {u : Unit} (xs : List α) :
    xs.forM f = .ok u ↔ ∀ x ∈ xs, f x = .ok () := by
  induction xs with
  | nil => simp [List.forM, pure_eq_ok]
  | cons x xs ih =>
    simp only [List.forM] at ih ⊢
    rw [bind_eq_ok, List.forall_mem_cons, ← ih]
    constructor
    · rintro ⟨_, h, h'⟩
      exact ⟨h, h'⟩
    · rintro ⟨h, h'⟩
      exact ⟨(), h, h'⟩

end Except

/-- A pass of conditions succeeds when every condition does. -/
theorem forM_eq_some {α : Type} {f : α → Option Unit} {u : Unit} (xs : List α) :
    xs.forM f = some u ↔ ∀ x ∈ xs, f x = some () := by
  induction xs with
  | nil => simp [List.forM]
  | cons x xs ih =>
    simp only [List.forM] at ih ⊢
    rw [Option.bind_eq_bind, Option.bind_eq_some_iff, List.forall_mem_cons, ← ih]
    constructor
    · rintro ⟨_, h, h'⟩
      exact ⟨h, h'⟩
    · rintro ⟨h, h'⟩
      exact ⟨(), h, h'⟩

/-- A pass that finds something for every entry. -/
theorem mapM_some {α β : Type} {f : α → Option β} : ∀ {xs : List α} {ys : List β},
    xs.mapM f = some ys →
    List.Forall₂ (fun x y => f x = some y) xs ys
  | [], ys, h => by
    rw [List.mapM_nil] at h
    exact (Option.some.inj h) ▸ .nil
  | x :: xs, ys, h => by
    rw [List.mapM_cons] at h
    obtain ⟨y, hy, h⟩ := Option.bind_eq_some_iff.mp h
    obtain ⟨ys', hys, h⟩ := Option.bind_eq_some_iff.mp h
    exact (Option.some.inj h) ▸ .cons hy (mapM_some hys)

lemma exists_right_of_forall₂ {α β : Type} {R : α → β → Prop} {xs : List α} {ys : List β}
    (h : List.Forall₂ R xs ys) {x : α} (hx : x ∈ xs) : ∃ y ∈ ys, R x y := by
  induction h with
  | nil => cases hx
  | cons hxy _ ih =>
    rcases List.mem_cons.mp hx with rfl | hx
    · exact ⟨_, List.mem_cons_self, hxy⟩
    · obtain ⟨y, hy, hR⟩ := ih hx
      exact ⟨y, List.mem_cons_of_mem _ hy, hR⟩

lemma exists_left_of_forall₂ {α β : Type} {R : α → β → Prop} {xs : List α} {ys : List β}
    (h : List.Forall₂ R xs ys) {y : β} (hy : y ∈ ys) : ∃ x ∈ xs, R x y :=
  exists_right_of_forall₂ h.flip hy

/-- The entries are those of the two lists. -/
lemma forall₂_mem {α β : Type} {R : α → β → Prop} {xs : List α} {ys : List β}
    (h : List.Forall₂ R xs ys) : List.Forall₂ (fun x y => x ∈ xs ∧ y ∈ ys ∧ R x y) xs ys :=
  List.forall₂_iff_zip.mpr ⟨h.length_eq, fun hxy =>
    ⟨(List.of_mem_zip hxy).1, (List.of_mem_zip hxy).2, List.forall₂_zip h hxy⟩⟩

/-- `unique | length` equal to `length` is the absence of duplicates. -/
lemma nodup_of_dedup_length {α : Type} [DecidableEq α] {l : List α}
    (h : l.dedup.length = l.length) : l.Nodup := by
  have := (List.dedup_sublist l).eq_of_length h
  exact this ▸ List.nodup_dedup l

end Pxeos.Lib
