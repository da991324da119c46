import Mathlib.Logic.Basic
import Mathlib.Logic.Relation
import Mathlib.Data.List.Basic
import Mathlib.Data.Sigma.Basic

/-!
# Programs that talk to their environment

A program is a tree of calls: each call is answered by the environment, and the answer selects the
rest.  A run is the sequence of calls and answers on a path from the root, and may end anywhere, so
that what holds along every run holds at every moment.  A contract watches a run with a state of its
own: it says which answers the environment gives, which calls the program may make, and how the
state follows them.
-/

namespace Pxeos.Lib

/-- A program with calls `C`, answered in `A`.  `stop` is where the observation of a loop ends. -/
inductive Prog (C : Type) (A : C → Type) (α : Type) : Type
  | ret (a : α)
  | stop
  | call (c : C) (k : A c → Prog C A α)

namespace Prog

variable {C : Type} {A : C → Type} {α β : Type}

/-- One program after another. -/
def bind : Prog C A α → (α → Prog C A β) → Prog C A β
  | .ret a, f => f a
  | .stop, _ => .stop
  | .call c k, f => .call c fun r => (k r).bind f

instance : Monad (Prog C A) where
  pure := .ret
  bind := Prog.bind

/-- A call. -/
def ask (c : C) : Prog C A (A c) := .call c .ret

/-- The runs of a program: the calls with their answers, and the result if the program has ended. -/
inductive Runs : Prog C A α → List (Sigma A) → Option α → Prop
  | cut (p : Prog C A α) : Runs p [] none
  | ret (a : α) : Runs (.ret a) [] (some a)
  | call {c : C} {k : A c → Prog C A α} {r : A c} {τ : List (Sigma A)} {o : Option α}
      (h : Runs (k r) τ o) :
      Runs (.call c k) (⟨c, r⟩ :: τ) o

/-- The run in an environment that answers by what it has seen, the last call first. -/
def exec (env : List (Sigma A) → (c : C) → A c) : Prog C A α → List (Sigma A) →
    List (Sigma A) × Option α
  | .ret a, _ => ([], some a)
  | .stop, _ => ([], none)
  | .call c k, seen =>
    let r := env seen c
    let rest := exec env (k r) (⟨c, r⟩ :: seen)
    (⟨c, r⟩ :: rest.1, rest.2)

lemma runs_exec (env : List (Sigma A) → (c : C) → A c) (p : Prog C A α) (seen : List (Sigma A)) :
    Runs p (p.exec env seen).1 (p.exec env seen).2 := by
  induction p generalizing seen with
  | ret a => exact .ret a
  | stop => exact .cut _
  | call c k ih => exact .call (ih _ _)

/-- Every answer of such a run is the environment's. -/
lemma mem_exec {env : List (Sigma A) → (c : C) → A c} {p : Prog C A α} {seen : List (Sigma A)}
    {e : Sigma A} (h : e ∈ (p.exec env seen).1) : ∃ seen', e = ⟨e.1, env seen' e.1⟩ := by
  induction p generalizing seen with
  | ret a => exact absurd h List.not_mem_nil
  | stop => exact absurd h List.not_mem_nil
  | call c k ih =>
    rcases List.mem_cons.mp h with rfl | h
    · exact ⟨seen, rfl⟩
    · exact ih _ h

/-- A run can be cut anywhere. -/
lemma Runs.take {p : Prog C A α} {τ : List (Sigma A)} {o : Option α} (h : Runs p τ o) (n : ℕ) :
    Runs p (τ.take n) none := by
  induction h generalizing n with
  | cut p =>
    rw [List.take_nil]
    exact .cut p
  | ret a =>
    rw [List.take_nil]
    exact .cut _
  | call h ih =>
    cases n with
    | zero => exact .cut _
    | succ n => exact .call (ih n)

/-- A run of one program that ends, and a run of the next. -/
lemma Runs.bind {p : Prog C A α} {f : α → Prog C A β} {τ σ : List (Sigma A)} {a : α} {o : Option β}
    (hp : Runs p τ (some a)) (hf : Runs (f a) σ o) : Runs (p >>= f) (τ ++ σ) o := by
  generalize hr : some a = r at hp
  induction hp with
  | cut p => cases hr
  | ret b =>
    obtain rfl := Option.some.inj hr
    exact hf
  | call h ih => exact .call (ih hr)

/-- A run of one program after another that ends: a run of each. -/
lemma Runs.of_bind {p : Prog C A α} {f : α → Prog C A β} {τ : List (Sigma A)} {b : β}
    (h : Runs (p >>= f) τ (some b)) :
    ∃ a σ ρ, τ = σ ++ ρ ∧ Runs p σ (some a) ∧ Runs (f a) ρ (some b) := by
  induction p generalizing τ with
  | ret a => exact ⟨a, [], τ, rfl, .ret a, h⟩
  | stop => cases h
  | call c k ih =>
    cases h with
    | @call _ _ r τ _ h =>
      obtain ⟨a, σ, ρ, rfl, hp, hf⟩ := ih r h
      exact ⟨a, ⟨c, r⟩ :: σ, ρ, rfl, .call hp, hf⟩

lemma Runs.of_ask {c : C} {τ : List (Sigma A)} {r : A c} (h : Runs (ask c) τ (some r)) :
    τ = [⟨c, r⟩] := by
  cases h with
  | call h =>
    cases h
    rfl

lemma Runs.of_pure {τ : List (Sigma A)} {a b : α} (h : Runs (pure a : Prog C A α) τ (some b)) :
    τ = [] ∧ a = b := by
  cases h
  exact ⟨rfl, rfl⟩

lemma runs_ask (c : C) (r : A c) : Runs (ask c) [⟨c, r⟩] (some r) := .call (.ret r)

/-- Every call of the program, with any answer, is of a kind. -/
def Only (P : Sigma A → Prop) : Prog C A α → Prop
  | .ret _ => True
  | .stop => True
  | .call c k => ∀ r, P ⟨c, r⟩ ∧ Only P (k r)

lemma only_pure {P : Sigma A → Prop} (a : α) : Only P (pure a : Prog C A α) := trivial

lemma only_ask {P : Sigma A → Prop} {c : C} (h : ∀ r, P ⟨c, r⟩) : Only P (ask c) :=
  fun r => ⟨h r, trivial⟩

lemma Only.bind {P : Sigma A → Prop} {p : Prog C A α} {f : α → Prog C A β} (hp : Only P p)
    (hf : ∀ a, Only P (f a)) :
    Only P (p >>= f) := by
  induction p with
  | ret a => exact hf a
  | stop => trivial
  | call c k ih => exact fun r => ⟨(hp r).1, ih r (hp r).2⟩

lemma Only.mono {P P' : Sigma A → Prop} {p : Prog C A α} (hp : Only P p) (h : ∀ e, P e → P' e) :
    Only P' p := by
  induction p with
  | ret a => trivial
  | stop => trivial
  | call c k ih => exact fun r => ⟨h _ (hp r).1, ih r (hp r).2⟩

/-- What holds of every call holds of every call of a run. -/
lemma Only.of_runs {P : Sigma A → Prop} {p : Prog C A α} (hp : Only P p) {τ : List (Sigma A)}
    {o : Option α} (hr : Runs p τ o) : ∀ e ∈ τ, P e := by
  induction hr with
  | cut p => simp
  | ret a => simp
  | call h ih =>
    intro e he
    rcases List.mem_cons.mp he with rfl | he
    · exact (hp _).1
    · exact ih (hp _).2 e he

end Prog

/-! ### Contracts -/

/-- What is asked of the environment and of the program, given what has happened so far. -/
structure Contract {C : Type} (A : C → Type) (S : Type) where
  rely : S → Sigma A → Prop
  guard : S → Sigma A → Prop
  next : S → Sigma A → S

namespace Contract

variable {C : Type} {A : C → Type} {S α β : Type} (M : Contract A S)

/-- A condition holds at every entry of a run. -/
def Along (P : S → Sigma A → Prop) : S → List (Sigma A) → Prop
  | _, [] => True
  | s, e :: τ => P s e ∧ Along P (M.next s e) τ

/-- The state after a run. -/
def after (s : S) (τ : List (Sigma A)) : S := τ.foldl M.next s

lemma Along.append {P : S → Sigma A → Prop} {s : S} {τ σ : List (Sigma A)}
    (h : M.Along P s (τ ++ σ)) :
    M.Along P s τ ∧ M.Along P (M.after s τ) σ := by
  induction τ generalizing s with
  | nil => exact ⟨trivial, h⟩
  | cons e τ ih => exact ⟨⟨h.1, (ih h.2).1⟩, (ih h.2).2⟩

lemma after_append (s : S) (τ σ : List (Sigma A)) : M.after s (τ ++ σ) = M.after (M.after s τ) σ :=
  List.foldl_append

lemma along_of_forall {P : S → Sigma A → Prop} (h : ∀ s e, P s e) (s : S) (τ : List (Sigma A)) :
    M.Along P s τ := by
  induction τ generalizing s with
  | nil => trivial
  | cons e τ ih => exact ⟨h s e, ih _⟩

instance Along.decidable {P : S → Sigma A → Prop} [∀ s e, Decidable (P s e)] :
    ∀ (s : S) (τ : List (Sigma A)), Decidable (M.Along P s τ)
  | _, [] => isTrue trivial
  | s, e :: τ =>
    have := Along.decidable (P := P) (M.next s e) τ
    inferInstanceAs (Decidable (P s e ∧ M.Along P (M.next s e) τ))

lemma Along.mono {P P' : S → Sigma A → Prop} (h : ∀ s e, P s e → P' s e) {s : S}
    {τ : List (Sigma A)} (hτ : M.Along P s τ) :
    M.Along P' s τ := by
  induction τ generalizing s with
  | nil => trivial
  | cons e τ ih => exact ⟨h s e hτ.1, ih hτ.2⟩

lemma Along.and {P P' : S → Sigma A → Prop} {s : S} {τ : List (Sigma A)} (h : M.Along P s τ)
    (h' : M.Along P' s τ) :
    M.Along (fun s e => P s e ∧ P' s e) s τ := by
  induction τ generalizing s with
  | nil => trivial
  | cons e τ ih => exact ⟨⟨h.1, h'.1⟩, ih h.2 h'.2⟩

/-- **The invariant rule of a run**: what every step keeps that meets the condition, the run
keeps. -/
lemma Along.keeps {P : S → Sigma A → Prop} {I : S → Prop}
    (hstep : ∀ s e, P s e → I s → I (M.next s e)) {s : S} {τ : List (Sigma A)}
    (h : M.Along P s τ) (hs : I s) : I (M.after s τ) := by
  induction τ generalizing s with
  | nil => exact hs
  | cons e τ ih => exact ih h.2 (hstep s e h.1 hs)

/-- In an environment whose answers fit the state, every entry of the run does. -/
lemma along_exec {P : S → Sigma A → Prop} {s₀ : S} {env : List (Sigma A) → (c : C) → A c}
    (h : ∀ seen c, P (seen.foldr (fun e s => M.next s e) s₀) ⟨c, env seen c⟩) (p : Prog C A α)
    (seen : List (Sigma A)) :
    M.Along P (seen.foldr (fun e s => M.next s e) s₀) (p.exec env seen).1 := by
  induction p generalizing seen with
  | ret a => trivial
  | stop => trivial
  | call c k ih => exact ⟨h seen c, ih _ (⟨c, env seen c⟩ :: seen)⟩

/-- The program keeps to the contract from a state on, and ends with `Q`. -/
def Safe : Prog C A α → S → (α → S → Prop) → Prop
  | .ret a, s, Q => Q a s
  | .stop, _, _ => True
  | .call c k, s, Q => ∀ r, M.rely s ⟨c, r⟩ → M.guard s ⟨c, r⟩ ∧ Safe (k r) (M.next s ⟨c, r⟩) Q

variable {M} {s : S} {Q : α → S → Prop}

lemma safe_pure {a : α} (h : Q a s) : M.Safe (pure a) s Q := h

lemma safe_ask {c : C} {Q : A c → S → Prop}
    (h : ∀ r, M.rely s ⟨c, r⟩ → M.guard s ⟨c, r⟩ ∧ Q r (M.next s ⟨c, r⟩)) :
    M.Safe (Prog.ask c) s Q := h

lemma Safe.mono {p : Prog C A α} {Q' : α → S → Prop} (h : M.Safe p s Q)
    (hQ : ∀ a s', Q a s' → Q' a s') : M.Safe p s Q' := by
  induction p generalizing s with
  | ret a => exact hQ a s h
  | stop => trivial
  | call c k ih => exact fun r hr => ⟨(h r hr).1, ih r (h r hr).2⟩

lemma Safe.bind {p : Prog C A α} {f : α → Prog C A β} {Q : β → S → Prop}
    (h : M.Safe p s fun a s' => M.Safe (f a) s' Q) : M.Safe (p >>= f) s Q := by
  induction p generalizing s with
  | ret a => exact h
  | stop => trivial
  | call c k ih => exact fun r hr => ⟨(h r hr).1, ih r (h r hr).2⟩

/-- First one program, with what it guarantees, then the other. -/
lemma Safe.seq {p : Prog C A α} {f : α → Prog C A β} {R : α → S → Prop} {Q : β → S → Prop}
    (h : M.Safe p s R) (hf : ∀ a s', R a s' → M.Safe (f a) s' Q) : M.Safe (p >>= f) s Q :=
  Safe.bind (h.mono hf)

/-- A program whose calls are allowed and leave the state as it is. -/
lemma safe_of_only {P : Sigma A → Prop} {p : Prog C A α} (hp : p.Only P)
    (h : ∀ e, P e → M.guard s e ∧ M.next s e = s) (hQ : ∀ a, Q a s) : M.Safe p s Q := by
  induction p with
  | ret a => exact hQ a
  | stop => trivial
  | call c k ih =>
    intro r _
    obtain ⟨hg, hn⟩ := h _ (hp r).1
    refine ⟨hg, ?_⟩
    rw [hn]
    exact ih r (hp r).2

/-- A program whose calls are allowed and keep an invariant. -/
lemma safe_of_invariant {P : Sigma A → Prop} {I : S → Prop} {p : Prog C A α} (hp : p.Only P)
    (h : ∀ s e, I s → P e → M.rely s e → M.guard s e ∧ I (M.next s e)) (hs : I s)
    (hQ : ∀ a s', I s' → Q a s') :
    M.Safe p s Q := by
  induction p generalizing s with
  | ret a => exact hQ a s hs
  | stop => trivial
  | call c k ih =>
    intro r hr
    obtain ⟨hg, hi⟩ := h s _ hs (hp r).1 hr
    exact ⟨hg, ih r (hp r).2 hi⟩

/-- **A safe program keeps to the contract along every run.** -/
theorem Safe.along {p : Prog C A α} (h : M.Safe p s Q) {τ : List (Sigma A)} {o : Option α}
    (hr : Prog.Runs p τ o) (hrely : M.Along M.rely s τ) :
    M.Along M.guard s τ ∧ ∀ a, o = some a → Q a (M.after s τ) := by
  induction hr generalizing s with
  | cut p => exact ⟨trivial, fun a ha => by cases ha⟩
  | ret a =>
    refine ⟨trivial, fun b hb => ?_⟩
    obtain rfl := Option.some.inj hb
    exact h
  | call hr ih =>
    obtain ⟨hg, hs⟩ := h _ hrely.1
    obtain ⟨h1, h2⟩ := ih hs hrely.2
    exact ⟨⟨hg, h1⟩, h2⟩

/-- A step that has a property. -/
def Step (M : Contract A S) (P : S → Sigma A → Prop) (s s' : S) : Prop :=
  ∃ e, P s e ∧ M.next s e = s'

/-- What keeps to a contract keeps to a looser one, by steps that the first one allows. -/
lemma Safe.traced {N : Contract A S} {p : Prog C A α} (hnext : N.next = M.next)
    (hrely : ∀ s e, N.rely s e → M.rely s e) (hguard : ∀ s e, M.guard s e → N.guard s e)
    (h : M.Safe p s Q) :
    N.Safe p s fun a s' => Q a s' ∧ Relation.ReflTransGen (M.Step M.guard) s s' := by
  induction p generalizing s with
  | ret a => exact ⟨h, .refl⟩
  | stop => trivial
  | call c k ih =>
    intro r hr
    obtain ⟨hg, hs⟩ := h r (hrely _ _ hr)
    refine ⟨hguard _ _ hg, ?_⟩
    rw [hnext]
    exact (ih r hs).mono fun a s' hQ => ⟨hQ.1, .head ⟨_, hg, rfl⟩ hQ.2⟩

/-- With the history as the state, a safe program leaves the history of one of its runs. -/
lemma Safe.runs {M : Contract A (List (Sigma A))} (hnext : ∀ h e, M.next h e = h ++ [e])
    {p : Prog C A α} {h : List (Sigma A)} {Q : α → List (Sigma A) → Prop} (hp : M.Safe p h Q) :
    M.Safe p h fun a h' => Q a h' ∧ ∃ τ, h' = h ++ τ ∧ Prog.Runs p τ (some a) := by
  induction p generalizing h with
  | ret a => exact ⟨hp, [], (List.append_nil h).symm, .ret a⟩
  | stop => trivial
  | call c k ih =>
    intro r hr
    obtain ⟨hg, hs⟩ := hp r hr
    refine ⟨hg, (ih r hs).mono fun a h' hQ => ⟨hQ.1, ?_⟩⟩
    obtain ⟨τ, rfl, hτ⟩ := hQ.2
    refine ⟨⟨c, r⟩ :: τ, ?_, .call hτ⟩
    rw [hnext]
    exact (List.append_cons h _ τ).symm

/-! ### Programs that end -/

variable (M)

/-- Whatever the environment answers within the contract, the program ends with `Q`. -/
def Sure : Prog C A α → S → (α → S → Prop) → Prop
  | .ret a, s, Q => Q a s
  | .stop, _, _ => False
  | .call c k, s, Q => ∀ r, M.rely s ⟨c, r⟩ → Sure (k r) (M.next s ⟨c, r⟩) Q

variable {M}

lemma sure_pure {a : α} (h : Q a s) : M.Sure (pure a) s Q := h

lemma sure_ask {c : C} {Q : A c → S → Prop} (h : ∀ r, M.rely s ⟨c, r⟩ → Q r (M.next s ⟨c, r⟩)) :
    M.Sure (Prog.ask c) s Q := h

lemma Sure.mono {p : Prog C A α} {Q' : α → S → Prop} (h : M.Sure p s Q)
    (hQ : ∀ a s', Q a s' → Q' a s') : M.Sure p s Q' := by
  induction p generalizing s with
  | ret a => exact hQ a s h
  | stop => exact h.elim
  | call c k ih => exact fun r hr => ih r (h r hr)

/-- First one program, then the other. -/
lemma Sure.seq {p : Prog C A α} {f : α → Prog C A β} {R : α → S → Prop} {Q : β → S → Prop}
    (h : M.Sure p s R) (hf : ∀ a s', R a s' → M.Sure (f a) s' Q) : M.Sure (p >>= f) s Q := by
  induction p generalizing s with
  | ret a => exact hf a s h
  | stop => exact h.elim
  | call c k ih => exact fun r hr => ih r (h r hr)

/-- A program that ends leaves the history of one of its runs. -/
lemma Sure.runs {M : Contract A (List (Sigma A))} (hnext : ∀ h e, M.next h e = h ++ [e])
    {p : Prog C A α} {h : List (Sigma A)} {Q : α → List (Sigma A) → Prop} (hp : M.Sure p h Q) :
    M.Sure p h fun a h' => Q a h' ∧ ∃ τ, h' = h ++ τ ∧ Prog.Runs p τ (some a) := by
  induction p generalizing h with
  | ret a => exact ⟨hp, [], (List.append_nil h).symm, .ret a⟩
  | stop => exact hp.elim
  | call c k ih =>
    refine fun r hr => (ih r (hp r hr)).mono fun a h' hQ => ⟨hQ.1, ?_⟩
    obtain ⟨τ, rfl, hτ⟩ := hQ.2
    refine ⟨⟨c, r⟩ :: τ, ?_, .call hτ⟩
    rw [hnext]
    exact (List.append_cons h _ τ).symm

end Contract

namespace Prog

variable {C : Type} {A : C → Type} {α β : Type}

/-- The program has an end on every path. -/
def Ends : Prog C A α → Prop
  | .ret _ => True
  | .stop => False
  | .call _ k => ∀ r, Ends (k r)

lemma Ends.bind {p : Prog C A α} {f : α → Prog C A β} (hp : Ends p) (hf : ∀ a, Ends (f a)) :
    Ends (p.bind f) := by
  induction p with
  | ret a => exact hf a
  | stop => exact hp.elim
  | call c k ih => exact fun r => ih r (hp r)

/-- If every call can be answered within the contract, there is a run to the end. -/
lemma Ends.exists_runs {S : Type} {M : Contract A S} {p : Prog C A α} (hp : Ends p)
    (h : ∀ s c, ∃ r, M.rely s ⟨c, r⟩) (s : S) :
    ∃ τ a, Runs p τ (some a) ∧ M.Along M.rely s τ := by
  induction p generalizing s with
  | ret a => exact ⟨[], a, .ret a, trivial⟩
  | stop => exact hp.elim
  | call c k ih =>
    obtain ⟨r, hr⟩ := h s c
    obtain ⟨τ, a, hruns, halong⟩ := ih r (hp r) (M.next s ⟨c, r⟩)
    exact ⟨⟨c, r⟩ :: τ, a, .call hruns, hr, halong⟩

end Prog

/-! ### The history as a state -/

/-- The contract in which everything that has happened is known. -/
def history {C : Type} {A : C → Type} (R : List (Sigma A) → Sigma A → Prop) :
    Contract A (List (Sigma A)) where
  rely := R
  guard := fun _ _ => True
  next := fun h e => h ++ [e]

lemma history_after {C : Type} {A : C → Type} (R : List (Sigma A) → Sigma A → Prop)
    (h τ : List (Sigma A)) :
    (history R).after h τ = h ++ τ := by
  induction τ generalizing h with
  | nil => exact (List.append_nil h).symm
  | cons e τ ih =>
    rw [Contract.after, List.foldl_cons]
    exact (ih _).trans (List.append_cons h e τ).symm

/-- With the history as the state, a condition along a run holds at every cut. -/
lemma Contract.Along.at_cut {C : Type} {A : C → Type} {M : Contract A (List (Sigma A))}
    (hnext : ∀ h e, M.next h e = h ++ [e]) {P : List (Sigma A) → Sigma A → Prop}
    {h pre post : List (Sigma A)} {e : Sigma A} (hτ : M.Along P h (pre ++ e :: post)) :
    P (h ++ pre) e := by
  induction pre generalizing h with
  | nil =>
    rw [List.append_nil]
    exact hτ.1
  | cons d pre ih =>
    have := ih hτ.2
    rwa [hnext, List.append_assoc] at this

lemma Contract.after_of_next {C : Type} {A : C → Type} {M : Contract A (List (Sigma A))}
    (hnext : ∀ h e, M.next h e = h ++ [e]) (h τ : List (Sigma A)) : M.after h τ = h ++ τ := by
  induction τ generalizing h with
  | nil => exact (List.append_nil h).symm
  | cons e τ ih =>
    rw [Contract.after, List.foldl_cons, hnext]
    exact (ih _).trans (List.append_cons h e τ).symm

/-- A condition along a history holds at every cut. -/
lemma along_history {C : Type} {A : C → Type} {R P : List (Sigma A) → Sigma A → Prop}
    {h pre post : List (Sigma A)} {e : Sigma A} (hτ : (history R).Along P h (pre ++ e :: post)) :
    P (h ++ pre) e := by
  obtain ⟨-, h2⟩ := Contract.Along.append _ hτ
  rw [history_after] at h2
  exact h2.1

end Pxeos.Lib
