import Pxeos.Lib.Interact

/-!
# Scripts

A script is a program with variables of its own that can exit at any point with a status; the
variables outlive the exit, so that a handler can use them.  `Holds` is its triple: one
postcondition for the end of the script and one for the exits.
-/

namespace Pxeos.Lib

/-- A script with calls `C`, answered in `A`, and variables `V`. -/
def Script (C : Type) (A : C → Type) (V α : Type) : Type := V → Prog C A (Except ℕ α × V)

namespace Script

variable {C : Type} {A : C → Type} {V α β : Type}

/-- One script after another, unless the first one exits. -/
def bind (p : Script C A V α) (f : α → Script C A V β) : Script C A V β := fun v =>
  (p v).bind fun r =>
    match r with
    | (.ok a, v') => f a v'
    | (.error n, v') => .ret (.error n, v')

instance : Monad (Script C A V) where
  pure a := fun v => .ret (.ok a, v)
  bind := Script.bind

/-- `exit n`. -/
def exit (n : ℕ) : Script C A V α := fun v => .ret (.error n, v)

/-- The variables. -/
def vars : Script C A V V := fun v => .ret (.ok v, v)

/-- An assignment. -/
def set (f : V → V) : Script C A V Unit := fun v => .ret (.ok (), f v)

/-- A call. -/
def ask (c : C) : Script C A V (A c) := fun v => .call c fun r => .ret (.ok r, v)

/-- A command whose exit is only its own end, as that of a function that returns. -/
def attempt (p : Script C A V α) : Script C A V (Except ℕ α) :=
  fun v => (p v).bind fun r => .ret (.ok r.1, r.2)

/-- The status of such a command. -/
def status (p : Script C A V Unit) : Script C A V ℕ := do
  match ← attempt p with
  | .ok _ => pure 0
  | .error n => pure n

/-- A command in a subshell: what it does to the variables is lost. -/
def subshell (p : Script C A V α) : Script C A V (Except ℕ α) := fun v =>
  (p v).bind fun r => .ret (.ok r.1, v)

/-- `for x in xs`. -/
def forEach {ι : Type} (xs : List ι) (turn : ι → Script C A V Unit) : Script C A V Unit :=
  match xs with
  | [] => pure ()
  | x :: xs => do
    turn x
    forEach xs turn

/-- A loop with variables of its own. -/
def foldEach {ι σ : Type} (turn : ι → σ → Script C A V σ) (xs : List ι) (a : σ) : Script C A V σ :=
  match xs with
  | [] => pure a
  | x :: xs => do
    let a ← turn x a
    foldEach turn xs a

variable {S : Type} {M : Contract A S} {v : V} {s : S} {Q : α → V → S → Prop} {E : ℕ → V → S → Prop}

variable (M) in
/-- From the variables `v` and the state `s` on, the script ends with `Q` or exits with `E`. -/
def Holds (p : Script C A V α) (v : V) (s : S) (Q : α → V → S → Prop) (E : ℕ → V → S → Prop) :
    Prop :=
  M.Safe (p v) s fun r s' =>
    match r.1 with
    | .ok a => Q a r.2 s'
    | .error n => E n r.2 s'

lemma holds_pure {a : α} (h : Q a v s) : Holds M (pure a) v s Q E := h

lemma holds_exit {n : ℕ} (h : E n v s) : Holds M (exit n) v s Q E := h

lemma holds_vars {Q : V → V → S → Prop} (h : Q v v s) : Holds M vars v s Q E := h

lemma holds_set {f : V → V} {Q : Unit → V → S → Prop} (h : Q () (f v) s) :
    Holds M (set f) v s Q E := h

lemma holds_ask {c : C} {Q : A c → V → S → Prop}
    (h : ∀ r, M.rely s ⟨c, r⟩ → M.guard s ⟨c, r⟩ ∧ Q r v (M.next s ⟨c, r⟩)) :
    Holds M (ask c) v s Q E := h

lemma Holds.mono {p : Script C A V α} {Q' : α → V → S → Prop} {E' : ℕ → V → S → Prop}
    (h : Holds M p v s Q E) (hQ : ∀ a v' s', Q a v' s' → Q' a v' s')
    (hE : ∀ n v' s', E n v' s' → E' n v' s') : Holds M p v s Q' E' := by
  refine Contract.Safe.mono h fun r s' hr => ?_
  obtain ⟨_ | _, v'⟩ := r
  · exact hE _ _ _ hr
  · exact hQ _ _ _ hr

/-- First one script, then the other. -/
lemma Holds.seq {p : Script C A V α} {f : α → Script C A V β} {R : β → V → S → Prop}
    (h : Holds M p v s (fun a v' s' => Holds M (f a) v' s' R E) E) : Holds M (p >>= f) v s R E := by
  refine Contract.Safe.bind (Contract.Safe.mono h fun r s' hr => ?_)
  obtain ⟨_ | _, v'⟩ := r
  · exact hr
  · exact hr

lemma Holds.bind {p : Script C A V α} {f : α → Script C A V β} {R : β → V → S → Prop}
    (h : Holds M p v s Q E) (hf : ∀ a v' s', Q a v' s' → Holds M (f a) v' s' R E) :
    Holds M (p >>= f) v s R E :=
  .seq (h.mono hf fun _ _ _ h => h)

lemma holds_attempt {p : Script C A V α} {Q : Except ℕ α → V → S → Prop}
    (h : Holds M p v s (fun a => Q (.ok a)) fun n => Q (.error n)) :
    Holds M (attempt p) v s Q E := by
  refine Contract.Safe.bind (Contract.Safe.mono h fun r s' hr => ?_)
  obtain ⟨_ | _, v'⟩ := r
  · exact hr
  · exact hr

lemma holds_status {p : Script C A V Unit} {Q : ℕ → V → S → Prop}
    (h : Holds M p v s (fun _ => Q 0) Q) :
    Holds M (status p) v s Q E := by
  refine Holds.seq (holds_attempt ?_)
  exact h.mono (fun _ _ _ h => h) fun _ _ _ h => h

lemma holds_subshell {p : Script C A V α} {Q : Except ℕ α → V → S → Prop}
    (h : Holds M p v s (fun a _ => Q (.ok a) v) fun n _ => Q (.error n) v) :
    Holds M (subshell p) v s Q E := by
  refine Contract.Safe.bind (Contract.Safe.mono h fun r s' hr => ?_)
  obtain ⟨_ | _, v'⟩ := r
  · exact hr
  · exact hr

/-- **A loop**: `I xs` holds when `xs` are still to come. -/
lemma holds_forEach {ι : Type} {turn : ι → Script C A V Unit} (I : List ι → V → S → Prop)
    (hturn : ∀ x xs v s, I (x :: xs) v s → Holds M (turn x) v s (fun _ => I xs) E) (xs : List ι)
    (h : I xs v s) :
    Holds M (forEach xs turn) v s (fun _ => I []) E := by
  induction xs generalizing v s with
  | nil => exact h
  | cons x xs ih => exact (hturn x xs v s h).bind fun _ _ _ h' => ih h'

/-- **A loop with variables of its own**: they keep the invariant. -/
lemma holds_foldEach {ι σ : Type} {turn : ι → σ → Script C A V σ} (I : σ → V → S → Prop)
    (hturn : ∀ x a v s, I a v s → Holds M (turn x a) v s I E) (xs : List ι) {a : σ} (h : I a v s) :
    Holds M (foldEach turn xs a) v s I E := by
  induction xs generalizing a v s with
  | nil => exact h
  | cons x xs ih => exact (hturn x a v s h).bind fun _ _ _ h' => ih h'

/-- What holds for a contract holds for a looser one, by steps that the first one allows. -/
lemma Holds.traced {N : Contract A S} (hnext : N.next = M.next)
    (hrely : ∀ s e, N.rely s e → M.rely s e) (hguard : ∀ s e, M.guard s e → N.guard s e)
    (h : Holds M p v s Q E) :
    Holds N p v s (fun a v' s' => Q a v' s' ∧ Relation.ReflTransGen (M.Step M.guard) s s')
      fun n v' s' => E n v' s' ∧ Relation.ReflTransGen (M.Step M.guard) s s' := by
  refine (Contract.Safe.traced hnext hrely hguard h).mono fun r s' hr => ?_
  obtain ⟨_ | _, v'⟩ := r
  · exact hr
  · exact hr

/-- With the history as the state, a script that holds leaves the history of one of its runs. -/
lemma Holds.runs {M : Contract A (List (Sigma A))} (hnext : ∀ h e, M.next h e = h ++ [e])
    {p : Script C A V α} {h : List (Sigma A)} {Q : α → V → List (Sigma A) → Prop}
    {E : ℕ → V → List (Sigma A) → Prop} (hp : Holds M p v h Q E) :
    Holds M p v h
      (fun a v' h' => Q a v' h' ∧ ∃ τ, h' = h ++ τ ∧ Prog.Runs (p v) τ (some (.ok a, v')))
      fun n v' h' => E n v' h' ∧ ∃ τ, h' = h ++ τ ∧ Prog.Runs (p v) τ (some (.error n, v')) := by
  refine Contract.Safe.mono (Contract.Safe.runs hnext hp) fun r h' hr => ?_
  obtain ⟨_ | _, v'⟩ := r
  · exact hr
  · exact hr

/-! ### Scripts that end -/

/-- The script ends, with whatever variables it starts. -/
def Ends (p : Script C A V α) : Prop := ∀ v, (p v).Ends

lemma ends_pure (a : α) : Ends (pure a : Script C A V α) := fun _ => trivial

lemma ends_exit (n : ℕ) : Ends (exit n : Script C A V α) := fun _ => trivial

lemma ends_vars : Ends (vars : Script C A V V) := fun _ => trivial

lemma ends_set (f : V → V) : Ends (set f : Script C A V Unit) := fun _ => trivial

lemma ends_ask (c : C) : Ends (ask c : Script C A V (A c)) := fun _ _ => trivial

lemma Ends.bind {p : Script C A V α} {f : α → Script C A V β} (hp : Ends p) (hf : ∀ a, Ends (f a)) :
    Ends (p >>= f) := by
  refine fun v => Prog.Ends.bind (hp v) fun r => ?_
  obtain ⟨_ | a, v'⟩ := r
  · trivial
  · exact hf a v'

end Script

end Pxeos.Lib
