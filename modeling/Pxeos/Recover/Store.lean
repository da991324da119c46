import Pxeos.Recover.Controller

/-!
# The image store

The store that the helper changes, with the paths that the execution created or moved.  A change is
made as a whole or not at all, and it may be made although the controller does not learn so.  A
controller that is stopped anywhere is started again for a recovery, as often as that takes.
-/

namespace Pxeos.Recover

open Pxeos.Lib

inductive Node where
  | dir
  | file (content : Str)
  deriving DecidableEq, Repr

/-- The store.  `old` is what was at the image path before the capture, `captured` what was written
below the payload, and `returned` whether the old tree was moved back. -/
structure Store where
  entries : List (Path × Node)
  owned : List Path
  old : List (Path × Node)
  captured : List (Path × Node)
  returned : Bool
  deriving DecidableEq, Repr

/-- What a change does to the entries. -/
def Remote.entries : Remote → List (Path × Node) → List (Path × Node)
  | .mkdir p, es => if es.any (fun e => e.1 == p) then es else (p, .dir) :: es
  | .write p content, es => (p, .file content) :: es.filter fun e => decide (e.1 ≠ p)
  | .rename a b, es => moveTree a b es
  | .remove p, es => es.filter fun e => decide (e.1 ≠ p)

/-- What a change does to the owned paths: those that are created or moved are owned. -/
def Remote.owned : Remote → List (Path × Node) → List Path → List Path
  | .mkdir p, es, own => if es.any (fun e => e.1 == p) then own else p :: own
  | .write p _, _, own => p :: own.filter fun q => decide (q ≠ p)
  | .rename a b, es, own =>
    own.filter (fun q => decide (¬ a <+: q)) ++ (es.filter fun e => decide (a <+: e.1)).map fun e =>
      relocate a b e.1
  | .remove p, _, own => own.filter fun q => decide (q ≠ p)

/-- When a change can be made: a rename replaces nothing, and only what is owned and has nothing
below it is removed. -/
def Remote.Possible (s : Store) : Remote → Prop
  | .mkdir _ => True
  | .write _ _ => True
  | .rename a b => (∃ e ∈ s.entries, e.1 = a) ∧ ∀ e ∈ s.entries, ¬ b <+: e.1
  | .remove p => p ∈ s.owned ∧ (∃ e ∈ s.entries, e.1 = p) ∧ ∀ e ∈ s.entries, p <+: e.1 → e.1 = p

instance (s : Store) : ∀ r : Remote, Decidable (r.Possible s)
  | .mkdir _ => inferInstanceAs (Decidable True)
  | .write _ _ => inferInstanceAs (Decidable True)
  | .rename a b =>
    inferInstanceAs (Decidable ((∃ e ∈ s.entries, e.1 = a) ∧ ∀ e ∈ s.entries, ¬ b <+: e.1))
  | .remove p =>
    inferInstanceAs (Decidable (p ∈ s.owned ∧ (∃ e ∈ s.entries, e.1 = p) ∧ ∀ e ∈ s.entries,
      p <+: e.1 → e.1 = p))

/-- A change at the payload or below it. -/
def Remote.InPayload (L : Layout) : Remote → Prop
  | .mkdir p => L.payload <+: p
  | .write p _ => L.payload <+: p
  | .rename a b => L.payload <+: a ∧ L.payload <+: b ∧ a ≠ L.payload
  | .remove p => L.payload <+: p

instance (L : Layout) : ∀ r : Remote, Decidable (r.InPayload L)
  | .mkdir p => inferInstanceAs (Decidable (L.payload <+: p))
  | .write p _ => inferInstanceAs (Decidable (L.payload <+: p))
  | .rename a b => inferInstanceAs (Decidable (L.payload <+: a ∧ L.payload <+: b ∧ a ≠ L.payload))
  | .remove p => inferInstanceAs (Decidable (L.payload <+: p))

/-- A change is made. -/
def Store.apply (L : Layout) (s : Store) (r : Remote) : Store where
  entries := r.entries s.entries
  owned := r.owned s.entries s.owned
  old := s.old
  captured := if r.InPayload L then treeAt L.payload (r.entries s.entries) else s.captured
  returned := s.returned || decide (r = .rename L.previous L.img)

/-- What a call does. -/
def Store.next (L : Layout) (s : Store) : Sigma Call.Answer → Store
  | ⟨.exec r, o⟩ => if o.made then s.apply L r else s
  | _ => s

/-- What helper and server answer: a change of which the controller learns was made, a change that
was made could be, and the owned paths are those of the store. -/
def Rely (d : Disposition) (s : Store) : Sigma Call.Answer → Prop
  | ⟨.exec r, o⟩ => (o.ok = true → o.made = true) ∧ (o.made = true → r.Possible s)
  | ⟨.owned, some response⟩ =>
    (∀ q ∈ response.owned.map Prod.fst, q ∈ s.owned) ∧
      (∀ q ∈ s.owned, q ∈ response.owned.map Prod.fst) ∧
      response.disposition = d
  | _ => True

instance (d : Disposition) (s : Store) : ∀ e, Decidable (Rely d s e)
  | ⟨.exec r, o⟩ =>
    inferInstanceAs (Decidable ((o.ok = true → o.made = true) ∧ (o.made = true → r.Possible s)))
  | ⟨.owned, some response⟩ =>
    inferInstanceAs (Decidable ((∀ q ∈ response.owned.map Prod.fst, q ∈ s.owned) ∧
      (∀ q ∈ s.owned, q ∈ response.owned.map Prod.fst) ∧ response.disposition = d))
  | ⟨.owned, none⟩ => inferInstanceAs (Decidable True)
  | ⟨.request _, _⟩ => inferInstanceAs (Decidable True)

/-- The store before the end of a capture: nothing of the execution is at the image path, and
nothing was moved away. -/
structure Initial (L : Layout) (s : Store) : Prop where
  old : treeAt L.img s.entries = s.old
  captured : treeAt L.payload s.entries = s.captured
  img : L.img ∉ s.owned
  previous : treeAt L.previous s.entries = []
  previousOwned : L.previous ∉ s.owned
  returned : s.returned = false

/-- The contract between the controller and its environment: `C` are further conditions, and `I` is
kept. -/
def contract (L : Layout) (d : Disposition) (C : Store → Sigma Call.Answer → Prop)
    (I : Store → Prop) :
    Contract Call.Answer Store where
  rely s e := Rely d s e ∧ C s e
  guard s e := I (s.next L e)
  next := Store.next L

/-- **Executions.**  The stores in which a controller that runs to its end or is stopped anywhere
leaves off: first the one of the capture, then any number of recoveries. -/
inductive Left (L : Layout) (d : Disposition) (C : Store → Sigma Call.Answer → Prop) : Store → Prop
  | capture {s : Store} (hs : Initial L s) (w : Workspace) {τ : List (Sigma Call.Answer)}
      {o : Option Bool}
      (hr : Prog.Runs (rootpxeFinalizeCapture L w) τ o)
      (hrely : (contract L d (fun _ _ => True) fun _ => True).Along (contract L d (fun _ _ => True)
        fun _ => True).rely s τ) :
      Left L d C ((contract L d C fun _ => True).after s τ)
  | recover {s : Store} (hs : Left L d C s) {τ : List (Sigma Call.Answer)} {o : Option Bool}
      (hr : Prog.Runs (rootpxeStorageRecoverOnce L true) τ o)
      (hrely : (contract L d C fun _ => True).Along (contract L d C fun _ => True).rely s τ) :
      Left L d C ((contract L d C fun _ => True).after s τ)

end Pxeos.Recover
