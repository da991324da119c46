import Pxeos.Recover.Store

/-!
# Publishing and recovery are atomic

Where the old tree and the new one can be, what each change makes of that, and what a run of the
controller keeps.
-/

namespace Pxeos.Recover

open Pxeos.Lib

variable {L : Layout} {s : Store}

/-! ### Where the trees are -/

/-- Nothing has been moved. -/
structure AtRest (L : Layout) (s : Store) : Prop where
  img : treeAt L.img s.entries = s.old
  imgOwned : L.img ∉ s.owned
  previous : treeAt L.previous s.entries = []
  previousOwned : L.previous ∉ s.owned
  returned : s.returned = false

/-- The old tree has been moved away. -/
structure TakenAway (L : Layout) (s : Store) : Prop where
  img : treeAt L.img s.entries = []
  imgOwned : L.img ∉ s.owned
  previous : treeAt L.previous s.entries = s.old
  previousOwned : L.previous ∈ s.owned
  returned : s.returned = false

/-- The new tree is at the image path. -/
structure Replaced (L : Layout) (s : Store) : Prop where
  img : treeAt L.img s.entries = s.captured
  imgOwned : L.img ∈ s.owned
  captured : s.captured ≠ []
  payload : treeAt L.payload s.entries = []
  payloadOwned : L.payload ∉ s.owned
  returned : s.returned = false

/-- The old tree is at the image path again. -/
structure MovedBack (L : Layout) (s : Store) : Prop where
  img : treeAt L.img s.entries = s.old
  imgOwned : L.img ∈ s.owned
  returned : s.returned = true

/-- The old tree, if there was one, is where it was moved to. -/
def OldWhole (L : Layout) (s : Store) : Prop :=
  (L.previous ∈ s.owned ∧ treeAt L.previous s.entries = s.old) ∨
    (L.previous ∉ s.owned ∧ treeAt L.previous s.entries = [] ∧ s.old = [])

/-- The payload is what was captured. -/
def Staged (L : Layout) (s : Store) : Prop := treeAt L.payload s.entries = s.captured

/-- The stores of a capture that is being finalized. -/
def Finalizing (L : Layout) (s : Store) : Prop :=
  (AtRest L s ∧ Staged L s) ∨ (TakenAway L s ∧ Staged L s) ∨ (Replaced L s ∧ OldWhole L s)

/-- The stores of an execution that is to be published. -/
def Publishing (L : Layout) (s : Store) : Prop :=
  (AtRest L s ∧ Staged L s) ∨ (TakenAway L s ∧ Staged L s) ∨ Replaced L s

/-- The stores of an execution that is to be undone. -/
def Undoing (L : Layout) (s : Store) : Prop :=
  AtRest L s ∨ TakenAway L s ∨ MovedBack L s ∨ (Replaced L s ∧ OldWhole L s)

/-- The stores of an execution. -/
def Recovering (L : Layout) (d : Disposition) (s : Store) : Prop :=
  if d = .rollback then Undoing L s else Publishing L s

/-- The old tree is not gone before the new one is at the image path. -/
def Kept (L : Layout) (s : Store) : Prop :=
  s.old = [] ∨ (∃ r, treeAt r s.entries = s.old) ∨
    (treeAt L.img s.entries = s.captured ∧ s.captured ≠ [])

lemma Publishing.kept (h : Publishing L s) : Kept L s := by
  rcases h with ⟨h, -⟩ | ⟨h, -⟩ | h
  · exact .inr (.inl ⟨_, h.img⟩)
  · exact .inr (.inl ⟨_, h.previous⟩)
  · exact .inr (.inr ⟨h.img, h.captured⟩)

lemma Undoing.kept (h : Undoing L s) : Kept L s := by
  rcases h with h | h | h | ⟨h, -⟩
  · exact .inr (.inl ⟨_, h.img⟩)
  · exact .inr (.inl ⟨_, h.previous⟩)
  · exact .inr (.inl ⟨_, h.img⟩)
  · exact .inr (.inr ⟨h.img, h.captured⟩)

lemma Recovering.kept {d : Disposition} (h : Recovering L d s) : Kept L s := by
  unfold Recovering at h
  split at h
  · exact Undoing.kept h
  · exact Publishing.kept h

lemma Finalizing.recovering (h : Finalizing L s) (d : Disposition) : Recovering L d s := by
  unfold Recovering
  split
  · rcases h with ⟨h, -⟩ | ⟨h, -⟩ | h
    · exact .inl h
    · exact .inr (.inl h)
    · exact .inr (.inr (.inr h))
  · rcases h with h | h | ⟨h, -⟩
    · exact .inl h
    · exact .inr (.inl h)
    · exact .inr (.inr h)

/-! ### Paths -/

section Paths

variable (L)

lemma img_payload : Apart L.img L.payload := L.img_stage.below (List.prefix_append _ _)

lemma img_previous : Apart L.img L.previous := L.img_stage.below (List.prefix_append _ _)

lemma payload_previous : Apart L.payload L.previous := by
  constructor
  · intro h
    simpa using (List.prefix_append_right_inj L.stage).mp h
  · intro h
    simpa using (List.prefix_append_right_inj L.stage).mp h

end Paths

/-! ### Owned paths after a rename -/

lemma mem_owned_rename {a b q : Path} {es : List (Path × Node)} {own : List Path} :
    q ∈ (Remote.rename a b).owned es own ↔ (q ∈ own ∧ ¬ a <+: q) ∨ ∃ e ∈ es, a <+: e.1 ∧
      relocate a b e.1 = q := by
  simp [Remote.owned, and_assoc]

lemma target_mem_owned {a b : Path} {es : List (Path × Node)} {own : List Path}
    (h : ∃ e ∈ es, e.1 = a) :
    b ∈ (Remote.rename a b).owned es own := by
  obtain ⟨e, he, rfl⟩ := h
  refine mem_owned_rename.mpr (.inr ⟨e, he, List.prefix_refl _, ?_⟩)
  simp [relocate]

lemma source_notMem_owned {a b : Path} {es : List (Path × Node)} {own : List Path} (h : Apart a b) :
    a ∉ (Remote.rename a b).owned es own := by
  rw [mem_owned_rename]
  rintro (⟨-, h'⟩ | ⟨e, -, -, heq⟩)
  · exact h' (List.prefix_refl a)
  · exact h.2 (heq ▸ List.prefix_append _ _)

lemma other_mem_owned {a b q : Path} {es : List (Path × Node)} {own : List Path} (ha : ¬ a <+: q)
    (hb : ¬ b <+: q) :
    q ∈ (Remote.rename a b).owned es own ↔ q ∈ own := by
  rw [mem_owned_rename]
  constructor
  · rintro (⟨h, -⟩ | ⟨e, -, -, heq⟩)
    · exact h
    · exact absurd (heq ▸ List.prefix_append _ _) hb
  · exact fun h => .inl ⟨h, ha⟩

/-! ### What the renames do -/

lemma treeAt_ne_nil {a : Path} {es : List (Path × Node)} (h : ∃ e ∈ es, e.1 = a) :
    treeAt a es ≠ [] := by
  intro h0
  obtain ⟨e, he, rfl⟩ := h
  exact treeAt_eq_nil.mp h0 e he (List.prefix_refl _)

lemma apply_returned {r : Remote} (h : r ≠ .rename L.previous L.img) :
    (s.apply L r).returned = s.returned := by
  simp [Store.apply, h]

lemma apply_captured {r : Remote} (h : ¬ r.InPayload L) : (s.apply L r).captured = s.captured :=
  if_neg h

lemma rename_ne {a b : Path} (h : Apart a L.previous) :
    Remote.rename a b ≠ .rename L.previous L.img := by
  intro heq
  obtain ⟨rfl, -⟩ := Remote.rename.inj heq
  exact h.1 (List.prefix_refl _)

/-- The old tree is moved away. -/
lemma AtRest.take (h : AtRest L s) (hst : Staged L s)
    (hp : (Remote.rename L.img L.previous).Possible s) :
    TakenAway L (s.apply L (.rename L.img L.previous)) ∧
    Staged L (s.apply L (.rename L.img L.previous)) := by
  have hin : ¬ (Remote.rename L.img L.previous).InPayload L := fun hi => (img_payload L).2 hi.1
  refine ⟨⟨?_, ?_, ?_, ?_, ?_⟩, ?_⟩
  · exact treeAt_moveTree_source (img_previous L)
  · exact source_notMem_owned (img_previous L)
  · exact (treeAt_moveTree_target hp.2).trans h.img
  · exact target_mem_owned hp.1
  · rw [apply_returned (rename_ne (img_previous L)), h.returned]
  · unfold Staged
    rw [apply_captured hin]
    exact (treeAt_moveTree_other (img_payload L).symm (payload_previous L)).trans hst

/-- The payload is moved to the image path, which is free. -/
lemma replace (hst : Staged L s) (hret : s.returned = false)
    (hp : (Remote.rename L.payload L.img).Possible s) :
    Replaced L (s.apply L (.rename L.payload L.img)) := by
  have hin : ¬ (Remote.rename L.payload L.img).InPayload L := fun hi => (img_payload L).2 hi.2.1
  have hpay : treeAt L.payload s.entries ≠ [] := treeAt_ne_nil hp.1
  refine ⟨?_, target_mem_owned hp.1, ?_, ?_, ?_, ?_⟩
  · rw [apply_captured hin]
    exact (treeAt_moveTree_target hp.2).trans hst
  · rw [apply_captured hin, ← hst]
    exact hpay
  · exact treeAt_moveTree_source (img_payload L).symm
  · exact source_notMem_owned (img_payload L).symm
  · rw [apply_returned (rename_ne (payload_previous L)), hret]

/-- A rename from the payload to the image path, or back, leaves the old tree where it is. -/
lemma oldWhole_rename {a b : Path} (ha : Apart L.previous a) (hb : Apart L.previous b)
    (h : OldWhole L s) :
    OldWhole L (s.apply L (.rename a b)) := by
  have htree : treeAt L.previous (s.apply L (.rename a b)).entries = treeAt L.previous s.entries :=
    treeAt_moveTree_other ha hb
  have hown : L.previous ∈ (s.apply L (.rename a b)).owned ↔ L.previous ∈ s.owned :=
    other_mem_owned ha.2 hb.2
  unfold OldWhole
  rw [htree, hown]
  exact h

lemma AtRest.replace (h : AtRest L s) (hst : Staged L s)
    (hp : (Remote.rename L.payload L.img).Possible s) :
    Replaced L (s.apply L (.rename L.payload L.img)) ∧
    OldWhole L (s.apply L (.rename L.payload L.img)) := by
  refine ⟨Recover.replace hst h.returned hp,
    oldWhole_rename (payload_previous L).symm (img_previous L).symm ?_⟩
  exact .inr ⟨h.previousOwned, h.previous, h.img ▸ treeAt_eq_nil.mpr hp.2⟩

lemma TakenAway.replace (h : TakenAway L s) (hst : Staged L s)
    (hp : (Remote.rename L.payload L.img).Possible s) :
    Replaced L (s.apply L (.rename L.payload L.img)) ∧
    OldWhole L (s.apply L (.rename L.payload L.img)) := by
  refine ⟨Recover.replace hst h.returned hp,
    oldWhole_rename (payload_previous L).symm (img_previous L).symm ?_⟩
  exact .inl ⟨h.previousOwned, h.previous⟩

/-- The new tree is moved back to the stage. -/
lemma Replaced.undo (h : Replaced L s) (hw : OldWhole L s) :
    (L.previous ∈ s.owned ∧ TakenAway L (s.apply L (.rename L.img L.payload))) ∨
      (L.previous ∉ s.owned ∧ AtRest L (s.apply L (.rename L.img L.payload))) := by
  have himg : treeAt L.img (s.apply L (.rename L.img L.payload)).entries = [] :=
    treeAt_moveTree_source (img_payload L)
  have himgOwned : L.img ∉ (s.apply L (.rename L.img L.payload)).owned :=
    source_notMem_owned (img_payload L)
  have hret : (s.apply L (.rename L.img L.payload)).returned = false := by
    rw [apply_returned (rename_ne (img_previous L)), h.returned]
  have hprev : L.previous ∈ (s.apply L (.rename L.img L.payload)).owned ↔ L.previous ∈ s.owned :=
    other_mem_owned (img_previous L).1 (payload_previous L).1
  rcases oldWhole_rename (img_previous L).symm (payload_previous L).symm hw with ⟨hown,
    htree⟩ | ⟨hown, htree, hold⟩
  · exact .inl ⟨hprev.mp hown, himg, himgOwned, htree, hown, hret⟩
  · exact .inr ⟨fun h' => hown (hprev.mpr h'), himg.trans hold.symm, himgOwned, htree, hown, hret⟩

/-- The old tree is moved back to the image path. -/
lemma TakenAway.back (h : TakenAway L s) (hp : (Remote.rename L.previous L.img).Possible s) :
    MovedBack L (s.apply L (.rename L.previous L.img)) := by
  refine ⟨(treeAt_moveTree_target hp.2).trans h.previous, target_mem_owned hp.1, ?_⟩
  simp [Store.apply]

/-! ### Removals -/

lemma img_outside {p : Path} (h : L.stage <+: p) : ¬ L.img <+: p := L.img_stage.symm.not_both h

section Removals

variable {p : Path}

lemma treeAt_remove {r : Path} (h : ¬ r <+: p) :
    treeAt r (s.apply L (.remove p)).entries = treeAt r s.entries :=
  treeAt_filter_other h

lemma mem_owned_remove {q : Path} : q ∈ (s.apply L (.remove p)).owned ↔ q ∈ s.owned ∧ q ≠ p := by
  simp [Store.apply, Remote.owned]

lemma remove_returned : (s.apply L (.remove p)).returned = s.returned := apply_returned (by simp)

lemma AtRest.remove (h : AtRest L s) (hp : ¬ L.img <+: p) : AtRest L (s.apply L (.remove p)) := by
  refine ⟨(treeAt_remove hp).trans h.img, fun hm => ?_, treeAt_filter_nil h.previous,
    fun hm => ?_, ?_⟩
  · exact h.imgOwned (mem_owned_remove.mp hm).1
  · exact h.previousOwned (mem_owned_remove.mp hm).1
  · rw [remove_returned, h.returned]

lemma MovedBack.remove (h : MovedBack L s) (hp : ¬ L.img <+: p) :
    MovedBack L (s.apply L (.remove p)) := by
  refine ⟨(treeAt_remove hp).trans h.img, mem_owned_remove.mpr ⟨h.imgOwned, ?_⟩, ?_⟩
  · rintro rfl
    exact hp (List.prefix_refl _)
  · rw [remove_returned, h.returned]

lemma Replaced.remove (h : Replaced L s) (hp : ¬ L.img <+: p)
    (hpos : (Remote.remove p).Possible s) :
    Replaced L (s.apply L (.remove p)) := by
  -- nothing is left of the payload, so that the removal is not one of its own
  have hin : ¬ (Remote.remove p).InPayload L := by
    intro hi
    obtain ⟨e, he, rfl⟩ := hpos.2.1
    exact treeAt_eq_nil.mp h.payload e he hi
  refine ⟨?_, mem_owned_remove.mpr ⟨h.imgOwned, ?_⟩, ?_, treeAt_filter_nil h.payload,
    fun hm => ?_, ?_⟩
  · rw [apply_captured hin]
    exact (treeAt_remove hp).trans h.img
  · rintro rfl
    exact hp (List.prefix_refl _)
  · rw [apply_captured hin]
    exact h.captured
  · exact h.payloadOwned (mem_owned_remove.mp hm).1
  · rw [remove_returned, h.returned]

end Removals

/-! ### Changes of the payload -/

/-- A change below the payload, or of a directory on the way to it. -/
def Remote.OfPayload (L : Layout) (r : Remote) : Prop :=
  r.InPayload L ∨ ∃ p, r = .mkdir p ∧ p <+: L.payload

lemma not_prefix_of_payload {R p : Path} (hR : Apart R L.payload)
    (hp : L.payload <+: p ∨ p <+: L.payload) : ¬ R <+: p := by
  intro h
  rcases hp with hp | hp
  · exact hR.not_both h hp
  · exact hR.1 (h.trans hp)

lemma mkdir_untouched {R p : Path} (es : List (Path × Node)) (own : List Path) (h : ¬ R <+: p) :
    treeAt R ((Remote.mkdir p).entries es) = treeAt R es ∧
    (R ∈ (Remote.mkdir p).owned es own ↔ R ∈ own) := by
  have hne : R ≠ p := fun heq => h (heq ▸ List.prefix_refl _)
  by_cases hex : (es.any fun e => e.1 == p) = true
  · simp [Remote.entries, Remote.owned, hex]
  · simp only [Remote.entries, Remote.owned, hex]
    exact ⟨treeAt_cons_other h, by simp [hne]⟩

/-- What is apart from the payload is not touched. -/
lemma untouched {R : Path} {r : Remote} (es : List (Path × Node)) (own : List Path)
    (hR : Apart R L.payload) (hr : r.OfPayload L) :
    treeAt R (r.entries es) = treeAt R es ∧ (R ∈ r.owned es own ↔ R ∈ own) := by
  rcases hr with hr | ⟨p, rfl, hp⟩
  · cases r with
    | mkdir p => exact mkdir_untouched es own (not_prefix_of_payload hR (.inl hr))
    | write p content =>
      have h : ¬ R <+: p := not_prefix_of_payload hR (.inl hr)
      have hne : R ≠ p := fun heq => h (heq ▸ List.prefix_refl _)
      exact ⟨(treeAt_cons_other h).trans (treeAt_filter_other h), by simp [Remote.owned, hne]⟩
    | rename a b =>
      have ha := hR.below hr.1
      have hb := hR.below hr.2.1
      exact ⟨treeAt_moveTree_other ha hb, other_mem_owned ha.2 hb.2⟩
    | remove p =>
      have h : ¬ R <+: p := not_prefix_of_payload hR (.inl hr)
      have hne : R ≠ p := fun heq => h (heq ▸ List.prefix_refl _)
      exact ⟨treeAt_filter_other h, by simp [Remote.owned, hne]⟩
  · exact mkdir_untouched es own (not_prefix_of_payload hR (.inr hp))

lemma ofPayload_ne {r : Remote} (hr : r.OfPayload L) : r ≠ .rename L.previous L.img := by
  rintro rfl
  rcases hr with hr | ⟨p, hp, -⟩
  · exact (payload_previous L).1 hr.1
  · cases hp

/-- Before anything is moved, the payload can be changed. -/
lemma AtRest.ofPayload {r : Remote} (h : AtRest L s) (hst : Staged L s) (hr : r.OfPayload L) :
    AtRest L (s.apply L r) ∧ Staged L (s.apply L r) := by
  have himg := untouched s.entries s.owned (img_payload L) hr
  have hprev := untouched s.entries s.owned (payload_previous L).symm hr
  refine ⟨⟨himg.1.trans h.img, ?_, hprev.1.trans h.previous, ?_, ?_⟩, ?_⟩
  · exact fun hm => h.imgOwned (himg.2.mp hm)
  · exact fun hm => h.previousOwned (hprev.2.mp hm)
  · rw [apply_returned (ofPayload_ne hr), h.returned]
  · by_cases hin : r.InPayload L
    · exact (if_pos hin).symm
    · unfold Staged
      rw [apply_captured hin]
      obtain ⟨p, rfl, hp⟩ := hr.resolve_left hin
      exact (mkdir_untouched s.entries s.owned hin).1.trans hst

/-! ### Programs that end well -/

section Programs

variable {d : Disposition} {C : Store → Sigma Call.Answer → Prop} {I : Store → Prop}

/-- A program keeps `I`, and `R` holds if it ends with success. -/
def Ends (L : Layout) (d : Disposition) (C : Store → Sigma Call.Answer → Prop) (I : Store → Prop)
    (p : Controller Bool) (s : Store) (R : Store → Prop) : Prop :=
  (contract L d C I).Safe p s fun b s' => b = true → R s'

variable {R R' : Store → Prop}

lemma ends_pure {b : Bool} (h : b = true → R s) : Ends L d C I (pure b) s R := Contract.safe_pure h

lemma Ends.orReturn {p q : Controller Bool} (hp : Ends L d C I p s R)
    (hq : ∀ s', R s' → Ends L d C I q s' R') :
    Ends L d C I (orReturn p q) s R' := by
  refine Contract.Safe.seq hp fun b s' h => ?_
  cases b with
  | true => exact hq s' (h rfl)
  | false => exact Contract.safe_pure fun hf => by cases hf

lemma Ends.forEach {α : Type} {turn : α → Controller Bool} {xs : List α}
    (h : ∀ x ∈ xs, ∀ s, R s → Ends L d C I (turn x) s R) (hs : R s) :
    Ends L d C I (forEach xs turn) s R := by
  induction xs generalizing s with
  | nil => exact ends_pure fun _ => hs
  | cons x xs ih =>
    refine Ends.orReturn (h x List.mem_cons_self s hs) fun s' hs' => ?_
    exact ih (fun y hy => h y (List.mem_cons_of_mem _ hy)) hs'

lemma ends_exec {r : Remote} (h : ∀ o : Outcome, o.made = true → r.Possible s → C s ⟨.exec r, o⟩ →
    I (s.apply L r) ∧ R (s.apply L r)) (hI : I s) : Ends L d C I (exec r) s R := by
  refine Contract.Safe.bind (Contract.safe_ask fun o ho => ?_)
  obtain ⟨⟨hok, hmade⟩, hC⟩ := ho
  show I (if o.made = true then s.apply L r else s) ∧
    (contract L d C I).Safe (pure o.ok) (if o.made = true then _ else _) _
  by_cases hm : o.made = true
  · rw [if_pos hm]
    have := h o hm (hmade hm) hC
    exact ⟨this.1, Contract.safe_pure fun _ => this.2⟩
  · rw [if_neg hm]
    exact ⟨hI, Contract.safe_pure fun h' => absurd (hok h') hm⟩

lemma ends_withOwned {k : Response → Controller Bool}
    (h : ∀ response, Rely d s ⟨.owned, some response⟩ → C s ⟨.owned, some response⟩ →
      Ends L d C I (k response) s R)
    (hI : I s) : Ends L d C I (withOwned k) s R := by
  refine Contract.Safe.bind (Contract.safe_ask fun o ho => ?_)
  refine ⟨hI, ?_⟩
  cases o with
  | none => exact Contract.safe_pure fun hf => by cases hf
  | some response => exact h response ho.1 ho.2

lemma ends_request {r : Request} (hI : I s) (hR : R s) : Ends L d C I (request r) s R :=
  Contract.safe_ask fun _ _ => ⟨hI, fun _ => hR⟩

lemma Ends.mono {p : Controller Bool} (h : Ends L d C I p s R) (hR : ∀ s', R s' → R' s') :
    Ends L d C I p s R' :=
  Contract.Safe.mono h fun _ s' hs hb => hR s' (hs hb)

/-- What is owned, as the controller learns it. -/
lemma has_iff {response : Response} (h : Rely d s ⟨.owned, some response⟩) (q : Path) :
    response.has q = true ↔ q ∈ s.owned := by
  unfold Response.has
  rw [List.any_eq_true]
  constructor
  · rintro ⟨o, ho, heq⟩
    rw [beq_iff_eq] at heq
    exact h.1 q (heq ▸ List.mem_map.mpr ⟨o, ho, rfl⟩)
  · intro hq
    obtain ⟨o, ho, rfl⟩ := List.mem_map.mp (h.2.1 q hq)
    exact ⟨o, ho, beq_self_eq_true _⟩

lemma mem_deepest {response : Response} {o : Path × Bool} :
    o ∈ response.deepest ↔ o ∈ response.owned := by
  unfold Response.deepest
  rw [List.mem_reverse, List.mem_insertionSort]

/-! ### The end of a capture -/

/-- Nothing has been moved, and the payload is what was captured. -/
def Ready (L : Layout) (s : Store) : Prop := AtRest L s ∧ Staged L s

lemma Ready.finalizing (h : Ready L s) : Finalizing L s := .inl h

lemma ends_ofPayload {r : Remote} (hr : r.OfPayload L) (h : Ready L s) :
    Ends L d C (Finalizing L) (exec r) s (Ready L) := by
  refine ends_exec (fun _ _ _ _ => ?_) h.finalizing
  have := h.1.ofPayload h.2 hr
  exact ⟨.inl this, this⟩

lemma ends_ensureParents {q : Path} (h : Ready L s) :
    Ends L d C (Finalizing L) (ensureParents (L.payload ++ q)) s (Ready L) := by
  refine Ends.forEach (fun p hp s hs => ends_ofPayload ?_ hs) h
  have hpre : p <+: L.payload ++ q :=
    ((List.mem_inits p _).mp (List.mem_of_mem_drop hp)).trans (List.dropLast_prefix _)
  rcases List.prefix_or_prefix_of_prefix hpre (List.prefix_append L.payload q) with h' | h'
  · exact .inr ⟨p, rfl, h'⟩
  · exact .inl h'

lemma ends_syncPayloadNames (w : Workspace) (h : Ready L s) :
    Ends L d C (Finalizing L) (syncPayloadNames L w) s (Ready L) := by
  refine Ends.orReturn (Ends.forEach (fun r hr s hs => ?_) h) fun s hs =>
    ends_request hs.finalizing hs
  refine Ends.orReturn (ends_request hs.finalizing hs) fun s hs => ?_
  refine Ends.orReturn (ends_ensureParents hs) fun s hs => ?_
  refine Ends.orReturn (ends_ofPayload (.inl ⟨List.prefix_append _ _, List.prefix_append _ _, ?_⟩)
    hs) fun s hs =>
    ends_request hs.finalizing hs
  intro heq
  exact w.renamed_ne r hr (by simpa using heq)

lemma ends_syncMetadata (w : Workspace) (h : Ready L s) :
    Ends L d C (Finalizing L) (syncMetadata L w) s (Ready L) := by
  refine Ends.orReturn (ends_syncPayloadNames w h) fun s hs => ?_
  refine Ends.orReturn (Ends.forEach (fun f _ s hs => ?_) hs) fun s hs =>
    ends_withOwned (fun response _ _ => ?_) hs.finalizing
  · refine Ends.orReturn (ends_request hs.finalizing hs) fun s hs => ?_
    exact Ends.orReturn (ends_ensureParents hs) fun s hs =>
      ends_ofPayload (.inl (List.prefix_append _ _)) hs
  · refine Ends.forEach (fun o _ s hs => ?_) hs
    split
    · rename_i ho
      exact ends_ofPayload (.inl ho.1) hs
    · exact ends_pure fun _ => hs

/-- The payload is moved to the image path. -/
lemma ends_replace (hI : ∀ s, Finalizing L s → I s) (h : Ready L s ∨ (TakenAway L s ∧ Staged L s)) :
    Ends L d C I (exec (.rename L.payload L.img)) s fun s' => Replaced L s' ∧ OldWhole L s' := by
  rcases h with h | h
  · refine ends_exec (fun _ _ hp _ => ?_) (hI _ h.finalizing)
    exact ⟨hI _ (.inr (.inr (h.1.replace h.2 hp))), h.1.replace h.2 hp⟩
  · refine ends_exec (fun _ _ hp _ => ?_) (hI _ (.inr (.inl h)))
    exact ⟨hI _ (.inr (.inr (h.1.replace h.2 hp))), h.1.replace h.2 hp⟩

/-- The two renames. -/
lemma ends_exchange {takeAway : Bool} (hI : ∀ s, Finalizing L s → I s)
    (h : Ready L s ∨ (takeAway = false ∧ TakenAway L s ∧ Staged L s)) :
    Ends L d C I (exchange L takeAway) s fun s' => Replaced L s' ∧ OldWhole L s' := by
  unfold exchange
  rcases h with h | ⟨rfl, h⟩
  · cases takeAway with
    | true =>
      refine Ends.orReturn (ends_exec (fun _ _ hp _ => ?_) (hI _ h.finalizing)) fun s' hs =>
        ends_replace hI (.inr hs)
      exact ⟨hI _ (.inr (.inl (h.1.take h.2 hp))), h.1.take h.2 hp⟩
    | false => exact Ends.orReturn (ends_pure fun _ => h) fun s' hs => ends_replace hI (.inl hs)
  · exact Ends.orReturn (ends_pure fun _ => h) fun s' hs => ends_replace hI (.inr hs)

/-- **The end of a capture**: wherever it is stopped, the old tree is at the image path or on the
stage as a whole. -/
lemma ends_finalize (w : Workspace) (h : Ready L s) :
    Ends L d C (Finalizing L) (rootpxeFinalizeCapture L w) s fun s' => Replaced L s' ∧
    OldWhole L s' := by
  refine Ends.orReturn (ends_request h.finalizing h) fun s hs => ?_
  refine Ends.orReturn (ends_syncMetadata w hs) fun s hs => ?_
  refine Ends.orReturn (ends_request hs.finalizing hs) fun s hs => ?_
  refine Ends.orReturn (ends_request hs.finalizing hs) fun s hs => ?_
  refine Ends.orReturn (ends_request hs.finalizing hs) fun s hs => ?_
  refine Contract.Safe.bind (Contract.safe_ask fun takeAway _ => ⟨hs.finalizing, ?_⟩)
  exact Ends.orReturn (ends_exchange (fun _ h => h) (.inl hs)) fun s hs =>
    ends_request (.inr (.inr hs)) hs

/-! ### Cleaning up -/

section Cleanup

variable {P : Store → Prop}

/-- Nothing but the images is kept from a removal. -/
def Lasting (L : Layout) (P : Store → Prop) : Prop :=
  ∀ s p, P s → ¬ L.img <+: p → (Remote.remove p).Possible s → P (s.apply L (.remove p))

lemma lasting_atRest : Lasting L (AtRest L) := fun _ _ h hp _ => h.remove hp

lemma lasting_movedBack : Lasting L (MovedBack L) := fun _ _ h hp _ => h.remove hp

lemma lasting_replaced : Lasting L (Replaced L) := fun _ _ h hp hpos => h.remove hp hpos

lemma Lasting.or {P' : Store → Prop} (h : Lasting L P) (h' : Lasting L P') :
    Lasting L fun s => P s ∨ P' s :=
  fun s p hs hp hpos => hs.imp (fun hs => h s p hs hp hpos) fun hs => h' s p hs hp hpos

lemma ends_remove (hP : Lasting L P) (hI : ∀ s, P s → I s) {p : Path} (hp : ¬ L.img <+: p)
    (hs : P s) :
    Ends L d C I (exec (.remove p)) s fun s' => P s' ∧ (∀ q ∈ s'.owned, q ∈ s.owned) ∧
    p ∉ s'.owned := by
  refine ends_exec (fun _ _ hpos _ => ?_) (hI s hs)
  have hs' := hP s p hs hp hpos
  refine ⟨hI _ hs', hs', fun q hq => (mem_owned_remove.mp hq).1, fun hq => ?_⟩
  exact (mem_owned_remove.mp hq).2 rfl

/-- The loop over the owned paths. -/
lemma ends_removeAll (hP : Lasting L P) (hI : ∀ s, P s → I s) (paths : List (Path × Bool))
    (hs : P s) :
    Ends L d C I (forEach paths fun o => if L.stage <+: o.1 then exec (.remove o.1)
      else pure true) s fun s' =>
      P s' ∧ (∀ q ∈ s'.owned, q ∈ s.owned) ∧ ∀ o ∈ paths, L.stage <+: o.1 → o.1 ∉ s'.owned := by
  induction paths generalizing s with
  | nil => exact ends_pure fun _ => ⟨hs, fun _ h => h, by simp⟩
  | cons o paths ih =>
    have hturn : Ends L d C I (if L.stage <+: o.1 then exec (.remove o.1) else pure true) s
        fun s' =>
        P s' ∧ (∀ q ∈ s'.owned, q ∈ s.owned) ∧ (L.stage <+: o.1 → o.1 ∉ s'.owned) := by
      split
      · rename_i ho
        exact (ends_remove hP hI (img_outside ho) hs).mono fun s' h => ⟨h.1, h.2.1, fun _ => h.2.2⟩
      · rename_i ho
        exact ends_pure fun _ => ⟨hs, fun _ h => h, fun h => absurd h ho⟩
    refine Ends.orReturn hturn fun s₁ h₁ => (ih h₁.1).mono fun s' h =>
      ⟨h.1, fun q hq => h₁.2.1 q (h.2.1 q hq), ?_⟩
    intro o' ho' hst
    rcases List.mem_cons.mp ho' with rfl | ho'
    · exact fun hm => h₁.2.2 hst (h.2.1 _ hm)
    · exact h.2.2 o' ho' hst

/-- No owned path is left on the stage. -/
def Swept (L : Layout) (P : Store → Prop) (s : Store) : Prop := P s ∧ ∀ q ∈ s.owned, ¬ L.stage <+: q

/-- The removal of a part of the lock. -/
lemma ends_unlock (hP : Lasting L P) (hI : ∀ s, P s → I s) (b : Bool) {p : Path}
    (hp : ¬ L.img <+: p) (hs : Swept L P s) :
    Ends L d C I (if b = true then exec (.remove p) else pure true) s (Swept L P) := by
  split
  · exact (ends_remove hP hI hp hs.1).mono fun s' h => ⟨h.1, fun q hq => hs.2 q (h.2.1 q hq)⟩
  · exact ends_pure fun _ => hs

/-- **A cleanup that succeeds leaves no owned path on the stage.** -/
lemma ends_cleanup (hP : Lasting L P) (hI : ∀ s, P s → I s) (hs : P s) :
    Ends L d C I (rootpxeStorageCleanupOwned L) s (Swept L P) := by
  refine ends_withOwned (fun response hrely _ => ?_) (hI s hs)
  have hloop : Ends L d C I
      (forEach response.deepest fun o => if L.stage <+: o.1 then exec (.remove o.1) else pure true)
        s (Swept L P) := by
    refine (ends_removeAll hP hI response.deepest hs).mono fun s' h => ⟨h.1, fun q hq hst => ?_⟩
    obtain ⟨o, ho, rfl⟩ := List.mem_map.mp (hrely.2.1 q (h.2.1 q hq))
    exact h.2.2 o (mem_deepest.mpr ho) hst hq
  refine Ends.orReturn hloop fun s₁ h₁ => ?_
  exact Ends.orReturn (ends_unlock hP hI _ (L.img_lock.below (List.prefix_append _ _)).1 h₁)
    fun s₂ h₂ =>
    ends_unlock hP hI _ L.img_lock.1 h₂

end Cleanup

/-! ### Recovery -/

lemma ends_changeDirection (hI : I s) (hR : R s) :
    Ends L d C I rootpxeStorageChangeDirection s fun s' => I s' ∧ R s' := by
  refine ends_withOwned (fun _ _ _ => ?_) hI
  refine Ends.orReturn (R := fun s' => I s' ∧ R s') (ends_request hI ⟨hI, hR⟩) fun s hs => ?_
  exact Ends.orReturn (ends_request hs.1 hs) fun s hs => ends_request hs.1 hs

lemma ends_reread (hI : I s) (hR : R s) :
    Ends L d C I (rereadPayload L) s fun s' => I s' ∧ R s' := by
  refine ends_withOwned (fun response _ _ => ?_) hI
  exact Ends.forEach (fun o _ s hs => ends_request hs.1 hs) ⟨hI, hR⟩

/-- What is done about the trees in an execution that is to be published. -/
lemma ends_publishTrees (hI : ∀ s, Publishing L s → I s) (h : Publishing L s) :
    Ends L d C I
      (withOwned fun response =>
        if response.has L.payload then
          exchange L (response.targetExists && !response.has L.previous)
        else pure (response.has L.img)) s (Replaced L) := by
  refine ends_withOwned (fun response hrely _ => ?_) (hI s h)
  have hI' : ∀ s, Finalizing L s → I s := fun s hs => hI s (by
    rcases hs with hs | hs | hs
    · exact .inl hs
    · exact .inr (.inl hs)
    · exact .inr (.inr hs.1))
  split
  · rename_i hpay
    refine Ends.mono (ends_exchange hI' ?_) fun s' hs => hs.1
    rcases h with h | h | h
    · exact .inl h
    · refine .inr ⟨?_, h⟩
      rw [(has_iff hrely L.previous).mpr h.1.previousOwned, Bool.not_true, Bool.and_false]
    · exact absurd ((has_iff hrely _).mp hpay) h.payloadOwned
  · refine ends_pure fun himg => ?_
    rw [has_iff hrely] at himg
    rcases h with ⟨h, -⟩ | ⟨h, -⟩ | h
    · exact absurd himg h.imgOwned
    · exact absurd himg h.imgOwned
    · exact h

lemma ends_recoverPublish (hI : ∀ s, Publishing L s → I s) (h : Publishing L s) :
    Ends L d C I (recoverPublish L) s (Replaced L) := by
  refine Ends.orReturn (ends_changeDirection (hI s h) h) fun s hs => ?_
  refine Ends.orReturn (ends_reread hs.1 hs.2) fun s hs => ?_
  refine Ends.orReturn (ends_changeDirection hs.1 hs.2) fun s hs => ?_
  refine Ends.orReturn (ends_publishTrees hI hs.2) fun s hs => ?_
  have hI' : ∀ s, Replaced L s → I s := fun s hs => hI s (.inr (.inr hs))
  refine Ends.orReturn (ends_request (hI' s hs) hs) fun s hs => ?_
  exact Ends.orReturn (ends_request (hI' s hs) hs) fun s hs => ends_request (hI' s hs) hs

end Programs

/-! ### Conditions on a recovery -/

/-- The new tree is not taken for the old one that was moved back, and an execution is completed
only if the new tree is at the image path. -/
def Careful (L : Layout) (s : Store) : Sigma Call.Answer → Prop
  | ⟨.exec r, o⟩ => o.made = true → r = .rename L.img L.payload → s.returned = false
  | ⟨.owned, some response⟩ =>
    response.disposition = .completed ∨ response.disposition = .read → Replaced L s
  | _ => True

section Runs

variable {d : Disposition}

/-- What is done about the trees in an execution that is to be undone. -/
lemma ends_rollbackTrees (h : Undoing L s) :
    Ends L d (Careful L) (Undoing L)
      (withOwned fun response =>
        orReturn (if response.has L.img then exec (.rename L.img L.payload) else pure true)
          (if response.has L.previous then exec (.rename L.previous L.img) else pure true)) s
      fun s' => AtRest L s' ∨ MovedBack L s' := by
  refine ends_withOwned (fun response hrely _ => ?_) h
  have hback : ∀ s, TakenAway L s →
      Ends L d (Careful L) (Undoing L) (exec (.rename L.previous L.img)) s
      fun s' => AtRest L s' ∨ MovedBack L s' := fun s hs =>
    ends_exec (fun _ _ hp _ => ⟨.inr (.inr (.inl (hs.back hp))), .inr (hs.back hp)⟩)
      (.inr (.inl hs))
  rcases h with h | h | h | ⟨h, hw⟩
  · have himg : response.has L.img ≠ true := fun hi => h.imgOwned ((has_iff hrely _).mp hi)
    have hprev : response.has L.previous ≠ true :=
      fun hi => h.previousOwned ((has_iff hrely _).mp hi)
    rw [if_neg himg, if_neg hprev]
    exact Ends.orReturn (ends_pure fun _ => h) fun s hs => ends_pure fun _ => .inl hs
  · have himg : response.has L.img ≠ true := fun hi => h.imgOwned ((has_iff hrely _).mp hi)
    rw [if_neg himg, if_pos ((has_iff hrely _).mpr h.previousOwned)]
    exact Ends.orReturn (ends_pure fun _ => h) hback
  · -- the old tree is back already: it is not moved again
    rw [if_pos ((has_iff hrely _).mpr h.imgOwned)]
    refine Ends.orReturn (ends_exec (fun o hm _ hc => ?_) (.inr (.inr (.inl h))))
      fun s (hs : False) => hs.elim
    have := hc hm rfl
    rw [h.returned] at this
    cases this
  · rw [if_pos ((has_iff hrely _).mpr h.imgOwned)]
    by_cases hprev : L.previous ∈ s.owned
    · rw [if_pos ((has_iff hrely _).mpr hprev)]
      refine Ends.orReturn (ends_exec (fun _ _ _ _ => ?_) (.inr (.inr (.inr ⟨h, hw⟩)))) hback
      obtain ⟨-, ht⟩ | ⟨hn, -⟩ := h.undo hw
      · exact ⟨.inr (.inl ht), ht⟩
      · exact absurd hprev hn
    · rw [if_neg fun hi => hprev ((has_iff hrely _).mp hi)]
      refine Ends.orReturn (ends_exec (fun _ _ _ _ => ?_) (.inr (.inr (.inr ⟨h, hw⟩)))) fun s hs =>
        ends_pure fun _ => .inl hs
      obtain ⟨hn, -⟩ | ⟨-, ht⟩ := h.undo hw
      · exact absurd hn hprev
      · exact ⟨.inl ht, ht⟩

lemma ends_recoverRollback (h : Undoing L s) :
    Ends L d (Careful L) (Undoing L) (recoverRollback L) s fun s' => AtRest L s' ∨
    MovedBack L s' := by
  refine Contract.Safe.bind (Contract.safe_ask fun isWrite _ => ⟨h, ?_⟩)
  refine Ends.orReturn (?_ : Ends L d (Careful L) (Undoing L) _ s (Undoing L)) fun s hs =>
    ends_rollbackTrees hs
  split
  · exact ends_pure fun _ => h
  · exact (ends_changeDirection h h).mono fun s hs => hs.1

/-- The end of every recovery. -/
lemma ends_close {C : Store → Sigma Call.Answer → Prop} {I P : Store → Prop} (hP : Lasting L P)
    (hI : ∀ s, P s → I s) (hs : P s) :
    Ends L d C I
      (orReturn (if true then rootpxeStorageCleanupOwned L else pure true) <|
        orReturn (request .stop) (request .release)) s
      (Swept L P) := by
  refine Ends.orReturn (ends_cleanup hP hI hs) fun s hs => ?_
  exact Ends.orReturn (ends_request (hI s hs.1) hs) fun s hs => ends_request (hI s hs.1) hs

/-- What a recovery that succeeds leaves. -/
def Recovered (L : Layout) (d : Disposition) (s : Store) : Prop :=
  (d = .publish → treeAt L.img s.entries = s.captured ∧ s.captured ≠ []) ∧
    (d = .rollback → treeAt L.img s.entries = s.old) ∧ ∀ q ∈ s.owned, ¬ L.stage <+: q

lemma recovering_rollback : Recovering L .rollback s ↔ Undoing L s := by simp [Recovering]

lemma recovering_other (h : d ≠ .rollback) :
    Recovering L d s ↔ Publishing L s := by simp [Recovering, h]

lemma Swept.recovered_publish (h : Swept L (Replaced L) s) (hd : d ≠ .rollback) : Recovered L d s :=
  ⟨fun _ => ⟨h.1.img, h.1.captured⟩, fun h' => absurd h' hd, h.2⟩

lemma Swept.recovered_rollback (h : Swept L (fun s => AtRest L s ∨ MovedBack L s) s) :
    Recovered L .rollback s := by
  refine ⟨fun hd => (by cases hd), fun _ => ?_, h.2⟩
  rcases h.1 with h' | h'
  · exact h'.img
  · exact h'.img

/-- **A recovery** keeps the trees wherever it is stopped, and does what it is for if it
succeeds. -/
lemma ends_recover (h : Recovering L d s) :
    Ends L d (Careful L) (Recovering L d) (rootpxeStorageRecoverOnce L true) s (Recovered L d) := by
  refine ends_withOwned (fun response hrely hcare => ?_) h
  obtain rfl : response.disposition = d := hrely.2.2
  refine Ends.orReturn (R := fun s' => s' = s) (ends_request h rfl) fun s' hs => ?_
  subst hs
  have hreplaced : response.disposition ≠ .rollback → ∀ s, Replaced L s →
      Recovering L response.disposition s :=
    fun hd s hs => (recovering_other hd).mpr (.inr (.inr hs))
  cases hd : response.disposition with
  | publish =>
    rw [hd] at h hreplaced
    refine Ends.orReturn (ends_recoverPublish (fun s hs => (recovering_other (by decide)).mpr hs)
      ((recovering_other (by decide)).mp h)) fun s hs => ?_
    exact (ends_close lasting_replaced (hreplaced (by decide)) hs).mono fun s hs =>
      hs.recovered_publish (by decide)
  | rollback =>
    rw [hd, recovering_rollback] at h
    have hI : Recovering L .rollback = Undoing L := funext fun s => propext recovering_rollback
    rw [hI]
    refine Ends.orReturn (ends_recoverRollback h) fun s hs => ?_
    refine (ends_close (lasting_atRest.or lasting_movedBack) (fun s hs => ?_) hs).mono fun s hs =>
      hs.recovered_rollback
    rcases hs with hs | hs
    · exact .inl hs
    · exact .inr (.inr (.inl hs))
  | completed =>
    rw [hd] at hreplaced
    refine Ends.orReturn (ends_pure fun _ => hcare (.inl hd)) fun s hs => ?_
    exact (ends_close lasting_replaced (hreplaced (by decide)) hs).mono fun s hs =>
      hs.recovered_publish (by decide)
  | read =>
    rw [hd] at hreplaced
    refine Ends.orReturn (ends_pure fun _ => hcare (.inr hd)) fun s hs => ?_
    exact (ends_close lasting_replaced (hreplaced (by decide)) hs).mono fun s hs =>
      hs.recovered_publish (by decide)
  | other => exact Ends.orReturn (ends_pure fun hf => by cases hf) fun s (hs : False) => hs.elim

/-- What is kept by every call is kept by the run. -/
lemma kept_after {C : Store → Sigma Call.Answer → Prop} {I : Store → Prop}
    {τ : List (Sigma Call.Answer)} (hs : I s)
    (h : (contract L d C I).Along (contract L d C I).guard s τ) :
    I ((contract L d C I).after s τ) :=
  h.keeps _ (fun _ _ hkept _ => hkept) hs

/-- What the environment does does not depend on what is kept. -/
lemma rely_along {C : Store → Sigma Call.Answer → Prop} {I I' : Store → Prop}
    {τ : List (Sigma Call.Answer)} (h : (contract L d C I).Along (contract L d C I).rely s τ) :
    (contract L d C I').Along (contract L d C I').rely s τ := by
  induction τ generalizing s with
  | nil => trivial
  | cons e τ ih => exact ⟨h.1, ih h.2⟩

lemma Initial.ready (h : Initial L s) : Ready L s :=
  ⟨⟨h.old, h.img, h.previous, h.previousOwned, h.returned⟩, h.captured⟩

/-- Every store in which an execution is left has its trees. -/
theorem Left.recovering (h : Left L d (Careful L) s) : Recovering L d s := by
  induction h with
  | capture hs w hr hrely =>
    have hsafe := ends_finalize (d := d) (C := fun _ _ => True) w hs.ready
    have hrun := Contract.Safe.along hsafe hr (rely_along hrely)
    exact Finalizing.recovering (kept_after hs.ready.finalizing hrun.1) d
  | recover _ hr hrely ih =>
    exact kept_after ih (Contract.Safe.along (ends_recover ih) hr (rely_along hrely)).1

/-- **Publishing and recovery are atomic**: however often an execution is stopped and recovered, the
old tree is not gone before the new one is at the image path; and a recovery that succeeds leaves
the new tree or the old one there, as it was decided, and no owned path on the stage. -/
theorem recovery_atomic (h : Left L d (Careful L) s) :
    Kept L s ∧ ∀ τ, Prog.Runs (rootpxeStorageRecoverOnce L true) τ (some true) →
      (contract L d (Careful L) fun _ => True).Along
        (contract L d (Careful L) fun _ => True).rely s τ →
        Recovered L d ((contract L d (Careful L) fun _ => True).after s τ) := by
  refine ⟨h.recovering.kept, fun τ hr hrely => ?_⟩
  exact (Contract.Safe.along (ends_recover h.recovering) hr (rely_along hrely)).2 true rfl rfl

end Runs

/-! ### A rollback that is recovered twice -/

/-- A store that makes every change that is possible and says so. -/
def obedient (L : Layout) (d : Disposition) (s : Store) (seen : List (Sigma Call.Answer)) :
    (c : Call) → c.Answer
  | .exec r =>
    ⟨decide (r.Possible (seen.reverse.foldl (Store.next L) s)),
      decide (r.Possible (seen.reverse.foldl (Store.next L) s))⟩
  | .owned => some ⟨(seen.reverse.foldl (Store.next L) s).owned.map fun p => (p, false), true, d⟩
  | .request _ => true

instance (L : Layout) (d : Disposition) (s : Store) (e : Sigma Call.Answer) :
    Decidable ((contract L d (fun _ _ => True) fun _ => True).rely s e) :=
  inferInstanceAs (Decidable (Rely d s e ∧ True))

def sampleLayout : Layout where
  img := ["img"]
  stage := ["dev", "1"]
  lock := [".locks", "k"]
  img_stage := by decide
  img_lock := by decide

/-- An image with one file, and the payload for another one. -/
def sampleStore : Store where
  entries := [(["img"], .dir), (["img", "a"], .file ['o']), (["dev"], .dir), (["dev", "1"], .dir),
    (["dev", "1", "payload"], .dir), (["dev", "1", "payload", "a"], .file ['n'])]
  owned := [["dev"], ["dev", "1"], ["dev", "1", "payload"], ["dev", "1", "payload", "a"]]
  old := [([], .dir), (["a"], .file ['o'])]
  captured := [([], .dir), (["a"], .file ['n'])]
  returned := false

def sampleWorkspace : Workspace := ⟨[], [], fun _ => true, by simp⟩

/-- The capture is stopped after the first rename. -/
def sampleCapture : List (Sigma Call.Answer) :=
  ((rootpxeFinalizeCapture sampleLayout sampleWorkspace).exec
    (obedient sampleLayout .rollback sampleStore) []).1.take 8

def sampleTaken : Store := sampleCapture.foldl (Store.next sampleLayout) sampleStore

/-- The first recovery is stopped when it has removed the payload. -/
def sampleFirst : List (Sigma Call.Answer) :=
  ((rootpxeStorageRecoverOnce sampleLayout true).exec (obedient sampleLayout .rollback sampleTaken)
    []).1.take 8

def sampleReturned : Store := sampleFirst.foldl (Store.next sampleLayout) sampleTaken

/-- The second recovery runs to its end. -/
def sampleSecond : List (Sigma Call.Answer) :=
  ((rootpxeStorageRecoverOnce sampleLayout true).exec
    (obedient sampleLayout .rollback sampleReturned) []).1

def sampleLost : Store := sampleSecond.foldl (Store.next sampleLayout) sampleReturned

lemma sampleInitial : Initial sampleLayout sampleStore := by
  constructor <;> decide +kernel

lemma sampleCapture_legal : (contract sampleLayout .rollback (fun _ _ => True) fun _ => True).Along
    (contract sampleLayout .rollback (fun _ _ => True) fun _ => True).rely sampleStore
      sampleCapture := by
  decide +kernel

/-- The capture that was stopped after the first rename. -/
theorem recovery_atomic_taken : Kept sampleLayout sampleTaken ∧
    ∀ τ, Prog.Runs (rootpxeStorageRecoverOnce sampleLayout true) τ (some true) →
      (contract sampleLayout .rollback (Careful sampleLayout) fun _ => True).Along
        (contract sampleLayout .rollback (Careful sampleLayout) fun _ => True).rely sampleTaken τ →
          Recovered sampleLayout .rollback
            ((contract sampleLayout .rollback (Careful sampleLayout) fun _ => True).after
              sampleTaken τ) :=
  recovery_atomic
    (.capture sampleInitial sampleWorkspace ((Prog.runs_exec _ _ _).take 8) sampleCapture_legal)

/-- Without the condition: the second recovery of a rollback takes the old tree for the new one and
removes it. -/
theorem rollback_twice_loses : Left sampleLayout .rollback (fun _ _ => True) sampleReturned ∧
    Prog.Runs (rootpxeStorageRecoverOnce sampleLayout true) sampleSecond (some true) ∧
    (contract sampleLayout .rollback (fun _ _ => True) fun _ => True).Along
      (contract sampleLayout .rollback (fun _ _ => True) fun _ => True).rely
        sampleReturned sampleSecond ∧
    ¬ Recovered sampleLayout .rollback sampleLost ∧ ¬ Kept sampleLayout sampleLost := by
  have hfirst : (contract sampleLayout .rollback (fun _ _ => True) fun _ => True).Along
      (contract sampleLayout .rollback (fun _ _ => True) fun _ => True).rely sampleTaken
        sampleFirst := by decide +kernel
  have hsecond : (contract sampleLayout .rollback (fun _ _ => True) fun _ => True).Along
      (contract sampleLayout .rollback (fun _ _ => True) fun _ => True).rely sampleReturned
        sampleSecond := by decide +kernel
  have hend :
      ((rootpxeStorageRecoverOnce sampleLayout true).exec
        (obedient sampleLayout .rollback sampleReturned) []).2 =
      some true := by decide +kernel
  have hentries : sampleLost.entries = [(["dev"], .dir)] := by decide +kernel
  have hold : sampleLost.old = [([], .dir), (["a"], .file ['o'])] := by decide +kernel
  refine ⟨?_, hend ▸ Prog.runs_exec _ _ _, hsecond, fun hr => ?_, fun hk => ?_⟩
  · refine .recover
      (.capture sampleInitial sampleWorkspace ((Prog.runs_exec _ _ _).take 8) sampleCapture_legal)
      ((Prog.runs_exec _ _ _).take 8) hfirst
  · have := hr.2.1 rfl
    rw [hentries, hold] at this
    exact absurd this (by decide)
  · have hcaptured : treeAt sampleLayout.img sampleLost.entries = [] := by rw [hentries]; decide
    rcases hk with h | ⟨r, h⟩ | ⟨h, h'⟩
    · rw [hold] at h
      cases h
    · -- what is left is one directory
      rw [hentries, hold] at h
      have hlen :=
        List.length_filterMap_le (fun e : Path × Node => if r <+: e.1 then
          some (e.1.drop r.length, e.2) else none)
        [(["dev"], .dir)]
      rw [show List.filterMap _ _ = treeAt r _ from rfl, h] at hlen
      exact absurd hlen (by decide)
    · exact h' (h.symm.trans hcaptured)

end Pxeos.Recover
