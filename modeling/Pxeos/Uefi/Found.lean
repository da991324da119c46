import Pxeos.Uefi.Register
import Mathlib.Tactic.Linarith

/-!
# What is found

What `rootpxe_uefi_find_entry` finds, in terms of the boot variables: the entries of the selected
loader, their ranks, and which of the entries of the highest rank is taken.
-/

namespace Pxeos.Uefi

open Pxeos.Lib

/-! ### Fields -/

section Fields

lemma notMem_bar_of_isId {id : Str} (h : isId id = true) : '|' ∉ id := notMem_of_isId h (by decide)

lemma notMem_bar_yesNo (b : Bool) : '|' ∉ yesNo b := by cases b <;> decide +kernel

/-- The first two fields of an entry, and the others. -/
lemma fieldsOf_joinFields {id : Str} (hid : '|' ∉ id) (active : Bool) {rest : List Str}
    (hrest : rest ≠ []) :
    fieldsOf (joinFields (id :: yesNo active :: rest)) =
      { fieldsOf (joinFields ([] :: [] :: rest)) with
        id := id
        active := yesNo active } := by
  obtain ⟨w, ws, rfl⟩ := List.exists_cons_of_ne_nil hrest
  have hjoin : ∀ a b : Str, joinFields (a :: b :: w :: ws) =
      a ++ '|' :: (b ++ '|' :: joinFields (w :: ws)) := by
    intro a b
    unfold joinFields
    rw [List.intercalate_cons_cons, List.intercalate_cons_cons, List.append_assoc,
      List.append_assoc]
    rfl
  have hread : ∀ a b : Str, '|' ∉ a → '|' ∉ b → readMany '|' 9 (joinFields (a :: b :: w :: ws)) =
      a :: b :: readMany '|' 7 (joinFields (w :: ws)) := by
    intro a b ha hb
    rw [hjoin, readMany_cons ha, readMany_cons hb]
  unfold fieldsOf
  rw [hread _ _ hid (notMem_bar_yesNo active), hread [] [] (by simp) (by simp)]
  rfl

/-- An entry has the number and the activity in its first fields, and the rest comes from the device
path alone. -/
lemma entryOf_cases (path : Str) :
    (∀ id active, entryOf id active path = none) ∨
    (∀ id active, entryOf id active path = some none) ∨
      ∃ rest, rest ≠ [] ∧ ∀ id active,
        entryOf id active path = some (some (joinFields (id :: yesNo active :: rest))) := by
  unfold entryOf
  cases findHd path with
  | none =>
    right; right
    by_cases h1 : hasNode ["MAC(", "IPv4(", "IPv6(", "Uri("] path = true
    · refine ⟨[[], [], [], [], [], [], "network".toList], List.cons_ne_nil _ _, fun id active => ?_⟩
      simp only [if_pos h1]
      rfl
    · by_cases h2 : hasNode ["HD(", "NVMe(", "Sata(", "Ata("] path = true
      · refine ⟨[[], [], [], [], [], [], "local".toList], List.cons_ne_nil _ _, fun id active => ?_⟩
        simp only [if_neg h1, if_pos h2]
        rfl
      · refine ⟨[[], [], [], [], [], [], "other".toList], List.cons_ne_nil _ _, fun id active => ?_⟩
        simp only [if_neg h1, if_neg h2]
        rfl
  | some found =>
    obtain ⟨node, suffix⟩ := found
    by_cases hconst : (isConstant node.start && isConstant node.size) = true
    · simp only [if_pos hconst]
      cases (if node.kind = "MBR".toList then mbrSignature (node.signature.map Char.toLower)
          else some (node.signature.map Char.toLower)) with
      | none => exact .inr (.inl fun _ _ => rfl)
      | some signature =>
        cases arithmetic node.start with
        | none => exact .inl fun _ _ => rfl
        | some start =>
          cases arithmetic node.size with
          | none => exact .inl fun _ _ => rfl
          | some size => exact .inr (.inr ⟨_, List.cons_ne_nil _ _, fun _ _ => rfl⟩)
    · refine .inr (.inl fun id active => ?_)
      simp only [if_neg hconst]

end Fields

/-! ### The entries of the loader -/

section Matching

variable (sel : Selection)

/-- Whether the entry of a device path is one of the selected loader. -/
def selects (path : Str) : Bool :=
  match entryOf [] false path with
  | some (some entry) => sel.matches (fieldsOf entry)
  | _ => false

/-- The entries of the selected loader. -/
def Firmware.matching (fw : Firmware) : List BootEntry :=
  fw.entries.filter fun e => selects sel e.path

/-- The rank of a boot variable, by the label that is read. -/
def BootEntry.rank (e : BootEntry) : ℕ := rankOf sel e.shown

/-- One entry more in what is found. -/
def foundStep (order : List Str) (f : Found) (e : BootEntry) : Found :=
  let rank := e.rank sel
  let f' : Found := if f.yields order rank e.id e.active then
    { f with best := rank, id := some e.id, active := e.active } else f
  if rank = 1 then { f' with managedId := some e.id, managedCount := f.managedCount + 1 }
  else if rank = 2 then { f' with desiredCount := f.desiredCount + 1 }
  else f'

/-- What is found in the entries of a loader. -/
def foundIn (order : List Str) (es : List BootEntry) : Found :=
  es.foldl (foundStep sel order) Found.none

variable {sel} {fw : Firmware} {r : Reading}

lemma selects_of_entryOf {e : BootEntry} {entry : Str}
    (h : entryOf e.id e.active e.path = some (some entry)) :
    (fieldsOf entry).id = e.id ∧ (fieldsOf entry).active = yesNo e.active ∧
    sel.matches (fieldsOf entry) = selects sel e.path := by
  rcases entryOf_cases e.path with hnone | hskip | ⟨rest, hrest, hall⟩
  · rw [hnone] at h
    cases h
  · rw [hskip] at h
    cases h
  · rw [hall] at h
    obtain rfl := Option.some.inj (Option.some.inj h)
    have hf := fieldsOf_joinFields (notMem_bar_of_isId e.id_ok) e.active hrest
    refine ⟨by rw [hf], by rw [hf], ?_⟩
    unfold selects
    rw [hall [] false]
    show _ = sel.matches (fieldsOf _)
    rw [hf, fieldsOf_joinFields (by simp) false hrest]
    rfl

lemma selects_of_skipped {e : BootEntry} (h : entryOf e.id e.active e.path = some none) :
    selects sel e.path = false := by
  rcases entryOf_cases e.path with hnone | hskip | ⟨rest, hrest, hall⟩
  · rw [hnone] at h
    cases h
  · unfold selects
    rw [hskip]
  · rw [hall] at h
    cases h

/-! ### Labels -/

lemma lookup_of_mem {α β : Type} [BEq α] [LawfulBEq α] {l : List (α × β)}
    (hnd : (l.map Prod.fst).Nodup) {k : α} {v : β} (h : (k, v) ∈ l) :
    l.lookup k = some v := by
  obtain ⟨s, t, rfl⟩ := List.append_of_mem h
  refine List.lookup_eq_some_iff.mpr ⟨s, t, rfl, fun p hp => ?_⟩
  rw [List.map_append, List.map_cons, List.nodup_append] at hnd
  simpa using (hnd.2.2 p.1 (List.mem_map_of_mem hp) k List.mem_cons_self).symm

/-- The label of a number is that of its entry. -/
lemma label_of_mem (hr : fw.reading = some r) {e : BootEntry} (he : e ∈ fw.entries) :
    r.label e.id = e.shown := by
  obtain ⟨es, -, rfl⟩ := Option.map_eq_some_iff.mp hr
  have hnd : (((fw.entries.map fun e => (e.id, e.shown)).reverse).map Prod.fst).Nodup := by
    rw [List.map_reverse, (List.reverse_perm _).nodup_iff, List.map_map]
    exact fw.ids_nodup
  have hmem : (e.id, e.shown) ∈ (fw.entries.map fun e => (e.id, e.shown)).reverse :=
    List.mem_reverse.mpr (List.mem_map_of_mem he)
  have hlookup := lookup_of_mem hnd hmem
  unfold Reading.label
  exact congrArg (Option.getD · []) hlookup

/-- One entry. -/
lemma findStep_eq {e : BootEntry} {entry : Str}
    (h : entryOf e.id e.active e.path = some (some entry)) (hlabel : r.label e.id = e.shown)
    (f : Found) :
    findStep sel r f entry = if selects sel e.path then foundStep sel r.order f e else f := by
  obtain ⟨hid, hactive, hsel⟩ := @selects_of_entryOf sel _ _ h
  have hyes : (yesNo e.active == "yes".toList) = e.active := by cases e.active <;> rfl
  unfold findStep foundStep BootEntry.rank
  simp only [hid, hactive, hsel, hlabel, hyes]

lemma foldl_findStep {es : List BootEntry} (hlabel : ∀ e ∈ es, r.label e.id = e.shown)
    {entries : List (Option Str)}
    (h : es.mapM (fun e => entryOf e.id e.active e.path) = some entries) (f : Found) :
    entries.reduceOption.foldl (findStep sel r) f =
      (es.filter fun e => selects sel e.path).foldl (foundStep sel r.order) f := by
  induction es generalizing entries f with
  | nil =>
    obtain rfl := Option.some.inj h
    rfl
  | cons e es ih =>
    rw [List.mapM_cons] at h
    obtain ⟨o, ho, h⟩ := Option.bind_eq_some_iff.mp h
    obtain ⟨os, hos, h⟩ := Option.bind_eq_some_iff.mp h
    obtain rfl := Option.some.inj h
    have ih := fun f => ih (fun e' he' => hlabel e' (List.mem_cons_of_mem _ he')) hos f
    cases o with
    | none =>
      rw [List.reduceOption_cons_of_none,
        List.filter_cons_of_neg (p := fun e : BootEntry => selects sel e.path)
          (by rw [selects_of_skipped ho]; exact Bool.false_ne_true),
        ih]
    | some entry =>
      rw [List.reduceOption_cons_of_some, List.foldl_cons,
        findStep_eq ho (hlabel e List.mem_cons_self), ih]
      by_cases hsel : selects sel e.path = true
      · rw [if_pos hsel, List.filter_cons_of_pos (p := fun e : BootEntry => selects sel e.path)
          hsel, List.foldl_cons]
      · rw [if_neg hsel,
          List.filter_cons_of_neg (p := fun e : BootEntry => selects sel e.path) hsel]

/-- **What is found in a reading** is found in the entries of the loader. -/
theorem findEntry_eq (hr : fw.reading = some r) :
    findEntry sel r = foundIn sel (fw.order.getD []) (fw.matching sel) := by
  have hlabel : ∀ e ∈ fw.entries, r.label e.id = e.shown := fun e he => label_of_mem hr he
  obtain ⟨entries, hes, rfl⟩ := Option.map_eq_some_iff.mp hr
  exact foldl_findStep hlabel hes Found.none

/-! ### Which entry is taken -/

/-- What is known of the entry that was found: of those with the highest rank an active one in the
order if there is one, else an active one if there is one. -/
structure IsFound (sel : Selection) (order : List Str) (es : List BootEntry) (f : Found) :
    Prop where
  best_zero : es = [] → f.best = 0
  mem : ∀ i, f.id = some i → ∃ e ∈ es, e.id = i ∧ e.active = f.active ∧ e.rank sel = f.best
  isSome : es ≠ [] → f.id.isSome = true
  le_best : ∀ e ∈ es, e.rank sel ≤ f.best
  active_of : ∀ e ∈ es, e.rank sel = f.best → e.active = true → f.active = true
  listed_of : ∀ e ∈ es, e.rank sel = f.best → e.active = true → e.id ∈ order → f.active = true ∧
    listed order f.id = true
  managedCount : f.managedCount = es.countP fun e => e.rank sel = 1
  desiredCount : f.desiredCount = es.countP fun e => e.rank sel = 2
  managedId : ∀ i, f.managedId = some i → ∃ e ∈ es, e.id = i ∧ e.rank sel = 1
  managed_isSome : 0 < f.managedCount → f.managedId.isSome = true

lemma one_le_rank (e : BootEntry) : 1 ≤ e.rank sel := by
  unfold BootEntry.rank rankOf
  split
  · exact le_rfl
  · split <;> decide

lemma rank_le_three (e : BootEntry) : e.rank sel ≤ 3 := by
  unfold BootEntry.rank rankOf
  split
  · decide
  · split <;> decide

lemma isFound_nil (order : List Str) : IsFound sel order [] Found.none where
  best_zero := fun _ => rfl
  mem := fun i h => by cases h
  isSome := fun h => absurd rfl h
  le_best := by simp
  active_of := by simp
  listed_of := by simp
  managedCount := rfl
  desiredCount := rfl
  managedId := fun i h => by cases h
  managed_isSome := fun h => absurd h (lt_irrefl _)

section Step

variable {order : List Str} {f : Found} {e : BootEntry}

lemma yields_iff {rank : ℕ} {id : Str} {active : Bool} : f.yields order rank id active = true ↔
    f.best < rank ∨ (rank = f.best ∧ f.active = false ∧ active = true) ∨
      (rank = f.best ∧ listed order f.id = false ∧ active = true ∧ id ∈ order) := by
  unfold Found.yields
  simp only [Bool.or_eq_true, Bool.and_eq_true, decide_eq_true_eq, beq_iff_eq, Bool.not_eq_true',
    List.contains_iff_mem]
  tauto

lemma foundStep_taken (h : f.yields order (e.rank sel) e.id e.active = true) :
    (foundStep sel order f e).best = e.rank sel ∧ (foundStep sel order f e).id = some e.id ∧
      (foundStep sel order f e).active = e.active := by
  unfold foundStep
  simp only [if_pos h]
  split
  · exact ⟨rfl, rfl, rfl⟩
  · split
    · exact ⟨rfl, rfl, rfl⟩
    · exact ⟨rfl, rfl, rfl⟩

lemma foundStep_passed (h : f.yields order (e.rank sel) e.id e.active = false) :
    (foundStep sel order f e).best = f.best ∧ (foundStep sel order f e).id = f.id ∧
      (foundStep sel order f e).active = f.active := by
  unfold foundStep
  simp only [h, if_neg Bool.false_ne_true]
  split
  · exact ⟨rfl, rfl, rfl⟩
  · split
    · exact ⟨rfl, rfl, rfl⟩
    · exact ⟨rfl, rfl, rfl⟩

lemma foundStep_counts :
    (foundStep sel order f e).managedCount = f.managedCount + (if e.rank sel = 1 then 1 else 0) ∧
    (foundStep sel order f e).desiredCount = f.desiredCount + (if e.rank sel = 2 then 1 else 0) ∧
      (foundStep sel order f e).managedId = if e.rank sel = 1 then some e.id else f.managedId := by
  have hkeep : (if f.yields order (e.rank sel) e.id e.active then
      { f with best := e.rank sel, id := some e.id, active := e.active } else f :
          Found).managedCount = f.managedCount ∧
      (if f.yields order (e.rank sel) e.id e.active then
        { f with best := e.rank sel, id := some e.id, active := e.active } else f :
            Found).desiredCount = f.desiredCount ∧
      (if f.yields order (e.rank sel) e.id e.active then
        { f with best := e.rank sel, id := some e.id, active := e.active } else f :
            Found).managedId = f.managedId := by
    split
    · exact ⟨rfl, rfl, rfl⟩
    · exact ⟨rfl, rfl, rfl⟩
  unfold foundStep
  simp only
  by_cases h1 : e.rank sel = 1
  · have h2 : e.rank sel ≠ 2 := by omega
    simp only [if_pos h1, if_neg h2]
    exact ⟨trivial, hkeep.2.1, trivial⟩
  · by_cases h2 : e.rank sel = 2
    · simp only [if_neg h1, if_pos h2]
      exact ⟨hkeep.1, trivial, hkeep.2.2⟩
    · simp only [if_neg h1, if_neg h2]
      exact hkeep

/-- One entry more. -/
lemma IsFound.concat {es : List BootEntry} (h : IsFound sel order es f) (e : BootEntry) :
    IsFound sel order (es ++ [e]) (foundStep sel order f e) := by
  have hcount : ∀ k, (es ++ [e]).countP (fun e => e.rank sel = k) =
      es.countP (fun e => e.rank sel = k) + if e.rank sel = k then 1 else 0 := by
    intro k
    rw [List.countP_append, List.countP_singleton]
    congr 1
    by_cases hk : e.rank sel = k
    · rw [if_pos (decide_eq_true hk), if_pos hk]
    · rw [if_neg (by simpa using hk), if_neg hk]
  obtain ⟨hmanaged, hdesired, hid⟩ := @foundStep_counts sel order f e
  have hmanagedId : ∀ i, (foundStep sel order f e).managedId = some i → ∃ e' ∈ es ++ [e],
      e'.id = i ∧ e'.rank sel = 1 := by
    intro i hi
    rw [hid] at hi
    split at hi
    · rename_i h1
      exact ⟨e, by simp, Option.some.inj hi, h1⟩
    · obtain ⟨e', he', hrest⟩ := h.managedId i hi
      exact ⟨e', List.mem_append_left _ he', hrest⟩
  have hmanagedSome : 0 < (foundStep sel order f e).managedCount →
      (foundStep sel order f e).managedId.isSome = true := by
    rw [hmanaged, hid]
    split
    · exact fun _ => rfl
    · exact h.managed_isSome
  by_cases hy : f.yields order (e.rank sel) e.id e.active = true
  · obtain ⟨hbest, hfid, hactive⟩ := @foundStep_taken sel _ _ _ hy
    have hcases := yields_iff.mp hy
    have hle : f.best ≤ e.rank sel := by omega
    -- the others of the new rank were of the best rank before, or there are none
    have hothers : ∀ e' ∈ es, e'.rank sel = e.rank sel → e'.rank sel = f.best :=
      fun e' he' heq => by
      have := h.le_best e' he'
      omega
    refine ⟨by simp, ?_, by simp [hfid], ?_, ?_, ?_, by rw [hmanaged, hcount, h.managedCount],
      by rw [hdesired, hcount, h.desiredCount], hmanagedId, hmanagedSome⟩
    · intro i hi
      rw [hfid] at hi
      exact ⟨e, by simp, Option.some.inj hi, hactive.symm, hbest.symm⟩
    · intro e' he'
      rw [hbest]
      rcases List.mem_append.mp he' with he' | he'
      · exact (h.le_best e' he').trans hle
      · rw [List.mem_singleton.mp he']
    · intro e' he' heq ha
      rw [hbest] at heq
      rw [hactive]
      rcases List.mem_append.mp he' with he' | he'
      · have hb := hothers e' he' heq
        rcases hcases with hlt | ⟨-, -, ha'⟩ | ⟨-, -, ha', -⟩
        · omega
        · exact ha'
        · exact ha'
      · rwa [← List.mem_singleton.mp he']
    · intro e' he' heq ha hl
      rw [hbest] at heq
      rw [hactive, hfid]
      rcases List.mem_append.mp he' with he' | he'
      · have hb := hothers e' he' heq
        obtain ⟨hfa, hfl⟩ := h.listed_of e' he' hb ha hl
        rcases hcases with hlt | ⟨-, hna, -⟩ | ⟨-, hnl, -, -⟩
        · omega
        · rw [hfa] at hna
          cases hna
        · rw [hfl] at hnl
          cases hnl
      · obtain rfl := List.mem_singleton.mp he'
        exact ⟨ha, List.contains_iff_mem.mpr hl⟩
  · obtain ⟨hbest, hfid, hactive⟩ := @foundStep_passed sel _ _ _ (Bool.not_eq_true _ ▸ hy)
    have hcases := fun hc => hy (yields_iff.mpr hc)
    have hle : e.rank sel ≤ f.best := by
      by_contra hlt
      exact hcases (.inl (by omega))
    have hne : es ≠ [] := by
      intro hnil
      have h0 := h.best_zero hnil
      have h1 := @one_le_rank sel e
      omega
    refine ⟨by simp, ?_, fun _ => by rw [hfid]; exact h.isSome hne, ?_, ?_, ?_,
      by rw [hmanaged, hcount, h.managedCount],
      by rw [hdesired, hcount, h.desiredCount], hmanagedId, hmanagedSome⟩
    · intro i hi
      rw [hfid] at hi
      obtain ⟨e', he', hrest⟩ := h.mem i hi
      rw [hactive, hbest]
      exact ⟨e', List.mem_append_left _ he', hrest⟩
    · intro e' he'
      rw [hbest]
      rcases List.mem_append.mp he' with he' | he'
      · exact h.le_best e' he'
      · rwa [List.mem_singleton.mp he']
    · intro e' he' heq ha
      rw [hbest] at heq
      rw [hactive]
      rcases List.mem_append.mp he' with he' | he'
      · exact h.active_of e' he' heq ha
      · obtain rfl := List.mem_singleton.mp he'
        by_contra hna
        exact hcases (.inr (.inl ⟨heq, Bool.not_eq_true _ ▸ hna, ha⟩))
    · intro e' he' heq ha hl
      rw [hbest] at heq
      rw [hactive, hfid]
      rcases List.mem_append.mp he' with he' | he'
      · exact h.listed_of e' he' heq ha hl
      · obtain rfl := List.mem_singleton.mp he'
        constructor
        · by_contra hna
          exact hcases (.inr (.inl ⟨heq, Bool.not_eq_true _ ▸ hna, ha⟩))
        · by_contra hnl
          exact hcases (.inr (.inr ⟨heq, Bool.not_eq_true _ ▸ hnl, ha, hl⟩))

end Step

lemma isFound_foundIn (order : List Str) (es : List BootEntry) :
    IsFound sel order es (foundIn sel order es) := by
  induction es using List.reverseRecOn with
  | nil => exact isFound_nil order
  | append_singleton es e ih =>
    unfold foundIn at ih ⊢
    rw [List.foldl_append]
    exact ih.concat e

/-- **What `rootpxe_uefi_find_entry` finds.** -/
theorem isFound_findEntry (hr : fw.reading = some r) :
    IsFound sel (fw.order.getD []) (fw.matching sel) (findEntry sel r) := by
  rw [findEntry_eq hr]
  exact isFound_foundIn _ _

end Matching

end Pxeos.Uefi
