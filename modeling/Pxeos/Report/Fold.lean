import Mathlib.Data.List.Forall2
import Pxeos.Report.Reporter

/-!
# What the snapshot shows

A snapshot shows a sequence of events if each of its items has what the last item event for it says,
and one snapshot is later than another if the sequences of its items say so.  The filters keep both:
an item event that comes once more changes nothing but the sequence, and the samples and heartbeats
only touch what a running item may show.
-/

namespace Pxeos.Report

open Pxeos.Lib

/-- An item event. -/
def Event.isItem (e : Event) : Bool := e.event == "item".toList

/-- The item events for a key. -/
def eventsFor (key : Str) (evs : List Event) : List Event :=
  evs.filter fun e => e.isItem && e.key == key

/-- The planned item, with what the last item event for it says. -/
def expected (evs : List Event) (planned : Item) : Item :=
  match (eventsFor planned.key evs).getLast? with
  | none => planned
  | some e => { planned with status := e.status, message := some e.message, progress := e.percent }

/-- An item of the snapshot shows the events: the status, and the message and the progress unless it
is running. -/
structure ShowsItem (evs : List Event) (planned shown : Item) : Prop where
  key : shown.key = planned.key
  status : shown.status = (expected evs planned).status
  rest : shown.status ≠ "running".toList →
    shown.message = (expected evs planned).message ∧
      shown.progress = (expected evs planned).progress

/-- The snapshot shows the events that were queued after the plan. -/
def Shows (plan : List Item) (evs : List Event) (s : Snapshot) : Prop :=
  List.Forall₂ (ShowsItem evs) plan s.items

/-- What the item events say, in order. -/
def changes (evs : List Event) : List Change := (evs.filter Event.isItem).map Event.change

/-! ### Events as they are read -/

lemma readText_of_oneLine {s : Str} (h : OneLine s) : readText s = s :=
  captured_line h.1 fun hlast => h.2 (List.mem_of_getLast? hlast)

lemma oneLine_of_mem_statuses {s : Str} (h : s ∈ progressStatuses) : OneLine s := by
  have hall : ∀ t ∈ progressStatuses, (t.contains '\x00' || t.contains '\n') = false := by decide
  have hs := hall s h
  rw [Bool.or_eq_false_iff, List.contains_eq_mem, List.contains_eq_mem, decide_eq_false_iff_not,
    decide_eq_false_iff_not] at hs
  exact hs

/-- A message has no newline once it is queued. -/
lemma oneLine_message {message : Str} (h : '\x00' ∉ message) :
    OneLine (message.map fun c => if c = '\n' then ' ' else c) := by
  constructor
  · intro hmem
    obtain ⟨c, hc, heq⟩ := List.mem_map.mp hmem
    split at heq
    · cases heq
    · exact h (heq ▸ hc)
  · intro hmem
    obtain ⟨c, hc, heq⟩ := List.mem_map.mp hmem
    split at heq
    · cases heq
    · next hne => exact hne heq

lemma partitionProgressItem_some {key status percent message : Str} {e : Event}
    (h : partitionProgressItem key status percent message = some e) :
    key ≠ [] ∧ status ∈ progressStatuses ∧
    e = queueEvent "item".toList key status (orDash percent) message [] [] := by
  unfold partitionProgressItem at h
  split at h
  · next hok =>
    split at h
    · exact ⟨hok.1, hok.2, (Option.some.inj h).symm⟩
    · cases h
  · cases h

lemma partitionProgressCurrentItem_some {key run generation : Str} {e : Event}
    (h : partitionProgressCurrentItem key run generation = some e) :
    e = queueEvent "current".toList key [] [] [] run generation := by
  unfold partitionProgressCurrentItem at h
  split at h
  · exact (Option.some.inj h).symm
  · cases h

/-- The kinds of the queued events are read as they are. -/
lemma Queued.readText_event {e : Event} (h : Queued e) : readText e.event = e.event := by
  cases h with
  | item hkey hmessage h =>
    obtain ⟨-, -, rfl⟩ := partitionProgressItem_some h
    exact (by decide : readText "item".toList = "item".toList)
  | current h =>
    rw [partitionProgressCurrentItem_some h]
    exact (by decide : readText "current".toList = "current".toList)
  | clear => decide

/-- The item events pass the checks of the reporter, and are read as they are. -/
lemma Queued.item_change {e : Event} (h : Queued e) (hitem : e.isItem = true) :
    e.key ≠ [] ∧ e.status ∈ progressStatuses ∧
    e.change = ⟨e.key, e.status, e.message, e.percent⟩ := by
  cases h with
  | @item key status percent message e hkey hmessage h =>
    obtain ⟨hne, hstatus, rfl⟩ := partitionProgressItem_some h
    refine ⟨hne, hstatus, ?_⟩
    have hk : readText key = key := readText_of_oneLine hkey
    have hs : readText status = status := readText_of_oneLine (oneLine_of_mem_statuses hstatus)
    have hm := readText_of_oneLine (oneLine_message hmessage)
    unfold Event.change queueEvent
    dsimp only
    rw [hk, hs, hm]
  | current h =>
    rw [partitionProgressCurrentItem_some h] at hitem
    exact absurd hitem (by decide : ¬ ("current".toList == "item".toList) = true)
  | clear => exact absurd hitem (by decide)

/-! ### The last event for an item -/

lemma eventsFor_concat (key : Str) (evs : List Event) (e : Event) :
    eventsFor key (evs ++ [e]) = eventsFor key evs ++ if e.isItem = true ∧ e.key = key then
      [e] else [] := by
  unfold eventsFor
  rw [List.filter_append, List.filter_singleton]
  simp

lemma expected_concat_self {evs : List Event} {e : Event} {planned : Item} (hitem : e.isItem = true)
    (hkey : e.key = planned.key) :
    expected (evs ++ [e]) planned = { planned with
        status := e.status, message := some e.message, progress := e.percent } := by
  unfold expected
  rw [eventsFor_concat, if_pos ⟨hitem, hkey⟩, List.getLast?_concat]

lemma expected_concat_other {evs : List Event} {e : Event} {planned : Item}
    (h : ¬ (e.isItem = true ∧ e.key = planned.key)) :
    expected (evs ++ [e]) planned = expected evs planned := by
  unfold expected
  rw [eventsFor_concat, if_neg h, List.append_nil]

lemma changes_concat (evs : List Event) (e : Event) :
    changes (evs ++ [e]) = changes evs ++ if e.isItem then [e.change] else [] := by
  unfold changes
  rw [List.filter_append, List.filter_singleton, List.map_append]
  cases e.isItem <;> rfl

/-! ### The filters and what is shown -/

variable {plan : List Item} {evs : List Event} {s : Snapshot} {e : Event}

/-- An event of another kind says nothing about the items. -/
lemma Shows.concat_other (h : Shows plan evs s) (he : e.isItem = false) :
    Shows plan (evs ++ [e]) s := by
  refine List.Forall₂.imp (fun planned shown hs => ?_) h
  have hexp : expected (evs ++ [e]) planned = expected evs planned :=
    expected_concat_other fun h => by rw [he] at h; exact Bool.false_ne_true h.1
  exact ⟨hs.key, by rw [hexp]; exact hs.status, by rw [hexp]; exact hs.rest⟩

/-- **An item event**, whether it comes for the first time or again. -/
lemma Shows.item (hitem : e.isItem = true) (hchange : e.change = ⟨e.key, e.status, e.message, e.percent⟩)
    (h : Shows plan evs s ∨ Shows plan (evs ++ [e]) s) :
    Shows plan (evs ++ [e]) ((Filter.item e.change).apply s) := by
  have step : ∀ planned shown, ShowsItem evs planned shown ∨ ShowsItem (evs ++ [e]) planned shown →
      ShowsItem (evs ++ [e]) planned
        (if shown.key = (Filter.item e.change).key then (Filter.item e.change).onItem shown else shown) := by
    intro planned shown hs
    have hkey : shown.key = planned.key := hs.elim ShowsItem.key ShowsItem.key
    have hfilter : (Filter.item e.change).key = e.key := by rw [hchange]; rfl
    rw [hfilter, hkey, hchange]
    by_cases hfor : planned.key = e.key
    · rw [if_pos hfor]
      have hexp := @expected_concat_self evs _ _ hitem hfor.symm
      exact ⟨hkey, by rw [hexp]; rfl, fun _ => by rw [hexp]; exact ⟨rfl, rfl⟩⟩
    · rw [if_neg hfor]
      have hexp := @expected_concat_other evs e planned fun h => hfor h.2.symm
      rcases hs with hs | hs
      · exact ⟨hs.key, by rw [hexp]; exact hs.status, by rw [hexp]; exact hs.rest⟩
      · exact hs
  refine List.forall₂_map_right_iff.mpr ?_
  rcases h with h | h
  · exact List.Forall₂.imp (fun planned shown hs => step planned shown (.inl hs)) h
  · exact List.Forall₂.imp (fun planned shown hs => step planned shown (.inr hs)) h

/-- The samples and the heartbeats. -/
lemma Shows.telemetry {f : Filter} (hf : ∀ c, f ≠ .item c) (h : Shows plan evs s) :
    Shows plan evs (f.apply s) := by
  refine List.forall₂_map_right_iff.mpr (List.Forall₂.imp (fun planned shown hs => ?_) h)
  split
  · cases f with
    | item c => exact absurd rfl (hf c)
    | sample key percent =>
      unfold Filter.onItem
      dsimp only
      split
      · next hrun => exact ⟨hs.key, hs.status, fun hne => absurd hrun hne⟩
      · exact hs
    | heartbeat key => exact ⟨hs.key, hs.status, hs.rest⟩
  · exact hs

/-! ### Sequences -/

/-- What the sequence of an item says when its status has changed. -/
structure LaterItem (a b : Item) : Prop where
  key : b.key = a.key
  sequence : a.sequence ≤ b.sequence
  status : a.status ≠ b.status → a.sequence < b.sequence ∨ 2 ^ 53 ≤ b.sequence

/-- A snapshot of a later time. -/
def Later (x y : Snapshot) : Prop := List.Forall₂ LaterItem x.items y.items

lemma LaterItem.rfl' (a : Item) : LaterItem a a := ⟨rfl, Nat.le_refl _, fun h => absurd rfl h⟩

lemma LaterItem.trans {a b c : Item} (h : LaterItem a b) (h' : LaterItem b c) : LaterItem a c := by
  have hab := h.sequence
  have hbc := h'.sequence
  refine ⟨h'.key.trans h.key, hab.trans hbc, fun hne => ?_⟩
  by_cases hb : a.status = b.status
  · rcases h'.status (hb ▸ hne) with hlt | hbig
    · exact .inl (by omega)
    · exact .inr hbig
  · rcases h.status hb with hlt | hbig
    · exact .inl (by omega)
    · exact .inr (by omega)

lemma Later.rfl' (x : Snapshot) : Later x x := List.forall₂_same.mpr fun a _ => LaterItem.rfl' a

lemma forall₂_trans {α : Type} {R : α → α → Prop} (h : ∀ a b c, R a b → R b c → R a c)
    {xs ys zs : List α} (hxy : List.Forall₂ R xs ys) (hyz : List.Forall₂ R ys zs) :
    List.Forall₂ R xs zs := by
  induction hxy generalizing zs with
  | nil => exact hyz
  | cons hab _ ih =>
    cases hyz with
    | cons hbc hrest => exact .cons (h _ _ _ hab hbc) (ih hrest)

lemma Later.trans {x y z : Snapshot} (h : Later x y) (h' : Later y z) : Later x z :=
  forall₂_trans (R := LaterItem) (fun _ _ _ => LaterItem.trans) h h'

lemma le_nextSequence (n : ℕ) : n ≤ nextSequence n := by
  unfold nextSequence
  split <;> omega

lemma lt_nextSequence (n : ℕ) : n < nextSequence n ∨ 2 ^ 53 ≤ nextSequence n := by
  unfold nextSequence
  split <;> omega

/-- **A filter makes a later snapshot.** -/
lemma later_apply (f : Filter) (x : Snapshot) : Later x (f.apply x) := by
  refine List.forall₂_map_right_iff.mpr (List.forall₂_same.mpr fun i _ => ?_)
  split
  · cases f with
    | item c => exact ⟨rfl, le_nextSequence _, fun _ => lt_nextSequence _⟩
    | sample key percent =>
      unfold Filter.onItem
      dsimp only
      split
      · exact ⟨rfl, le_nextSequence _, fun _ => lt_nextSequence _⟩
      · exact LaterItem.rfl' i
    | heartbeat key => exact ⟨rfl, le_nextSequence _, fun _ => lt_nextSequence _⟩
  · exact LaterItem.rfl' i

end Pxeos.Report
