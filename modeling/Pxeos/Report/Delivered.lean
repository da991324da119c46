import Pxeos.Report.Fold

/-!
# Every event reaches the snapshot

The reporter may be killed anywhere, and the flush begins with the files as they are then.  The
invariant says which events have been deleted and which have been moved into the snapshot: the
second number is the first one, or one more, when the reporter is between the `mv` of an event and
its `rm`.
-/

namespace Pxeos.Report

open Pxeos.Lib

/-- The file of an event. -/
def file (x : ℕ × Event) : Str × Event := (eventName x.1, x.2)

/-- Of the queued events `r` have been deleted and `a` have been moved into the snapshot, and
`files` are the next ones; all that are left if the imaging process is in the flush. -/
structure Inv (plan : List Item) (solo : Bool) (s : State) (r a : ℕ) (files : List (ℕ × Event)) :
    Prop where
  le : r ≤ a
  le_succ : a ≤ r + 1
  le_length : a ≤ s.queued.length
  queue : s.queue = (s.queued.drop r).map file
  ahead : files <+: s.queued.drop r
  all : solo = true → files = s.queued.drop r
  increasing : (s.queued.map Prod.fst).Pairwise (· < ·)
  numbers : ∀ x ∈ s.queued, x.1 ≤ s.counter ∧ (s.numbered = true → x.1 < s.counter)
  legal : ∀ x ∈ s.queued, Queued x.2
  shows : Shows plan ((s.queued.take a).map Prod.snd) s.snapshot
  applied : AtLeastOnce (changes ((s.queued.take a).map Prod.snd)) s.applied
  tmp : ∀ f x, s.tmp = some (f, x) → x = f.apply s.snapshot
  sent : s.sent.Pairwise Later
  last : ∀ x ∈ s.sent, Later x s.snapshot

variable {plan : List Item} {solo : Bool} {s : State} {r a : ℕ} {files : List (ℕ × Event)}

/-! ### The imaging process -/

lemma Inv.move {m : Move} (h : Inv plan false s r a files) (hm : m.Legal s) :
    Inv plan false (m.next s) r a files := by
  cases m with
  | number =>
    exact { h with
      numbers :=
        fun x hx =>
          ⟨(h.numbers x hx).1.trans (Nat.le_succ _),
            fun _ => Nat.lt_succ_of_le (h.numbers x hx).1⟩ }
  | publish e =>
    obtain ⟨hnum, he⟩ := hm
    have hr : r ≤ s.queued.length := h.le.trans h.le_length
    have htake : (s.queued ++ [(s.counter, e)]).take a = s.queued.take a :=
      List.take_append_of_le_length h.le_length
    have hdrop : (s.queued ++ [(s.counter, e)]).drop r = s.queued.drop r ++ [(s.counter, e)] :=
      List.drop_append_of_le_length hr
    refine ⟨h.le, h.le_succ, ?_, ?_, ?_, fun hsolo => Bool.noConfusion hsolo, ?_, ?_, ?_, ?_, ?_,
      h.tmp, h.sent, h.last⟩
    · rw [Move.next, List.length_append]
      exact h.le_length.trans (Nat.le_add_right _ _)
    · rw [Move.next, hdrop, List.map_append, ← h.queue]
      rfl
    · rw [Move.next, hdrop]
      exact h.ahead.trans (List.prefix_append _ _)
    · rw [Move.next, List.map_append, List.pairwise_append]
      refine ⟨h.increasing, List.pairwise_singleton _ _, fun x hx y hy => ?_⟩
      obtain ⟨z, hz, rfl⟩ := List.mem_map.mp hx
      obtain rfl := List.mem_singleton.mp hy
      exact (h.numbers z hz).2 hnum
    · intro x hx
      refine ⟨?_, fun hnum' => Bool.noConfusion hnum'⟩
      rcases List.mem_append.mp hx with hx | hx
      · exact (h.numbers x hx).1
      · rw [List.mem_singleton.mp hx]
        exact Nat.le_refl _
    · intro x hx
      rcases List.mem_append.mp hx with hx | hx
      · exact h.legal x hx
      · rw [List.mem_singleton.mp hx]
        exact he
    · rw [Move.next, htake]
      exact h.shows
    · rw [Move.next, htake]
      exact h.applied

lemma Move.next_frame (s : State) (m : Move) :
    (m.next s).snapshot = s.snapshot ∧ (m.next s).tmp = s.tmp := by
  cases m <;> exact ⟨rfl, rfl⟩

lemma moves_frame (s : State) (ms : List Move) :
    (moves s ms).snapshot = s.snapshot ∧ (moves s ms).tmp = s.tmp := by
  induction ms generalizing s with
  | nil => exact ⟨rfl, rfl⟩
  | cons m ms ih =>
    obtain ⟨h1, h2⟩ := ih (m.next s)
    obtain ⟨g1, g2⟩ := m.next_frame s
    exact ⟨h1.trans g1, h2.trans g2⟩

/-- **The imaging process keeps the invariant.** -/
lemma Inv.moves {ms : List Move} (h : Inv plan solo s r a files) (hms : Legal s ms)
    (hsolo : solo = true → ms = []) :
    Inv plan solo (moves s ms) r a files := by
  cases solo with
  | true =>
    rw [hsolo rfl]
    exact h
  | false =>
    clear hsolo
    induction ms generalizing s with
    | nil => exact h
    | cons m ms ih => exact ih hms.2 (h.move hms.1)

/-! ### The commands -/

/-- The next file. -/
lemma drop_of_ahead {l : List (ℕ × Event)} {x : ℕ × Event} (h : x :: files <+: l.drop r) :
    ∃ t, l.drop r = x :: (files ++ t) ∧ l.drop (r + 1) = files ++ t ∧
      l.take (r + 1) = l.take r ++ [x] ∧ r < l.length := by
  obtain ⟨t, ht⟩ := h
  have hdrop : l.drop r = x :: (files ++ t) := ht.symm
  have hget : l[r]? = some x := by
    rw [← List.head?_drop, hdrop]
    rfl
  refine ⟨t, hdrop, ?_, ?_, (List.getElem?_eq_some_iff.mp hget).1⟩
  · rw [← List.tail_drop, hdrop]
    rfl
  · rw [List.take_add_one, hget]
    rfl

lemma Inv.jq (h : Inv plan solo s r a files) (f : Filter) :
    Inv plan solo { s with tmp := some (f, f.apply s.snapshot) } r a files :=
  { h with
    tmp := fun g x hg => by
      obtain ⟨rfl, rfl⟩ := Prod.mk.inj (Option.some.inj hg)
      rfl }

lemma Inv.noTmp (h : Inv plan solo s r a files) : Inv plan solo { s with tmp := none } r a files :=
  { h with tmp := fun f x hf => by cases hf }

lemma Inv.post (h : Inv plan solo s r a files) {x : Snapshot} (hx : x = s.snapshot) :
    Inv plan solo { s with sent := s.sent ++ [x] } r a files :=
  { h with
    sent := by
      refine List.pairwise_append.mpr ⟨h.sent, List.pairwise_singleton _ _, fun y hy z hz => ?_⟩
      rw [List.mem_singleton.mp hz, hx]
      exact h.last y hy
    last := fun y hy => by
      rcases List.mem_append.mp hy with hy | hy
      · exact h.last y hy
      · rw [List.mem_singleton.mp hy, hx]
        exact Later.rfl' _ }

/-- The `mv` of a sample or a heartbeat. -/
lemma Inv.moveTelemetry (h : Inv plan solo s r a files) {f : Filter} {new : Snapshot}
    (ht : s.tmp = some (f, new)) (hf : ∀ c, f ≠ .item c) :
    Inv plan solo { s with snapshot := new, tmp := none } r a files := by
  have hnew : new = f.apply s.snapshot := h.tmp f new ht
  exact { h with
    shows := by rw [hnew]; exact h.shows.telemetry hf
    tmp := fun f x hf => by cases hf
    last := fun x hx => by rw [hnew]; exact (h.last x hx).trans (later_apply f _) }

/-- **The `mv` of an event**, which is the first one that is still there. -/
lemma Inv.moveItem {x : ℕ × Event} (h : Inv plan solo s r a (x :: files))
    (hitem : x.2.isItem = true) {new : Snapshot} (ht : s.tmp = some (.item x.2.change, new)) :
    Inv plan solo { s with snapshot := new, tmp := none, applied := s.applied ++ [x.2.change] } r
      (r + 1) (x :: files) := by
  obtain ⟨t, hdrop, -, htake, hlt⟩ := drop_of_ahead h.ahead
  have hnew : new = (Filter.item x.2.change).apply s.snapshot := h.tmp _ new ht
  have hmem : x ∈ s.queued := List.mem_of_mem_drop (hdrop ▸ List.mem_cons_self)
  have hchange := ((h.legal x hmem).item_change hitem).2.2
  have hevents : (s.queued.take (r + 1)).map Prod.snd =
      (s.queued.take r).map Prod.snd ++ [x.2] := by
    rw [htake, List.map_append]
    rfl
  have hchanges : changes ((s.queued.take (r + 1)).map Prod.snd) = changes ((s.queued.take r).map Prod.snd) ++ [x.2.change] := by
    rw [hevents, changes_concat, if_pos hitem]
  -- The event is moved for the first time, or once more.
  have hcases : a = r ∨ a = r + 1 := by
    have h1 := h.le
    have h2 := h.le_succ
    omega
  refine { h with
    le := Nat.le_succ r
    le_succ := Nat.le_refl _
    le_length := hlt
    shows := ?_
    applied := ?_
    tmp := fun f y hf => by cases hf
    last := fun y hy => by rw [hnew]; exact (h.last y hy).trans (later_apply _ _) }
  · rw [hevents, hnew]
    refine Shows.item hitem hchange ?_
    rcases hcases with rfl | rfl
    · exact .inl h.shows
    · rw [← hevents]
      exact .inr h.shows
  · rw [hchanges]
    rcases hcases with rfl | rfl
    · exact .first _ h.applied
    · refine .again _ ?_
      rw [← hchanges]
      exact h.applied

/-- An event of another kind is not moved. -/
lemma Inv.skip {x : ℕ × Event} (h : Inv plan solo s r a (x :: files)) (hitem : x.2.isItem = false) :
    Inv plan solo s r (r + 1) (x :: files) := by
  obtain ⟨t, -, -, htake, hlt⟩ := drop_of_ahead h.ahead
  have hevents : (s.queued.take (r + 1)).map Prod.snd = (s.queued.take r).map Prod.snd ++ [x.2] := by
    rw [htake, List.map_append]
    rfl
  have hcases : a = r ∨ a = r + 1 := by
    have h1 := h.le
    have h2 := h.le_succ
    omega
  rcases hcases with rfl | rfl
  · refine { h with
        le := Nat.le_succ _, le_succ := Nat.le_refl _, le_length := hlt, shows := ?_,
        applied := ?_ }
    · rw [hevents]
      exact h.shows.concat_other hitem
    · rw [hevents, changes_concat, hitem, if_neg Bool.false_ne_true, List.append_nil]
      exact h.applied
  · exact h

lemma eventName_injective {m n : ℕ} (h : eventName m = eventName n) : m = n := by
  unfold eventName at h
  have hpad : padded 10 m = padded 10 n := by
    have h' := List.append_cancel_right h
    exact List.append_cancel_left h'
  rw [← ofDigitChars_padded 10 m, hpad, ofDigitChars_padded]

/-- The files that are left have other names than the first one. -/
lemma Inv.name_ne {x : ℕ × Event} (h : Inv plan solo s r a (x :: files)) :
    ∀ y ∈ s.queued.drop (r + 1), eventName y.1 ≠ eventName x.1 := by
  obtain ⟨t, hdrop, hrest, -, -⟩ := drop_of_ahead h.ahead
  intro y hy heq
  have hpair : ((s.queued.drop r).map Prod.fst).Pairwise (· < ·) := by
    rw [List.map_drop]
    exact h.increasing.drop
  rw [hdrop, List.map_cons, List.pairwise_cons] at hpair
  rw [hrest] at hy
  have := hpair.1 y.1 (List.mem_map_of_mem hy)
  rw [eventName_injective heq] at this
  exact Nat.lt_irrefl _ this

/-- **The `rm` of an event** that is in the snapshot. -/
lemma Inv.remove {x : ℕ × Event} (h : Inv plan solo s r (r + 1) (x :: files)) :
    Inv plan solo { s with queue := s.queue.filter fun f => f.1 ≠ eventName x.1 } (r + 1)
      (r + 1) files := by
  obtain ⟨t, hdrop, hrest, -, hlt⟩ := drop_of_ahead h.ahead
  refine { h with
    le := Nat.le_refl _, le_succ := Nat.le_succ _, queue := ?_, ahead := ?_, all :=
      fun hsolo => ?_ }
  · show s.queue.filter (fun f => f.1 ≠ eventName x.1) = (s.queued.drop (r + 1)).map file
    rw [h.queue, hdrop, List.map_cons, List.filter_cons_of_neg (by simp [file]), ← hrest,
      List.filter_eq_self]
    intro f hf
    obtain ⟨y, hy, rfl⟩ := List.mem_map.mp hf
    exact decide_eq_true (h.name_ne y hy)
  · rw [hrest]
    exact List.prefix_append _ _
  · have hall := h.all hsolo
    rw [hdrop] at hall
    rw [hrest]
    exact (List.cons.inj hall).2

end Pxeos.Report
