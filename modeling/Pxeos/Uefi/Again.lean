import Pxeos.Uefi.Quiet

/-!
# The registration once more

When a second run of the registration finds nothing to do.  The label of an inactive entry is read
with a blank in front, so that the first run does not know the label of the entry that it makes
active; the second run does, and may choose another entry by it.
-/

namespace Pxeos.Uefi

open Pxeos.Lib

variable {sel : Selection} {fw : Firmware} {r : Reading}

/-! ### The entries of the loader after a command -/

section Matching

lemma matching_activate (id : Str) :
    (fw.activate id).matching sel = (fw.matching sel).map (BootEntry.activated id) := by
  have hpath : (fun e : BootEntry => selects sel e.path) ∘ BootEntry.activated id = fun e =>
      selects sel e.path := by
    funext e
    rw [Function.comp_apply]
    unfold BootEntry.activated
    split <;> rfl
  unfold Firmware.matching Firmware.activate
  rw [List.filter_map, hpath]

lemma ids_activate (id : Str) : (fw.activate id).ids = fw.ids := by
  unfold Firmware.ids Firmware.activate
  rw [List.map_map]
  exact List.map_congr_left fun e _ => BootEntry.activated_id id e

lemma matching_of_entries {fw' : Firmware} (h : fw'.entries = fw.entries) :
    fw'.matching sel = fw.matching sel := by
  unfold Firmware.matching
  rw [h]

lemma mem_matching_delete {id : Str} {e : BootEntry} :
    e ∈ (fw.delete id).matching sel ↔ e ∈ fw.matching sel ∧ e.id ≠ id := by
  unfold Firmware.matching Firmware.delete
  rw [List.mem_filter, List.mem_filter, List.mem_filter, decide_eq_true_eq]
  tauto

lemma mem_matching_create {e e' : BootEntry} {k : ℕ} (h : e' ∈ (fw.create e k).matching sel) :
    e' = e ∨ e' ∈ fw.matching sel := by
  obtain ⟨hmem, hsel⟩ := List.mem_filter.mp h
  unfold Firmware.create at hmem
  split at hmem
  · exact .inr (List.mem_filter.mpr ⟨hmem, hsel⟩)
  · rcases List.mem_append.mp hmem with hmem | hmem
    · exact .inr (List.mem_filter.mpr ⟨List.mem_of_mem_take hmem, hsel⟩)
    · rcases List.mem_cons.mp hmem with rfl | hmem
      · exact .inl rfl
      · exact .inr (List.mem_filter.mpr ⟨List.mem_of_mem_drop hmem, hsel⟩)

lemma eq_of_id {e e' : BootEntry} (h : e ∈ fw.entries) (h' : e' ∈ fw.entries) (heq : e.id = e'.id) :
    e = e' :=
  List.inj_on_of_nodup_map fw.ids_nodup h h' heq

end Matching

/-! ### Nothing to do afterwards -/

section After

/-- Nothing is to do with an entry of the best rank that is active and in the order, if no other one
is to be replaced. -/
lemma quiet_of_best (hr : fw.reading = some r) {e : BootEntry} (he : e ∈ fw.matching sel)
    (hbest : ∀ e' ∈ fw.matching sel, e'.rank sel ≤ e.rank sel) (ha : e.active = true)
    (hl : e.id ∈ r.order)
    (halone : (fw.matching sel).countP (fun e => e.rank sel = 1) = 1 → sel.label = defaultLabel ∨
      2 < e.rank sel) :
    Quiet sel r := by
  obtain ⟨h1, h2, h3⟩ := found_listed hr he hbest ha hl
  refine ⟨h2, h1, ?_⟩
  by_contra hrep
  obtain ⟨hcount, hlabel, hle⟩ := (replaces_iff hr).mp (Bool.not_eq_false _ ▸ hrep)
  rw [(isFound_findEntry hr).managedCount] at hcount
  rcases halone hcount with h | h
  · exact hlabel h
  · omega

/-- What is known once an old entry is to be replaced: the new one is active and has the desired
label. -/
structure Successor (sel : Selection) (fw : Firmware) (i : Str) (e : BootEntry) : Prop where
  mem : e ∈ fw.matching sel
  id : e.id = i
  rank : e.rank sel = 2
  best : ∀ e' ∈ fw.matching sel, e'.rank sel ≤ 2

lemma Successor.quiet {i : Str} {e : BootEntry} (h : Successor sel fw i e) {fw' : Firmware}
    {r' : Reading} (hsub : ∀ e', e' ∈ fw'.matching sel → e' ∈ fw.matching sel)
    (hmem : e ∈ fw'.matching sel) (hr : fw'.reading = some r') (hl : i ∈ r'.order)
    (hnone : ∀ e' ∈ fw'.matching sel, e'.rank sel ≠ 1) : Quiet sel r' := by
  refine quiet_of_best hr hmem (fun e' he' => ?_) (active_of_rank h.rank.le) (h.id ▸ hl)
    fun hcount => ?_
  · rw [h.rank]
    exact h.best e' (hsub e' he')
  · exfalso
    have hpos : 0 < (fw'.matching sel).countP fun e => e.rank sel = 1 := by omega
    obtain ⟨e', he', hrank⟩ := List.countP_pos_iff.mp hpos
    exact hnone e' he' (of_decide_eq_true hrank)

end After

/-! ### An entry that is made active -/

section Activated

variable (sel) in
/-- The label of an inactive entry leads the second run elsewhere: it is the managed one, and then
the entry is replaced, or stands behind entries with the desired label none of which is in the
order; or it is the desired one, and there is one entry to be replaced. -/
def Misled (fw : Firmware) (m : BootEntry) : Prop :=
  rankOf sel m.label = 1 ∧
      ((fw.matching sel).countP (fun e => e.rank sel = 1) = 0 ∧ sel.label ≠ defaultLabel ∨
        0 < (fw.matching sel).countP (fun e => e.rank sel = 2) ∧
          ∀ e ∈ fw.matching sel, e.rank sel = 2 → e.id ∉ fw.order.getD []) ∨
    rankOf sel m.label = 2 ∧ (fw.matching sel).countP (fun e => e.rank sel = 1) = 1 ∧
      sel.label ≠ defaultLabel

variable (sel) in
/-- The boot variables with which the second run does something: the entry of the loader that is
taken is inactive, the others are active and have the managed label or the desired one, and its own
label misleads. -/
def Relabelled (fw : Firmware) : Prop :=
  ∃ m ∈ fw.matching sel, m.active = false ∧ (∀ e ∈ fw.matching sel, e ≠ m → e.rank sel ≤ 2) ∧
    (m.id ∈ fw.order.getD [] ∨ ∀ i ∈ fw.order.getD [], i ∈ fw.ids) ∧ Misled sel fw m

lemma activated_self {m : BootEntry} :
    (m.activated m.id).active = true ∧ (m.activated m.id).rank sel = rankOf sel m.label := by
  unfold BootEntry.activated
  rw [if_pos rfl]
  exact ⟨rfl, rank_of_active rfl⟩

lemma activated_other {m e : BootEntry} (h : e.id ≠ m.id) : e.activated m.id = e := by
  unfold BootEntry.activated
  rw [if_neg h]

/-- The entries of the loader, split at one of them. -/
lemma exists_split {m : BootEntry} (hm : m ∈ fw.matching sel) :
    ∃ a b, fw.matching sel = a ++ m :: b ∧
    (fw.activate m.id).matching sel = a ++ m.activated m.id :: b := by
  obtain ⟨a, b, hab⟩ := List.append_of_mem hm
  have hnd : ((fw.matching sel).map BootEntry.id).Nodup :=
    fw.ids_nodup.sublist (List.filter_sublist.map _)
  rw [hab, List.map_append, List.map_cons, List.nodup_append] at hnd
  have ha : ∀ e ∈ a, e.id ≠ m.id :=
    fun e he => hnd.2.2 e.id (List.mem_map_of_mem he) m.id List.mem_cons_self
  have hb : ∀ e ∈ b, e.id ≠ m.id :=
    fun e he h => (List.nodup_cons.mp hnd.2.1).1 (h ▸ List.mem_map_of_mem he)
  have hkeep : ∀ l : List BootEntry, (∀ e ∈ l, e.id ≠ m.id) →
      l.map (BootEntry.activated m.id) = l := by
    intro l hl
    conv_rhs => rw [← List.map_id l]
    exact List.map_congr_left fun e he => activated_other (hl e he)
  refine ⟨a, b, hab, ?_⟩
  rw [matching_activate, hab, List.map_append, List.map_cons, hkeep a ha, hkeep b hb]

lemma one_le_rankOf (label : Str) : 1 ≤ rankOf sel label := by
  unfold rankOf
  split
  · exact le_rfl
  · split <;> decide

lemma rankOf_le_three (label : Str) : rankOf sel label ≤ 3 := by
  unfold rankOf
  split
  · decide
  · split <;> decide

/-- **The entry that was made active, and the second run.** -/
lemma quiet_activated_iff {m : BootEntry} (hm : m ∈ fw.matching sel) (hinactive : m.active = false)
    (hothers : ∀ e ∈ fw.matching sel, e ≠ m → e.rank sel ≤ 2) (hrank : rankOf sel m.label ≤ 2)
    {fw' : Firmware} {r' : Reading} (hentries : fw'.entries = (fw.activate m.id).entries)
    (hr : fw'.reading = some r') (hl : m.id ∈ r'.order)
    (horder : ∀ j, j ≠ m.id → (j ∈ r'.order ↔ j ∈ fw.order.getD [])) :
    Quiet sel r' ↔ ¬ Misled sel fw m := by
  obtain ⟨a, b, hes, hes'⟩ := exists_split hm
  rw [← @matching_of_entries sel (fw.activate m.id) _ hentries] at hes'
  obtain ⟨hactive', hrank'⟩ := @activated_self sel m
  have hid' := BootEntry.activated_id m.id m
  generalize hm' : m.activated m.id = m' at hes' hactive' hrank' hid'
  have hmrank : m.rank sel = 3 := rank_of_inactive hinactive
  have hmem' : m' ∈ fw'.matching sel := by
    rw [hes']
    simp
  -- the others are the same, with ranks that are not the highest
  have hback : ∀ e ∈ fw'.matching sel, e = m' ∨ e ∈ fw.matching sel ∧ e ≠ m := by
    intro e he
    rw [hes', List.mem_append, List.mem_cons] at he
    have hnd : (fw.matching sel).Nodup :=
      List.Nodup.of_map BootEntry.id (fw.ids_nodup.sublist (List.filter_sublist.map _))
    rw [hes, List.nodup_append] at hnd
    rw [hes, List.mem_append, List.mem_cons]
    rcases he with he | rfl | he
    · exact .inr ⟨.inl he, fun h => hnd.2.2 e he m List.mem_cons_self h⟩
    · exact .inl rfl
    · exact .inr ⟨.inr (.inr he), fun h => (List.nodup_cons.mp hnd.2.1).1 (h ▸ he)⟩
  have hforth : ∀ e ∈ fw.matching sel, e.rank sel ≤ 2 → e ∈ fw'.matching sel := by
    intro e he hle
    rw [hes, List.mem_append, List.mem_cons] at he
    rw [hes', List.mem_append, List.mem_cons]
    rcases he with he | rfl | he
    · exact .inl he
    · omega
    · exact .inr (.inr he)
  have hle' : ∀ e ∈ fw'.matching sel, e.rank sel ≤ 2 := by
    intro e he
    rcases hback e he with rfl | ⟨he, hne⟩
    · omega
    · exact hothers e he hne
  have hcount : ∀ k, k ≤ 2 → (fw'.matching sel).countP (fun e => e.rank sel = k) =
      (fw.matching sel).countP (fun e => e.rank sel = k) + if rankOf sel m.label =
        k then 1 else 0 := by
    intro k hk
    have hmk : ¬ m.rank sel = k := by omega
    rw [hes, hes', List.countP_append, List.countP_append, List.countP_cons,
      List.countP_cons, hrank']
    simp only [hmk, decide_false, decide_eq_true_eq, if_neg Bool.false_ne_true, Nat.add_zero]
    rw [Nat.add_assoc]
  have hidne : ∀ e ∈ fw.matching sel, e ≠ m → e.id ≠ m.id := fun e he hne h =>
    hne (eq_of_id (List.mem_of_mem_filter he) (List.mem_of_mem_filter hm) h)
  have hcount1 := hcount 1 (by decide)
  have hpos := @one_le_rankOf sel m.label
  unfold Misled
  constructor
  · intro hq hmis
    obtain ⟨i, hi⟩ : ∃ i, (findEntry sel r').id = some i := by
      cases h : (findEntry sel r').id with
      | none =>
        have := hq.listed
        rw [h] at this
        cases this
      | some i => exact ⟨i, rfl⟩
    obtain ⟨e, he, hide, -, hbest, -⟩ := exists_found hr hi
    have halone : ¬ ((fw'.matching sel).countP (fun e => e.rank sel = 1) = 1 ∧
        sel.label ≠ defaultLabel) := by
      rintro ⟨h1, h2⟩
      have hrep :=
        (replaces_iff hr).mpr ⟨(isFound_findEntry hr).managedCount.trans h1, h2, hbest ▸ hle' e he⟩
      rw [hq.alone] at hrep
      cases hrep
    rcases hmis with ⟨h1, ⟨hM, hlabel⟩ | ⟨hD, hnone⟩⟩ | ⟨h2, hM, hlabel⟩
    · refine halone ⟨?_, hlabel⟩
      rw [hcount1, hM, if_pos h1]
    · -- the entry that is found has the desired label, and is not in the order
      obtain ⟨d, hd, hdrank⟩ := List.countP_pos_iff.mp hD
      have hdrank : d.rank sel = 2 := of_decide_eq_true hdrank
      have hbest2 : e.rank sel = 2 := by
        have hge := (isFound_findEntry hr).le_best d (hforth d hd hdrank.le)
        have := hle' e he
        omega
      rcases hback e he with rfl | ⟨hemem, hne⟩
      · omega
      · have hlisted := hq.listed
        rw [hi, listed_some, ← hide, horder e.id (hidne e hemem hne)] at hlisted
        exact hnone e hemem hbest2 hlisted
    · refine halone ⟨?_, hlabel⟩
      rw [hcount1, hM, if_neg (by omega)]
  · intro hmis
    by_cases h1 : rankOf sel m.label = 1
    · by_cases hD : (fw.matching sel).countP (fun e => e.rank sel = 2) = 0
      · -- no other label than the managed one
        refine quiet_of_best hr hmem' (fun e he => ?_) hactive' (hid' ▸ hl) fun hM => .inl ?_
        · rw [hrank', h1]
          have hle := hle' e he
          rcases hback e he with rfl | ⟨hemem, -⟩
          · omega
          · have hne : e.rank sel ≠ 2 := fun h => by
              have := List.countP_pos_iff (p := fun e : BootEntry => decide (e.rank sel = 2)).mpr
                ⟨e, hemem, decide_eq_true h⟩
              omega
            omega
        · by_contra hlabel
          refine hmis (.inl ⟨h1, .inl ⟨?_, hlabel⟩⟩)
          rw [hcount1, if_pos h1] at hM
          omega
      · obtain ⟨d, hd, hdrank, hdl⟩ : ∃ e ∈ fw.matching sel, e.rank sel = 2 ∧
          e.id ∈ fw.order.getD [] := by
          by_contra hno
          push Not at hno
          exact hmis (.inl ⟨h1, .inr ⟨Nat.pos_of_ne_zero hD, hno⟩⟩)
        have hdne : d ≠ m := by
          rintro rfl
          omega
        refine quiet_of_best hr (hforth d hd hdrank.le) (fun e he => hdrank ▸ hle' e he)
          (active_of_rank hdrank.le)
          ((horder d.id (hidne d hd hdne)).mpr hdl) fun hM => .inl ?_
        by_contra hlabel
        refine hmis (.inl ⟨h1, .inl ⟨?_, hlabel⟩⟩)
        rw [hcount1, if_pos h1] at hM
        omega
    · have h2 : rankOf sel m.label = 2 := by omega
      refine quiet_of_best hr hmem' (fun e he => ?_) hactive' (hid' ▸ hl) fun hM => .inl ?_
      · rw [hrank', h2]
        exact hle' e he
      · by_contra hlabel
        refine hmis (.inr ⟨h2, ?_, hlabel⟩)
        rw [hcount1, if_neg h1] at hM
        omega

end Activated

/-! ### The first run -/

section First

variable {v : Vars} {s : Watch} {P : Firmware → Prop}

/-- What a run may end with. -/
abbrev EndsWith (P : Firmware → Prop) (p : Shell Unit) (v : Vars) (s : Watch) : Prop :=
  Script.Holds (commands Documented) p v s (fun _ _ s' => P s'.fw) (fun _ _ _ => True)

/-- The end of the registration. -/
lemma endsWith_putInOrder {types : List (Str × Str)} {original : List Str} {old : Option Str}
    {isListed : Bool} {i : Str} (hi : v.found.id = some i)
    (hnone : old = none → ∀ (fw' : Firmware) (r' : Reading), fw'.entries = s.fw.entries →
      fw'.reading = some r' → r'.order = desiredOrder types original i old isListed →
      (findEntry sel r').active = true →
      (v.reading.order = desiredOrder types original i old isListed ∨
        ∀ j ∈ desiredOrder types original i old isListed, j ∈ s.fw.ids) → P fw')
    (hsome : ∀ o, old = some o → ∀ (fw' : Firmware) (r' : Reading), fw'.entries = s.fw.entries →
      (fw'.delete o).reading = some r' → r'.order = desiredOrder types original i old isListed →
      P (fw'.delete o)) :
    EndsWith P (putInOrder sel types original old isListed) v s := by
  generalize hdesired : desiredOrder types original i old isListed = desired at hnone hsome
  unfold EndsWith putInOrder
  refine Script.Holds.seq (Script.holds_vars ?_)
  rw [hi, Option.getD_some, hdesired]
  refine Script.Holds.bind (Q := fun _ _ s' => s'.fw.entries = s.fw.entries ∧
    (v.reading.order = desired ∨ ∀ j ∈ desired, j ∈ s.fw.ids))
    (holds_writeOrder (fun h => ⟨rfl, .inl h⟩) (fun _ => trivial) (fun _ h => ⟨rfl, .inr h⟩)
      fun _ _ => trivial) ?_
  rintro ⟨⟩ v₁ s₁ ⟨hentries, hids⟩
  refine Script.Holds.seq (holds_reread (fun text ht r' hread => ?_) fun _ _ _ => trivial)
  refine Script.Holds.seq (holds_find ?_)
  refine Script.Holds.seq (Script.holds_vars ?_)
  refine Script.Holds.seq (holds_require (fun htest => ?_) fun _ => trivial)
  have hr' : s₁.fw.reading = some r' := reading_of_printed ht hread
  rw [Bool.and_eq_true, Bool.and_eq_true, beq_iff_eq] at htest
  cases old with
  | none => exact Script.holds_pure (hnone rfl _ r' hentries hr' htest.2 htest.1.2 hids)
  | some o =>
    refine holds_deleteOld (fun _ text ht r'' hread' _ _ _ _ horder => ?_) fun _ _ _ => trivial
    exact hsome o rfl _ r'' hentries (reading_of_printed ht hread') horder

/-- The entry that was made, found again. -/
lemma successor_created (hr : fw.reading = some r) (hcount : (findEntry sel r).desiredCount = 1)
    (hlabel : matchLabel r (findEntry sel r) = sel.label)
    (hsome : (findEntry sel r).id.isSome = true) :
    sel.label ≠ managedLabel ∧ ∃ i e, (findEntry sel r).id = some i ∧ Successor sel fw i e ∧
      (findEntry sel r).active = true := by
  obtain ⟨i, hi⟩ := Option.isSome_iff_exists.mp hsome
  obtain ⟨e, he, hid, ha, hb, hshown⟩ := exists_found hr hi
  have hfound := @isFound_findEntry sel _ _ hr
  have hpos : 0 < (fw.matching sel).countP fun e => e.rank sel = 2 := by
    rw [← hfound.desiredCount, hcount]
    exact Nat.one_pos
  obtain ⟨d, -, hd⟩ := List.countP_pos_iff.mp hpos
  obtain ⟨hd1, hd2⟩ := shown_of_rank_two (of_decide_eq_true hd)
  have hne : sel.label ≠ managedLabel := hd1 ▸ hd2
  have hrank : e.rank sel = 2 := by
    unfold BootEntry.rank rankOf
    rw [← hshown, hlabel, if_neg hne, if_pos rfl]
  refine ⟨hne, i, e, hi, ⟨he, hid, hrank, fun e' he' => ?_⟩, ?_⟩
  · rw [← hrank, hb]
    exact hfound.le_best e' he'
  · rw [← ha]
    exact active_of_rank hrank.le

/-- A new entry is made. -/
lemma endsWith_create {types : List (Str × Str)} {original : List Str} {old : Option Str}
    {isListed : Bool} (hid : v.found.id = none) (hnotListed : isListed = false)
    (hold : ∀ e ∈ s.fw.matching sel, e.rank sel = 1 → ∃ o, old = some o ∧ e.id = o)
    (hmanaged : ∀ o, old = some o → ∃ e ∈ s.fw.matching sel, e.id = o ∧ e.rank sel = 1) :
    EndsWith (fun fw' => ∃ r', fw'.reading = some r' ∧ Quiet sel r')
      (registerAs sel types original old isListed) v s := by
  unfold EndsWith registerAs
  refine Script.Holds.bind (Q := fun _ v₁ s₁ => v₁ = v ∧ s₁.fw = s.fw)
    (holds_writeReady (fun _ => ⟨rfl, rfl⟩) (fun _ _ => trivial) fun _ _ => trivial) ?_
  rintro ⟨⟩ v₁ s₁ ⟨rfl, hfw⟩
  refine Script.Holds.seq
    (holds_ensure (fun h => absurd hid h)
      (fun _ e k hdoc text ht r₁ hread hsome hcount hlabel => ?_)
    fun _ _ _ _ => trivial)
  have hr₁ : (s₁.fw.create e k).reading = some r₁ := reading_of_printed ht hread
  obtain ⟨hne, i, d, hi, hd, hactive⟩ := successor_created hr₁ hcount hlabel hsome
  rw [hfw] at hr₁ hd hdoc
  have hfresh : e.rank sel ≠ 1 := by
    have hshown : e.shown = sel.label := by
      unfold BootEntry.shown
      rw [if_pos hdoc.2.1, hdoc.2.2]
    intro h
    exact hne (hshown ▸ shown_of_rank_one h)
  refine Script.Holds.seq (holds_activate (fun _ => ?_) (fun h => ?_) fun _ _ => trivial)
  swap
  · rw [show (findEntry sel r₁).active = false from h] at hactive
    cases hactive
  have hmem : ∀ o, old ≠ some i → o = old → i ∈ desiredOrder types original i o isListed := by
    rintro o hoi rfl
    exact mem_desiredOrder hoi fun h => by
      rw [hnotListed] at h
      cases h
  have hi' : ({ v₁ with reading := r₁, found := findEntry sel r₁ } : Vars).found.id = some i := hi
  refine endsWith_putInOrder (P := fun fw' => ∃ r', fw'.reading = some r' ∧ Quiet sel r') hi'
    (fun hnone fw' r' hentries hr' horder _ _ => ⟨r', hr', ?_⟩) fun o ho fw' r' hentries hr'
      horder => ⟨r', hr', ?_⟩
  · have hentries : fw'.entries = (s.fw.create e k).entries := hfw ▸ hentries
    refine hd.quiet (fun e' he' => matching_of_entries hentries ▸ he')
      (matching_of_entries hentries ▸ hd.mem) hr' ?_ ?_
    · rw [horder]
      exact hmem old (by rw [hnone]; exact nofun) rfl
    · intro e' he' hrank
      rw [matching_of_entries hentries] at he'
      rcases mem_matching_create he' with rfl | he'
      · exact hfresh hrank
      · obtain ⟨o, ho, -⟩ := hold e' he' hrank
        rw [hnone] at ho
        cases ho
  · have hentries : fw'.entries = (s.fw.create e k).entries := hfw ▸ hentries
    have hio : o ≠ i := by
      rintro rfl
      obtain ⟨e₀, he₀, hid₀, hrank₀⟩ := hmanaged o ho
      have heq : e₀ = d :=
        eq_of_id (mem_create (List.mem_of_mem_filter he₀)) (List.mem_of_mem_filter hd.mem)
          (hid₀.trans hd.id.symm)
      have := hd.rank
      rw [← heq] at this
      omega
    have hsub : ∀ e', e' ∈ (fw'.delete o).matching sel → e' ∈ (s.fw.create e k).matching sel ∧
        e'.id ≠ o := by
      intro e' he'
      obtain ⟨h1, h2⟩ := mem_matching_delete.mp he'
      exact ⟨matching_of_entries hentries ▸ h1, h2⟩
    refine hd.quiet (fun e' he' => (hsub e' he').1)
      (mem_matching_delete.mpr ⟨matching_of_entries hentries ▸ hd.mem, ?_⟩) hr' ?_ ?_
    · rw [hd.id]
      exact hio.symm
    · rw [horder]
      exact hmem old (by rw [ho]; exact fun h => hio (Option.some.inj h)) rfl
    · intro e' he' hrank
      obtain ⟨h1, h2⟩ := hsub e' he'
      rcases mem_matching_create h1 with rfl | h1
      · exact hfresh hrank
      · obtain ⟨o', ho', hid'⟩ := hold e' h1 hrank
        rw [ho] at ho'
        obtain rfl := Option.some.inj ho'
        exact h2 hid'

/-- The entry with the managed label is the only one. -/
lemma eq_of_rank_one (hcount : (fw.matching sel).countP (fun e => e.rank sel = 1) = 1)
    {e e' : BootEntry} (he : e ∈ fw.matching sel) (he' : e' ∈ fw.matching sel) (h : e.rank sel = 1)
    (h' : e'.rank sel = 1) : e = e' := by
  rw [List.countP_eq_length_filter, List.length_eq_one_iff] at hcount
  obtain ⟨d, hd⟩ := hcount
  have hmem : ∀ x ∈ fw.matching sel, x.rank sel = 1 → x = d := fun x hx hrank =>
    List.mem_singleton.mp (hd ▸ List.mem_filter.mpr ⟨hx, decide_eq_true hrank⟩)
  rw [hmem e he h, hmem e' he' h']

/-- An active entry is put in the place of the old one. -/
lemma endsWith_replace {types : List (Str × Str)} {i o : Str} {isListed : Bool}
    (hr : s.fw.reading = some r) (hfound : v.found = findEntry sel r)
    (hrep : replaces sel r (findEntry sel r) = true) (hi : v.found.id = some i)
    (ho : v.found.managedId = some o) (hne : i ≠ o) (hlisted : isListed = true → i ∈ r.order) :
    EndsWith (fun fw' => ∃ r', fw'.reading = some r' ∧ Quiet sel r')
      (registerAs sel types r.order (some o) isListed) v s := by
  obtain ⟨hcount, -, hbest⟩ := (replaces_iff hr).mp hrep
  rw [hfound] at hi ho
  have hf := @isFound_findEntry sel _ _ hr
  rw [hf.managedCount] at hcount
  obtain ⟨d, hd, hid, ha, hb, -⟩ := exists_found hr hi
  obtain ⟨e₀, he₀, hid₀, hrank₀⟩ := hf.managedId o ho
  have hrank : d.rank sel = 2 := by
    have hne1 : d.rank sel ≠ 1 :=
      fun h => hne (by rw [← hid, ← hid₀, eq_of_rank_one hcount hd he₀ h hrank₀])
    have := @one_le_rank sel d
    omega
  have hsucc : Successor sel s.fw i d := ⟨hd, hid, hrank, fun e he => (hf.le_best e he).trans hbest⟩
  unfold EndsWith registerAs
  refine Script.Holds.bind (Q := fun _ v₁ s₁ => v₁ = v ∧ s₁.fw = s.fw)
    (holds_writeReady (fun _ => ⟨rfl, rfl⟩) (fun _ _ => trivial) fun _ _ => trivial) ?_
  rintro ⟨⟩ v₁ s₁ ⟨rfl, hfw⟩
  have hsome : v₁.found.id ≠ none := by
    rw [hfound, hi]
    exact Option.some_ne_none i
  refine Script.Holds.seq (holds_ensure (fun _ => ?_) (fun h => absurd h hsome)
    fun h => absurd h hsome)
  refine Script.Holds.seq (holds_activate (fun _ => ?_) (fun h => ?_) fun _ _ => trivial)
  swap
  · rw [hfound, ← ha, active_of_rank hrank.le] at h
    cases h
  refine endsWith_putInOrder (P := fun fw' => ∃ r', fw'.reading = some r' ∧ Quiet sel r')
    (hfound ▸ hi) nofun
    fun o' ho' fw' r' hentries hr' horder => ⟨r', hr', ?_⟩
  obtain rfl := Option.some.inj ho'
  have hentries : fw'.entries = s.fw.entries := hfw ▸ hentries
  have hsub : ∀ e', e' ∈ (fw'.delete o).matching sel → e' ∈ s.fw.matching sel ∧ e'.id ≠ o := by
    intro e' he'
    obtain ⟨h1, h2⟩ := mem_matching_delete.mp he'
    exact ⟨matching_of_entries hentries ▸ h1, h2⟩
  refine hsucc.quiet (fun e' he' => (hsub e' he').1)
    (mem_matching_delete.mpr ⟨matching_of_entries hentries ▸ hd, hid ▸ hne⟩) hr' ?_
    fun e' he' hrank' => ?_
  · rw [horder]
    exact mem_desiredOrder (fun h => hne (Option.some.inj h).symm) hlisted
  · obtain ⟨h1, h2⟩ := hsub e' he'
    rw [eq_of_rank_one hcount h1 he₀ hrank' hrank₀] at h2
    exact h2 hid₀

/-- An entry that is kept, active or not. -/
lemma endsWith_keep {types : List (Str × Str)} {i : Str} {isListed : Bool}
    (hr : s.fw.reading = some r) (hreading : v.reading = r) (hfound : v.found = findEntry sel r)
    (hrep : replaces sel r (findEntry sel r) = false) (hi : v.found.id = some i)
    (hlisted : isListed = true ↔ i ∈ r.order) :
    EndsWith (fun fw' => ∃ r', fw'.reading = some r' ∧
        (Quiet sel r' ∨ Relabelled sel s.fw ∧ (v.ownVars = true ∨ mountedRw v.varsOptions = true)))
      (registerAs sel types r.order none isListed) v s := by
  rw [hfound] at hi
  have hf := @isFound_findEntry sel _ _ hr
  obtain ⟨m, hm, hid, ha, hb, -⟩ := exists_found hr hi
  have hmem : i ∈ desiredOrder types r.order i none isListed :=
    mem_desiredOrder (Option.some_ne_none i).symm hlisted.mp
  unfold EndsWith registerAs
  refine Script.Holds.bind (Q := fun _ v₁ s₁ => v₁ = v ∧ s₁.fw = s.fw ∧
    (v.ownVars = true ∨ mountedRw v.varsOptions = true))
    (holds_writeReady (fun h => ⟨rfl, rfl, h⟩) (fun _ _ => trivial) fun _ _ => trivial) ?_
  rintro ⟨⟩ v₁ s₁ ⟨rfl, hfw, hwritable⟩
  have hsome : v₁.found.id ≠ none := by
    rw [hfound, hi]
    exact Option.some_ne_none i
  refine Script.Holds.seq (holds_ensure (fun _ => ?_) (fun h => absurd h hsome)
    fun h => absurd h hsome)
  refine Script.Holds.seq (holds_activate (fun hactive => ?_) (fun hactive hdoc => ?_)
    fun _ _ => trivial)
  · -- an active entry is only put into the order
    refine endsWith_putInOrder (P := fun fw' => ∃ r', fw'.reading = some r' ∧
        (Quiet sel r' ∨ Relabelled sel s.fw ∧
          (v₁.ownVars = true ∨ mountedRw v₁.varsOptions = true))) (hfound ▸ hi)
      (fun _ fw' r' hentries hr' horder _ _ => ⟨r', hr', .inl ?_⟩) nofun
    have hentries : fw'.entries = s.fw.entries := hfw ▸ hentries
    have hmatching := @matching_of_entries sel _ _ hentries
    refine quiet_of_best hr' (hmatching ▸ hm) (fun e' he' => ?_) ?_ ?_ fun hcount => ?_
    · rw [hb]
      exact hf.le_best e' (hmatching ▸ he')
    · rwa [ha, ← hfound]
    · rw [horder, hid]
      exact hmem
    · rw [hmatching, ← hf.managedCount] at hcount
      by_contra hno
      push Not at hno
      have := (replaces_iff hr).mpr ⟨hcount, hno.1, hb ▸ hno.2⟩
      rw [hrep] at this
      cases this
  · -- an inactive one is made active, and has another rank then
    have hinactive : m.active = false := by rw [ha, ← hfound, hactive]
    have hmrank : m.rank sel = 3 := rank_of_inactive hinactive
    have hgetD : v₁.found.id.getD [] = m.id := by rw [hfound, hi, Option.getD_some, hid]
    refine endsWith_putInOrder (P := fun fw' => ∃ r', fw'.reading = some r' ∧
        (Quiet sel r' ∨ Relabelled sel s.fw ∧
          (v₁.ownVars = true ∨ mountedRw v₁.varsOptions = true))) (hfound ▸ hi)
      (fun _ fw' r' hentries hr' horder hactive' hids => ⟨r', hr', ?_⟩) nofun
    have hentries : fw'.entries = (s.fw.activate m.id).entries := by
      rw [hentries, hgetD]
      exact congrArg (fun f : Firmware => (f.activate m.id).entries) hfw
    have hmatching := (@matching_of_entries sel _ _ hentries).trans (matching_activate m.id)
    obtain ⟨hactivated, hrank⟩ := @activated_self sel m
    have hm' : m.activated m.id ∈ fw'.matching sel := by
      rw [hmatching]
      exact List.mem_map_of_mem hm
    have hl : m.id ∈ r'.order := by
      rw [horder, hid]
      exact hmem
    by_cases h3 : rankOf sel m.label = 3
    · refine .inl (quiet_of_best hr' hm' (fun e' _ => ?_) hactivated ?_ fun _ => .inr ?_)
      · rw [hrank, h3]
        exact rank_le_three e'
      · rwa [BootEntry.activated_id]
      · rw [hrank, h3]
        decide
    · have hle2 : rankOf sel m.label ≤ 2 := by
        have := @rankOf_le_three sel m.label
        omega
      -- another inactive entry would have been found again
      have hothers : ∀ e ∈ s.fw.matching sel, e ≠ m → e.rank sel ≤ 2 := by
        intro e he hne
        by_contra hgt
        have hidne : e.id ≠ m.id :=
          fun h => hne (eq_of_id (List.mem_of_mem_filter he) (List.mem_of_mem_filter hm) h)
        have he' : e ∈ fw'.matching sel := by
          rw [hmatching]
          exact List.mem_map.mpr ⟨e, he, activated_other hidne⟩
        have hf' := @isFound_findEntry sel _ _ hr'
        obtain ⟨i', hi'⟩ := Option.isSome_iff_exists.mp (hf'.isSome (List.ne_nil_of_mem he'))
        obtain ⟨d, hd, -, hda, hdb, -⟩ := exists_found hr' hi'
        have hd3 : d.rank sel = 3 := by
          have h1 := hf'.le_best e he'
          have h2 := @rank_le_three sel d
          omega
        rw [hmatching] at hd
        obtain ⟨e₁, he₁, rfl⟩ := List.mem_map.mp hd
        by_cases hid₁ : e₁.id = m.id
        · obtain rfl := eq_of_id (List.mem_of_mem_filter he₁) (List.mem_of_mem_filter hm) hid₁
          omega
        · rw [activated_other hid₁] at hda hd3
          have hact := hf.active_of e₁ he₁ (by omega) (hda.trans hactive')
          rw [← hfound, hactive] at hact
          cases hact
      have horder' : ∀ j, j ≠ m.id → (j ∈ r'.order ↔ j ∈ s.fw.order.getD []) := by
        intro j hj
        rw [horder, ← reading_order hr]
        cases hlb : isListed with
        | true => rfl
        | false => exact (mem_insertNew types i r.order).2 j (hid ▸ hj)
      have hiff := quiet_activated_iff hm hinactive hothers hle2 hentries hr' hl horder'
      by_cases hmis : Misled sel s.fw m
      · refine .inr ⟨⟨m, hm, hinactive, hothers, ?_, hmis⟩, hwritable⟩
        rcases hids with heq | hids
        · left
          rw [← reading_order hr, ← hreading, heq, hid]
          exact hmem
        · by_cases hin : m.id ∈ s.fw.order.getD []
          · exact .inl hin
          · refine .inr fun j hj => ?_
            have hne : j ≠ m.id := fun h => hin (h ▸ hj)
            have hj' : j ∈ desiredOrder types r.order i none isListed :=
              horder ▸ (horder' j hne).mpr hj
            have := hids j hj'
            rwa [ids_activate, hfw] at this
      · exact .inl (hiff.mpr hmis)

/-- Where the writes are possible. -/
def Writable (v : Vars) : Prop := v.ownVars = true ∨ mountedRw v.varsOptions = true

/-- **What a first run ends with.** -/
theorem endsWith_register (v : Vars) (s : Watch) :
    EndsWith (fun fw' => ∃ r', fw'.reading = some r' ∧
      (Quiet sel r' ∨ s.fw.reading.isSome = true ∧ Relabelled sel s.fw ∧ Writable v))
        (register sel) v s := by
  refine Script.Holds.seq (holds_reread (fun text ht r hread => ?_) fun _ _ _ => trivial)
  have hr : s.fw.reading = some r := reading_of_printed ht hread
  have hsome : s.fw.reading.isSome = true := by rw [hr]; rfl
  have hf := @isFound_findEntry sel _ _ hr
  refine holds_registerSelected hf.managed_isSome (fun hl ha hrep => ⟨r, hr, .inl ⟨hl, ha, hrep⟩⟩)
    (fun v' old hc htest => ?_) fun _ _ _ => trivial
  have hmono : ∀ {p : Shell Unit} {v' : Vars} {s' : Watch},
      EndsWith (fun fw' => ∃ r', fw'.reading = some r' ∧ Quiet sel r') p v' s' →
      Script.Holds (commands Documented) p v' s' (fun _ _ s' => ∃ r', s'.fw.reading = some r' ∧
        (Quiet sel r' ∨ s.fw.reading.isSome = true ∧ Relabelled sel s.fw ∧ Writable v))
          (fun _ _ _ => True) := by
    intro p v' s' h
    refine h.mono ?_ fun _ _ _ _ => trivial
    rintro ⟨⟩ v₁ s₁ ⟨r', hr', hq⟩
    exact ⟨r', hr', .inl hq⟩
  cases hc with
  | keep hrep =>
    cases hid : (findEntry sel r).id with
    | none =>
      have hempty : s.fw.matching sel = [] := by
        by_contra hne
        have := hf.isSome hne
        rw [hid] at this
        cases this
      refine hmono (endsWith_create hid rfl (fun e he => ?_) nofun)
      have he : e ∈ s.fw.matching sel := he
      rw [hempty] at he
      cases he
    | some i =>
      refine Script.Holds.mono
        (endsWith_keep (s := { s with reading := r }) hr rfl rfl hrep hid listed_some) ?_
        fun _ _ _ _ => trivial
      rintro ⟨⟩ v₁ s₁ ⟨r', hr', hq | ⟨hrel, hw⟩⟩
      · exact ⟨r', hr', .inl hq⟩
      · exact ⟨r', hr', .inr ⟨hsome, hrel, hw⟩⟩
  | other hrep _ hne =>
    obtain ⟨o, ho⟩ := Option.isSome_iff_exists.mp (hf.managed_isSome (managedCount_pos hrep))
    have hnonempty : s.fw.matching sel ≠ [] := by
      obtain ⟨e, he, -⟩ := hf.managedId o ho
      exact List.ne_nil_of_mem he
    obtain ⟨i, hi⟩ := Option.isSome_iff_exists.mp (hf.isSome hnonempty)
    have hio : i ≠ o := by
      rintro rfl
      exact hne (hi.trans ho.symm)
    have ho' : ({ v with reading := r, found := findEntry sel r } : Vars).found.managedId =
      some o := ho
    rw [ho']
    refine hmono
      (endsWith_replace (s := { s with reading := r }) hr rfl hrep hi ho hio fun hl => ?_)
    have hl : listed r.order (findEntry sel r).id = true := hl
    rw [hi] at hl
    exact listed_some.mp hl
  | self hrep _ heq =>
    obtain ⟨o, ho⟩ := Option.isSome_iff_exists.mp (hf.managed_isSome (managedCount_pos hrep))
    obtain ⟨e₀, he₀, hid₀, hrank₀⟩ := hf.managedId o ho
    have hcount := ((replaces_iff hr).mp hrep).1
    rw [hf.managedCount] at hcount
    have ho' : ({ v with reading := r, found := findEntry sel r } : Vars).found.managedId =
      some o := ho
    rw [ho']
    refine hmono (endsWith_create rfl rfl (fun e he hrank => ⟨o, rfl, ?_⟩) fun o' h => ?_)
    · rw [eq_of_rank_one hcount he he₀ hrank hrank₀]
      exact hid₀
    · obtain rfl := Option.some.inj h
      exact ⟨e₀, he₀, hid₀, hrank₀⟩

end First

/-! ### A run that ends well -/

section Second

/-- Commands that do not fail where they can succeed. -/
def Friendly (fw : Firmware) (a : Sigma Answer) : Prop :=
  Printing fw a ∧ a ≠ ⟨.remountRw, false⟩ ∧ (∀ id ∈ fw.ids, a ≠ ⟨.activate id, false⟩) ∧
    ∀ items : List Str, (∀ i ∈ items, i ∈ fw.ids) → a ≠ ⟨.order items, false⟩

lemma exists_friendly (s : Watch) (c : Call) : ∃ a, (commands Friendly).rely s ⟨c, a⟩ := by
  cases c with
  | efibootmgrV => exact ⟨some s.fw.print, ⟨rfl, nofun⟩, nofun, fun _ _ => nofun, fun _ _ => nofun⟩
  | remountRw => exact ⟨true, ⟨trivial, nofun⟩, nofun, fun _ _ => nofun, fun _ _ => nofun⟩
  | create => exact ⟨none, ⟨trivial, nofun⟩, nofun, fun _ _ => nofun, fun _ _ => nofun⟩
  | delete => exact ⟨false, ⟨trivial, nofun⟩, nofun, fun _ _ => nofun, fun _ _ => nofun⟩
  | activate id =>
    by_cases h : id ∈ s.fw.ids
    · exact ⟨true, ⟨h, nofun⟩, nofun, fun _ _ => nofun, fun _ _ => nofun⟩
    · refine ⟨false, ⟨trivial, nofun⟩, nofun, fun j hj heq => ?_, fun _ _ => nofun⟩
      cases heq
      exact h hj
  | order items =>
    by_cases h : ∀ i ∈ items, i ∈ s.fw.ids
    · exact ⟨true, ⟨h, nofun⟩, nofun, fun _ _ => nofun, fun _ _ => nofun⟩
    · refine ⟨false, ⟨trivial, nofun⟩, nofun, fun _ _ => nofun, fun js hj heq => ?_⟩
      cases heq
      exact h hj

lemma entryOf_isSome (id : Str) (active : Bool) (path : Str) :
    (entryOf id active path).isSome = (entryOf [] false path).isSome := by
  rcases entryOf_cases path with h | h | ⟨rest, -, h⟩
  · rw [h, h]
  · rw [h, h]
  · rw [h, h]
    rfl

/-- When the boot variables can be read. -/
lemma reading_isSome_iff :
    fw.reading.isSome = true ↔ ∀ e ∈ fw.entries, (entryOf [] false e.path).isSome = true := by
  unfold Firmware.reading
  rw [Option.isSome_map]
  generalize fw.entries = es
  induction es with
  | nil => simp
  | cons e es ih =>
    rw [List.mapM_cons, List.forall_mem_cons, ← ih, ← entryOf_isSome e.id e.active]
    cases entryOf e.id e.active e.path with
    | none => simp
    | some o => cases es.mapM fun e => entryOf e.id e.active e.path <;> simp

lemma reading_activate (id : Str) (hr : fw.reading = some r) {fw' : Firmware}
    (h : fw'.entries = (fw.activate id).entries) :
    ∃ r', fw'.reading = some r' := by
  rw [← Option.isSome_iff_exists, reading_isSome_iff, h]
  intro e he
  obtain ⟨e₀, he₀, rfl⟩ := List.mem_map.mp he
  have hpath : (e₀.activated id).path = e₀.path := by
    unfold BootEntry.activated
    split <;> rfl
  rw [hpath]
  exact reading_isSome_iff.mp (by rw [hr]; rfl) e₀ he₀

/-- What is found before the misleading entry is made active: this entry. -/
lemma found_misled (hr : fw.reading = some r) {m : BootEntry} (hm : m ∈ fw.matching sel)
    (hinactive : m.active = false) (hothers : ∀ e ∈ fw.matching sel, e ≠ m → e.rank sel ≤ 2) :
    (findEntry sel r).id = some m.id ∧ (findEntry sel r).active = false ∧
    replaces sel r (findEntry sel r) = false := by
  have hf := @isFound_findEntry sel _ _ hr
  have hmrank : m.rank sel = 3 := rank_of_inactive hinactive
  have hge := hf.le_best m hm
  obtain ⟨i, hi⟩ := Option.isSome_iff_exists.mp (hf.isSome (List.ne_nil_of_mem hm))
  obtain ⟨e, he, hid, ha, hb, -⟩ := exists_found hr hi
  have heq : e = m := by
    by_contra hne
    have := hothers e he hne
    omega
  subst heq
  refine ⟨hi.trans (congrArg some hid.symm), ha.symm.trans hinactive, ?_⟩
  by_contra hrep
  have := ((replaces_iff hr).mp (Bool.not_eq_false _ ▸ hrep)).2.2
  omega

/-- The run in which the misleading entry is made active. -/
lemma holds_register_misled {v : Vars} {s : Watch} (hr : s.fw.reading = some r)
    (hrel : Relabelled sel s.fw) (hw : Writable v) :
    Script.Holds (commands Friendly) (register sel) v s (fun _ _ s' => ∃ r',
      s'.fw.reading = some r' ∧ ¬ Quiet sel r')
      (fun _ _ _ => False) := by
  obtain ⟨m, hm, hinactive, hothers, hids, hmis⟩ := hrel
  obtain ⟨hid, hnotActive, hnotRep⟩ := found_misled hr hm hinactive hothers
  have hmem : m.id ∈ s.fw.ids := List.mem_map_of_mem (List.mem_of_mem_filter hm)
  have hle2 : rankOf sel m.label ≤ 2 := by
    unfold Misled at hmis
    omega
  refine Script.Holds.seq (holds_reread (fun text ht r₀ hread => ?_) fun text ht hnone => ?_)
  swap
  · rw [bind_readEntries ht.1, hr] at hnone
    cases hnone
  obtain rfl : r₀ = r := Option.some.inj ((reading_of_printed ht.1.1 hread).symm.trans hr)
  refine holds_registerSelected (isFound_findEntry hr).managed_isSome (fun _ ha _ => ?_)
    (fun v' old hc _ => ?_) fun hrep => ?_
  · rw [show (findEntry sel r₀).active = true from ha] at hnotActive
    cases hnotActive
  swap
  · rw [show replaces sel r₀ (findEntry sel r₀) = true from hrep] at hnotRep
    cases hnotRep
  have hrepCases : replaces sel r₀ (findEntry sel r₀) = true → False := fun h => by
    rw [h] at hnotRep
    cases hnotRep
  cases hc with
  | other hrep => exact (hrepCases hrep).elim
  | self hrep => exact (hrepCases hrep).elim
  | keep _ =>
    show Script.Holds (commands Friendly)
      (registerAs sel (typesOf r₀.entries) r₀.order none (listed r₀.order (findEntry sel r₀).id)) _
        _ _ _
    rw [hid]
    generalize hdesired : desiredOrder (typesOf r₀.entries) r₀.order m.id none
      (listed r₀.order (some m.id)) = desired
    have hin : m.id ∈ desired :=
      hdesired ▸ mem_desiredOrder (Option.some_ne_none m.id).symm listed_some.mp
    have horder : ∀ j, j ≠ m.id → (j ∈ desired ↔ j ∈ s.fw.order.getD []) := by
      intro j hj
      rw [← hdesired, ← reading_order hr]
      cases listed r₀.order (some m.id) with
      | true => rfl
      | false => exact (mem_insertNew _ m.id r₀.order).2 j hj
    have hsame : m.id ∈ r₀.order → r₀.order = desired := fun h => by
      rw [← hdesired, listed_some.mpr h]
      rfl
    refine Script.Holds.bind
      (Q := fun _ v₁ s₁ => v₁ = { v with reading := r₀, found := findEntry sel r₀ } ∧ s₁.fw = s.fw)
      (holds_writeReady (fun _ => ⟨rfl, rfl⟩) (fun _ h => h.2.1 rfl) fun h1 h2 => ?_) ?_
    · rcases hw with h | h
      · rw [show v.ownVars = false from h1] at h
        cases h
      · rw [show mountedRw v.varsOptions = false from h2] at h
        cases h
    rintro ⟨⟩ v₁ s₁ ⟨rfl, hfw⟩
    have hsome : ({ v with reading := r₀, found := findEntry sel r₀ } : Vars).found.id ≠ none := by
      rw [show ({ v with reading := r₀, found := findEntry sel r₀ } : Vars).found.id =
        some m.id from hid]
      exact Option.some_ne_none m.id
    have hgetD : (findEntry sel r₀).id.getD [] = m.id := by rw [hid, Option.getD_some]
    refine Script.Holds.seq (holds_ensure (fun _ => ?_) (fun h => absurd h hsome)
      fun h => absurd h hsome)
    refine Script.Holds.seq (holds_activate (fun h => ?_) (fun _ _ => ?_) fun _ hR => ?_)
    · rw [show (findEntry sel r₀).active = true from h] at hnotActive
      cases hnotActive
    swap
    · refine hR.2.2.1 m.id (hfw ▸ hmem) ?_
      show (⟨.activate ((findEntry sel r₀).id.getD []), false⟩ : Sigma Answer) = _
      rw [hgetD]
    refine Script.Holds.seq (Script.holds_vars ?_)
    show Script.Holds _
      (writeOrder (desiredOrder (typesOf r₀.entries) r₀.order ((findEntry sel r₀).id.getD []) none
      (listed r₀.order (some m.id))) >>= _) _
        { s₁ with fw := s₁.fw.activate ((findEntry sel r₀).id.getD []) } _ _
    rw [hgetD, hdesired, hfw]
    have hdesiredIds : r₀.order ≠ desired → ∀ j ∈ desired, j ∈ s.fw.ids := by
      intro hne j hj
      by_cases hjm : j = m.id
      · rwa [hjm]
      · exact hids.resolve_left (fun h => hne (hsame (reading_order hr ▸ h))) j
          ((horder j hjm).mp hj)
    have hwords : desired.filter isId = desired := by
      rw [List.filter_eq_self]
      intro j hj
      by_cases hjm : j = m.id
      · rw [hjm]
        exact m.id_ok
      · exact s.fw.order_ok j ((horder j hjm).mp hj)
    refine Script.Holds.bind (Q := fun _ _ s₂ => s₂.fw.entries = (s.fw.activate m.id).entries ∧
      s₂.fw.order.getD [] = desired)
      (holds_writeOrder (fun heq => ⟨rfl, (reading_order hr).symm.trans heq⟩) (fun _ => trivial)
        (fun _ _ => ⟨rfl, hwords⟩)
        fun hne hR => ?_) ?_
    · refine hR.2.2.2 desired (fun j hj => ?_) rfl
      rw [ids_activate]
      exact hdesiredIds hne j hj
    rintro ⟨⟩ v₂ s₂ ⟨hentries, hdes⟩
    obtain ⟨r', hr'⟩ := reading_activate m.id hr hentries
    refine Script.Holds.seq (holds_reread (fun text ht r₁ hread => ?_) fun text ht hnone => ?_)
    swap
    · rw [bind_readEntries ht.1, hr'] at hnone
      cases hnone
    obtain rfl : r₁ = r' := Option.some.inj ((reading_of_printed ht.1.1 hread).symm.trans hr')
    refine Script.Holds.seq (holds_find ?_)
    refine Script.Holds.seq (Script.holds_vars ?_)
    have horder₁ : r₁.order = desired := (reading_order hr').trans hdes
    have hm' : m.activated m.id ∈ s₂.fw.matching sel := by
      rw [matching_of_entries hentries, matching_activate]
      exact List.mem_map_of_mem hm
    obtain ⟨i', hi'⟩ :=
      Option.isSome_iff_exists.mp ((isFound_findEntry hr').isSome (List.ne_nil_of_mem hm'))
    obtain ⟨e', he', -, ha', -⟩ := exists_found hr' hi'
    have hactive' : (findEntry sel r₁).active = true := by
      rw [matching_of_entries hentries, matching_activate] at he'
      obtain ⟨e₀, he₀, rfl⟩ := List.mem_map.mp he'
      rw [← ha']
      by_cases hem : e₀.id = m.id
      · unfold BootEntry.activated
        rw [if_pos hem]
      · rw [activated_other hem]
        exact active_of_rank (hothers e₀ he₀ fun h => hem (h ▸ rfl))
    refine Script.Holds.seq (holds_require (fun _ => Script.holds_pure ⟨r₁, hr', ?_⟩)
      fun hfalse => ?_)
    · rw [quiet_activated_iff hm hinactive hothers hle2 hentries hr' (horder₁ ▸ hin)
        fun j hj => horder₁ ▸ horder j hj]
      exact not_not.mpr hmis
    · dsimp only at hfalse
      rw [hi', hactive', horder₁] at hfalse
      simp at hfalse

variable (sel) in
/-- **Idempotence**: after a run of the registration that ends well, whatever the commands have
answered, a second one ends well and writes nothing. -/
def Again (fw : Firmware) (v : Vars) : Prop :=
  ∀ (τ : List (Sigma Answer)) (v' : Vars), (register sel v).Runs τ (some (.ok (), v')) →
    (commands Documented).Along (commands Documented).rely ⟨fw, v.reading, false⟩ τ →
      Settled sel ((commands Documented).after ⟨fw, v.reading, false⟩ τ).fw

/-- A misleading entry, and there is a run after which a second one does not end well without a
write. -/
lemma not_again {fw : Firmware} {v : Vars} (hw : Writable v) (hsome : fw.reading.isSome = true)
    (hrel : Relabelled sel fw) :
    ¬ Again sel fw v := by
  intro h
  obtain ⟨r, hr⟩ := Option.isSome_iff_exists.mp hsome
  obtain ⟨τ, res, hruns, halong⟩ :=
    (@ends_register sel v).exists_runs exists_friendly ⟨fw, v.reading, false⟩
  have hpost :=
    (Contract.Safe.along (holds_register_misled (s := ⟨fw, v.reading, false⟩) hr hrel hw) hruns
      halong).2 res rfl
  obtain ⟨result | ⟨⟩, v'⟩ := res
  · exact hpost
  · have hdoc : (commands Documented).Along (commands Documented).rely ⟨fw, v.reading, false⟩ τ :=
      along_commands (P := Friendly) halong fun s a _ hf => hf.1.1
    obtain ⟨r', hr', hq⟩ := settled_iff.mp (h τ v' hruns hdoc)
    obtain ⟨r'', hr'', hnq⟩ := hpost
    have heq : r' = r'' := Option.some.inj (hr'.symm.trans hr'')
    exact hnq (heq ▸ hq)

/-- **When the registration is idempotent**: unless the variables can be written and read and the
entry that is made active has a label that misleads. -/
theorem again_iff (sel : Selection) (fw : Firmware) (v : Vars) :
    Again sel fw v ↔ ¬ (Writable v ∧ fw.reading.isSome = true ∧ Relabelled sel fw) := by
  constructor
  · rintro h ⟨hw, hsome, hrel⟩
    exact not_again hw hsome hrel h
  · intro hnot τ v' hruns hdoc
    obtain ⟨r', hr', hq | ⟨hsome, hrel, hw⟩⟩ :=
      (Contract.Safe.along (@endsWith_register sel v _) hruns hdoc).2 _ rfl
    · exact settled_iff.mpr ⟨r', hr', hq⟩
    · exact absurd ⟨hw, hsome, hrel⟩ hnot

/-- The entry of the loader, with the managed label, is inactive. -/
def hidden : Firmware where
  header := []
  order := some ["0001".toList]
  entries :=
    [⟨"0001".toList, false, managedLabel, "HD(1,GPT,AA,0x800,0x800)/\\x.efi".toList,
      by decide +kernel, by decide +kernel,
    loaderPath_ok⟩]
  header_ok := header_nil
  order_ok := by decide +kernel
  ids_nodup := by decide +kernel

def debianLoader : Selection :=
  { linuxLoader with
    label := "Debian".toList
    label_ok := by decide +kernel }

/-- The first run makes the entry active, and the second one replaces it. -/
theorem not_again_hidden : ¬ ∀ (sel : Selection) (fw : Firmware) (v : Vars), Again sel fw v := by
  intro hall
  refine @not_again debianLoader hidden ⟨⟨[], [], []⟩, Found.none, true, [], []⟩ (.inl rfl)
    (by decide +kernel) ?_ (hall _ _ _)
  refine ⟨_, List.mem_filter.mpr ⟨List.mem_cons_self, by decide +kernel⟩, rfl, ?_,
    .inl (by decide +kernel), .inl ⟨by decide +kernel, .inl ?_⟩⟩
  · intro e he hne
    exact absurd (List.mem_singleton.mp (List.mem_of_mem_filter he)) hne
  · decide +kernel

end Second

end Pxeos.Uefi
