import Mathlib.Data.List.Nodup
import Pxeos.Restore.MetadataRun

/-!
# What the parser has counted

The variables at the end, by the events of the text, and the events of a text, by its blocks.
-/

namespace Pxeos.Restore

open Pxeos.Lib

/-! ### The kinds of events -/

def tops (es : List Event) : List Str := es.filterMap fun
  | .top name => some name
  | _ => none

def rootIds (es : List Event) : List Str := es.filterMap fun
  | .rootId value => some value
  | _ => none

def entries (kind : Section) (es : List Event) : List Str := es.filterMap fun
  | .entry kind' name => if kind' = kind then some name else none
  | _ => none

def ownIds (kind : Section) (es : List Event) : List (Str × Str) := es.filterMap fun
  | .ownId kind' name value => if kind' = kind then some (name, value) else none
  | _ => none

/-- What the rules accept. -/
structure Fine (want : Wanted) (es : List Event) : Prop where
  noStray : .stray ∉ es
  root : (rootIds es).length ≤ 1
  pv : (ownIds .pv es).length ≤ 1
  pvName : ∀ p ∈ ownIds .pv es, isPvName p.1 = true
  lvEntry : ∀ name ∈ entries .lv es, want.seenName name = true
  lvWanted : ∀ p ∈ ownIds .lv es, p.1 ≠ [] ∧ p.2 = want.uuid p.1
  lvNames : ((ownIds .lv es).map (·.1)).Nodup
  lvUuids : ((ownIds .lv es).map (·.2)).Nodup

/-- The variables behind some events. -/
structure Counted (want : Wanted) (es : List Event) (t : Tally) : Prop where
  topCount : t.topCount = (tops es).length
  topName : t.topName = (tops es).getLast?
  pvCount : t.pvCount = (entries .pv es).length
  lvCount : t.lvCount = (entries .lv es).length
  seenRootId : t.seenRootId = decide (rootIds es ≠ [])
  rootId : t.rootId = (rootIds es).getLast?
  seenPvId : t.seenPvId = decide (ownIds .pv es ≠ [])
  pvId : t.pvId = ((ownIds .pv es).map (·.2)).getLast?
  bad : t.bad = false ↔ Fine want es
  lv : t.bad = false → t.seenLv = ((ownIds .lv es).map (·.1)).reverse ∧
    t.seenLvId = ((ownIds .lv es).map (·.2)).reverse ∧
    t.foundLv = (ownIds .lv es).length

section Count

variable {want : Wanted}

lemma counted_nil : Counted want [] {} := by
  refine ⟨rfl, rfl, rfl, rfl, rfl, rfl, rfl, rfl, iff_of_true rfl ?_, fun _ => ⟨rfl, rfl, rfl⟩⟩
  exact ⟨by simp, by simp [rootIds], by simp [ownIds], by simp [ownIds], by simp [entries],
    by simp [ownIds], by simp [ownIds],
    by simp [ownIds]⟩

/-- What may come behind some events. -/
def Admits (want : Wanted) (es : List Event) : Event → Prop
  | .top _ => True
  | .rootId _ => rootIds es = []
  | .entry .pv _ => True
  | .entry .lv name => want.seenName name = true
  | .ownId .pv name _ => ownIds .pv es = [] ∧ isPvName name = true
  | .ownId .lv name value =>
    (name ≠ [] ∧ value = want.uuid name) ∧ name ∉ (ownIds .lv es).map (·.1) ∧
      value ∉ (ownIds .lv es).map (·.2)
  | .stray => False

lemma tops_append (xs ys : List Event) : tops (xs ++ ys) = tops xs ++ tops ys :=
  List.filterMap_append
lemma rootIds_append (xs ys : List Event) : rootIds (xs ++ ys) = rootIds xs ++ rootIds ys :=
  List.filterMap_append
lemma entries_append (kind : Section) (xs ys : List Event) :
    entries kind (xs ++ ys) = entries kind xs ++ entries kind ys :=
  List.filterMap_append
lemma ownIds_append (kind : Section) (xs ys : List Event) :
    ownIds kind (xs ++ ys) = ownIds kind xs ++ ownIds kind ys :=
  List.filterMap_append

lemma fine_iff {es : List Event} : Fine want es ↔
    .stray ∉ es ∧ (rootIds es).length ≤ 1 ∧ (ownIds .pv es).length ≤ 1 ∧
    (∀ p ∈ ownIds .pv es, isPvName p.1 = true) ∧
      (∀ name ∈ entries .lv es, want.seenName name = true) ∧
      (∀ p ∈ ownIds .lv es, p.1 ≠ [] ∧ p.2 = want.uuid p.1) ∧
      ((ownIds .lv es).map (·.1)).Nodup ∧ ((ownIds .lv es).map (·.2)).Nodup :=
  ⟨fun ⟨h1, h2, h3, h4, h5, h6, h7, h8⟩ => ⟨h1, h2, h3, h4, h5, h6, h7, h8⟩,
    fun ⟨h1, h2, h3, h4, h5, h6, h7, h8⟩ => ⟨h1, h2, h3, h4, h5, h6, h7, h8⟩⟩

lemma fine_concat {es : List Event} {e : Event} :
    Fine want (es ++ [e]) ↔ Fine want es ∧ Admits want es e := by
  rw [fine_iff, fine_iff, rootIds_append, ownIds_append, ownIds_append, entries_append]
  cases e with
  | top name =>
    rw [show rootIds [.top name] = [] from rfl, show ownIds .pv [.top name] = [] from rfl,
      show ownIds .lv [.top name] = [] from rfl,
      show entries .lv [.top name] = [] from rfl]
    simp [Admits]
  | rootId value =>
    rw [show rootIds [.rootId value] = [value] from rfl,
      show ownIds .pv [.rootId value] = [] from rfl,
      show ownIds .lv [.rootId value] = [] from rfl, show entries .lv [.rootId value] = [] from rfl]
    have hone : (rootIds es ++ [value]).length ≤ 1 ↔ (rootIds es).length ≤ 1 ∧ rootIds es = [] := by
      rw [List.length_append, List.length_singleton, ← List.length_eq_zero_iff]
      omega
    have hstray : Event.stray ∉ es ++ [.rootId value] ↔ Event.stray ∉ es := by simp
    rw [hone, hstray, List.append_nil, List.append_nil, List.append_nil]
    show _ ↔ _ ∧ rootIds es = []
    tauto
  | entry kind name =>
    have hstray : Event.stray ∉ es ++ [.entry kind name] ↔ Event.stray ∉ es := by simp
    rw [show rootIds [.entry kind name] = [] from rfl,
      show ownIds .pv [.entry kind name] = [] from rfl,
      show ownIds .lv [.entry kind name] = [] from rfl, hstray]
    cases kind with
    | pv =>
      rw [show entries .lv [.entry .pv name] = [] from rfl]
      simp [Admits]
    | lv =>
      have hall : (∀ n ∈ entries .lv es ++ [name], want.seenName n = true) ↔
          (∀ n ∈ entries .lv es, want.seenName n = true) ∧ want.seenName name = true := by
        rw [List.forall_mem_append, List.forall_mem_singleton]
      rw [show entries .lv [.entry .lv name] = [name] from rfl, hall, List.append_nil,
        List.append_nil, List.append_nil]
      show _ ↔ _ ∧ want.seenName name = true
      tauto
  | ownId kind name value =>
    have hstray : Event.stray ∉ es ++ [.ownId kind name value] ↔ Event.stray ∉ es := by simp
    rw [show rootIds [.ownId kind name value] = [] from rfl,
      show entries .lv [.ownId kind name value] = [] from rfl, hstray,
      List.append_nil, List.append_nil]
    cases kind with
    | pv =>
      have hone : (ownIds .pv es ++ [(name, value)]).length ≤ 1 ↔ (ownIds .pv es).length ≤ 1 ∧
          ownIds .pv es = [] := by
        rw [List.length_append, List.length_singleton, ← List.length_eq_zero_iff]
        omega
      rw [show ownIds .pv [.ownId .pv name value] = [(name, value)] from rfl,
        show ownIds .lv [.ownId .pv name value] = [] from rfl,
        hone, List.append_nil, List.forall_mem_append, List.forall_mem_singleton]
      show _ ↔ _ ∧ ownIds .pv es = [] ∧ isPvName name = true
      tauto
    | lv =>
      have hnodup : ∀ (xs : List Str) (x : Str), (xs ++ [x]).Nodup ↔ xs.Nodup ∧ x ∉ xs := by
        intro xs x
        rw [← List.concat_eq_append, List.nodup_concat]
        exact and_comm
      rw [show ownIds .pv [.ownId .lv name value] = [] from rfl,
        show ownIds .lv [.ownId .lv name value] = [(name, value)] from rfl,
        List.append_nil, List.map_append, List.map_append, List.map_singleton, List.map_singleton,
          hnodup, hnodup,
        List.forall_mem_append, List.forall_mem_singleton]
      show _ ↔ _ ∧ (name ≠ [] ∧ value = want.uuid name) ∧ _
      tauto
  | stray => simp [Admits]

/-! ### One event -/

section One

variable (want) (t : Tally) (e : Event)

lemma count_topCount : (t.count want e).topCount = t.topCount + (tops [e]).length := by
  unfold Tally.count
  split <;> first | rfl | (split_ifs <;> rfl)

lemma count_topName : (t.count want e).topName = (tops [e]).getLast?.or t.topName := by
  unfold Tally.count
  split <;> first | rfl | (split_ifs <;> rfl)

lemma count_pvCount : (t.count want e).pvCount = t.pvCount + (entries .pv [e]).length := by
  unfold Tally.count
  split <;> first | rfl | (split_ifs <;> rfl)

lemma count_lvCount : (t.count want e).lvCount = t.lvCount + (entries .lv [e]).length := by
  unfold Tally.count
  split <;> first | rfl | (split_ifs <;> rfl)

lemma count_seenRootId :
    (t.count want e).seenRootId = (t.seenRootId || decide (rootIds [e] ≠ [])) := by
  unfold Tally.count
  split <;> first | exact (Bool.or_false _).symm | exact (Bool.or_true _).symm | (split_ifs <;> exact (Bool.or_false _).symm)

lemma count_rootId : (t.count want e).rootId = (rootIds [e]).getLast?.or t.rootId := by
  unfold Tally.count
  split <;> first | rfl | (split_ifs <;> rfl)

lemma count_seenPvId :
    (t.count want e).seenPvId = (t.seenPvId || decide (ownIds .pv [e] ≠ [])) := by
  unfold Tally.count
  split <;> first | exact (Bool.or_false _).symm | exact (Bool.or_true _).symm | (split_ifs <;> exact (Bool.or_false _).symm)

lemma count_pvId : (t.count want e).pvId = ((ownIds .pv [e]).map (·.2)).getLast?.or t.pvId := by
  unfold Tally.count
  split <;> first | rfl | (split_ifs <;> rfl)

end One

variable {es : List Event} {t : Tally}

lemma Counted.bad_concat (h : Counted want es t) (e : Event) :
    (t.count want e).bad = false ↔ t.bad = false ∧ Admits want es e := by
  cases e with
  | top name => simp [Tally.count, Admits]
  | rootId value => simp [Tally.count, Admits, h.seenRootId]
  | entry kind name => cases kind <;> simp [Tally.count, Admits]
  | ownId kind name value =>
    cases kind with
    | pv => simp [Tally.count, Admits, h.seenPvId, and_assoc]
    | lv =>
      -- once something is bad, it stays so; until then the lists are those of the events
      have hlists : t.bad = false → (name ∈ t.seenLv ↔ name ∈ (ownIds .lv es).map (·.1)) ∧
          (value ∈ t.seenLvId ↔ value ∈ (ownIds .lv es).map (·.2)) := by
        intro hbad
        obtain ⟨hnames, hvalues, -⟩ := h.lv hbad
        rw [hnames, hvalues, List.mem_reverse, List.mem_reverse]
        exact ⟨Iff.rfl, Iff.rfl⟩
      by_cases hbad : t.bad = false
      · obtain ⟨hname, hvalue⟩ := hlists hbad
        simp only [Tally.count, Admits, ← hname, ← hvalue]
        split_ifs with h1 h2 h3
        · exact iff_of_false (by simp) fun h => h1.elim h.2.1.1 fun hne => hne h.2.1.2
        · exact iff_of_false (by simp) fun h => h.2.2.1 h2
        · exact iff_of_false (by simp) fun h => h.2.2.2 h3
        · push Not at h1
          exact iff_of_true hbad ⟨hbad, h1, h2, h3⟩
      · refine iff_of_false ?_ fun hc => hbad hc.1
        simp only [Tally.count]
        split_ifs <;> simp_all
  | stray => simp [Tally.count, Admits]

/-- Only the `id` of a volume is remembered with those before it. -/
lemma Counted.lv_concat (h : Counted want es t) (e : Event) (hbad : (t.count want e).bad = false) :
    (t.count want e).seenLv = ((ownIds .lv (es ++ [e])).map (·.1)).reverse ∧
      (t.count want e).seenLvId = ((ownIds .lv (es ++ [e])).map (·.2)).reverse ∧
      (t.count want e).foundLv = (ownIds .lv (es ++ [e])).length := by
  have ht : t.bad = false := (h.bad_concat e |>.mp hbad).1
  obtain ⟨hnames, hvalues, hfound⟩ := h.lv ht
  have hsame : (t.count want e).seenLv = t.seenLv → (t.count want e).seenLvId = t.seenLvId →
      (t.count want e).foundLv = t.foundLv →
      ownIds .lv [e] = [] → (t.count want e).seenLv = ((ownIds .lv (es ++ [e])).map (·.1)).reverse ∧
        (t.count want e).seenLvId = ((ownIds .lv (es ++ [e])).map (·.2)).reverse ∧
        (t.count want e).foundLv = (ownIds .lv (es ++ [e])).length := by
    intro h1 h2 h3 hnil
    rw [h1, h2, h3, ownIds_append, hnil, List.append_nil]
    exact ⟨hnames, hvalues, hfound⟩
  cases e with
  | top name => exact hsame rfl rfl rfl rfl
  | rootId value => exact hsame rfl rfl rfl rfl
  | entry kind name => cases kind <;> exact hsame rfl rfl rfl rfl
  | ownId kind name value =>
    cases kind with
    | pv => exact hsame rfl rfl rfl rfl
    | lv =>
      have hids : ownIds .lv (es ++ [.ownId .lv name value]) = ownIds .lv es ++ [(name, value)] :=
        ownIds_append _ _ _
      rw [hids]
      simp only [Tally.count] at hbad ⊢
      split_ifs at hbad ⊢ with h1 h2 h3
      simp [hnames, hvalues, hfound]
  | stray => exact hsame rfl rfl rfl rfl

lemma counted_concat (h : Counted want es t) (e : Event) :
    Counted want (es ++ [e]) (t.count want e) := by
  refine ⟨?_, ?_, ?_, ?_, ?_, ?_, ?_, ?_, ?_, ?_⟩
  · rw [count_topCount, h.topCount, tops_append, List.length_append]
  · rw [count_topName, h.topName, tops_append, List.getLast?_append]
  · rw [count_pvCount, h.pvCount, entries_append, List.length_append]
  · rw [count_lvCount, h.lvCount, entries_append, List.length_append]
  · rw [count_seenRootId, h.seenRootId, rootIds_append]
    simp [List.append_eq_nil_iff, imp_iff_not_or]
  · rw [count_rootId, h.rootId, rootIds_append, List.getLast?_append]
  · rw [count_seenPvId, h.seenPvId, ownIds_append]
    simp [List.append_eq_nil_iff, imp_iff_not_or]
  · rw [count_pvId, h.pvId, ownIds_append, List.map_append, List.getLast?_append]
  · rw [h.bad_concat, h.bad, fine_concat]
  · exact h.lv_concat e

lemma counted (es : List Event) : Counted want es (es.foldl (Tally.count want) {}) := by
  induction es using List.reverseRecOn with
  | nil => exact counted_nil
  | append_singleton es e ih =>
    rw [List.foldl_append]
    exact counted_concat ih e

end Count

/-! ### The events of a text -/

section Outline

lemma mem_strays {e : Event} {f : Outline} (h : e ∈ strays f) : e = .stray := by
  obtain ⟨-, -, rfl⟩ := List.mem_map.mp h
  rfl

lemma stray_mem_strays (f : Outline) : .stray ∈ strays f ↔ Outline.allIds f ≠ [] := by
  unfold strays
  cases Outline.allIds f <;> simp

lemma filterMap_strays {γ : Type} {p : Event → Option γ} (hp : p .stray = none) (f : Outline) :
    (strays f).filterMap p = [] := by
  rw [List.filterMap_eq_nil_iff]
  intro e he
  rw [mem_strays he, hp]

lemma filterMap_toList {γ : Type} {p : Event → Option γ} {q : Str → Event} (h : ∀ v, p (q v) = none)
    (v : Option Str) :
    (v.toList.map q).filterMap p = [] := by
  cases v with
  | none => rfl
  | some v =>
    show [q v].filterMap p = []
    rw [List.filterMap_cons_none (h v)]
    rfl

variable (kind : Section) (name : Str) (f : Outline)

lemma ids_eq : Outline.ids f = f.leaves.flatMap Option.toList := by
  unfold Outline.ids
  exact List.filterMap_eq_flatMap_toList _ _

lemma ids_eq_nil : Outline.ids f = [] ↔ ∀ v ∈ f.leaves, v = none := by
  rw [ids_eq, List.flatMap_eq_nil_iff]
  refine forall₂_congr fun v _ => ?_
  cases v <;> simp

/-! ### An entry -/

lemma entryEvents_none {γ : Type} {p : Event → Option γ} (hstray : p .stray = none)
    (hown : ∀ value, p (.ownId kind name value) = none) :
    (entryEvents kind name f).filterMap p = [] := by
  unfold entryEvents
  rw [Forest.filterMap_collect_leaves fun b _ => filterMap_strays hstray b.2]
  exact List.flatMap_eq_nil_iff.mpr fun v _ => filterMap_toList hown v

lemma ownIds_entryEvents :
    ownIds kind (entryEvents kind name f) = (Outline.ids f).map (name, ·) := by
  unfold ownIds entryEvents
  rw [Forest.filterMap_collect_leaves fun b _ => filterMap_strays rfl b.2, ids_eq, List.map_flatMap]
  refine List.flatMap_congr fun v _ => ?_
  cases v <;> simp

lemma stray_mem_entryEvents :
    .stray ∈ entryEvents kind name f ↔ ∃ b ∈ f.blocks, Outline.allIds b.2 ≠ [] := by
  unfold entryEvents
  rw [Forest.mem_collect]
  simp only [stray_mem_strays]
  refine or_iff_right ?_
  rintro ⟨v, -, hv⟩
  obtain ⟨w, -, hw⟩ := List.mem_map.mp hv
  cases hw

/-! ### A section -/

lemma sectionEvents_none {γ : Type} {p : Event → Option γ} (hstray : p .stray = none)
    (hentry : ∀ name, p (.entry kind name) = none)
    (hown : ∀ name value, p (.ownId kind name value) = none) :
    (sectionEvents kind f).filterMap p = [] := by
  unfold sectionEvents
  rw [Forest.filterMap_collect_blocks fun v _ => filterMap_toList (fun _ => hstray) v]
  refine List.flatMap_eq_nil_iff.mpr fun b _ => ?_
  rw [List.filterMap_cons_none (hentry b.1)]
  exact entryEvents_none kind b.1 b.2 hstray (hown b.1)

lemma entries_sectionEvents : entries kind (sectionEvents kind f) = f.blocks.map (·.1) := by
  unfold entries sectionEvents
  rw [Forest.filterMap_collect_blocks fun v _ => filterMap_toList (fun _ => rfl) v,
    List.map_eq_flatMap]
  refine List.flatMap_congr fun b _ => ?_
  rw [List.filterMap_cons_some (b := b.1) (by simp), entryEvents_none kind b.1 b.2 rfl fun _ => rfl]

lemma ownIds_sectionEvents :
    ownIds kind (sectionEvents kind f) = f.blocks.flatMap fun b =>
      (Outline.ids b.2).map (b.1, ·) := by
  unfold ownIds sectionEvents
  rw [Forest.filterMap_collect_blocks fun v _ => filterMap_toList (fun _ => rfl) v]
  refine List.flatMap_congr fun b _ => ?_
  rw [List.filterMap_cons_none rfl]
  exact ownIds_entryEvents kind b.1 b.2

/-- The places of a section where no `id` may stand. -/
def CleanSection (f : Outline) : Prop :=
  Outline.ids f = [] ∧ ∀ entry ∈ f.blocks, ∀ b ∈ entry.2.blocks, Outline.allIds b.2 = []

lemma stray_notMem_sectionEvents : .stray ∉ sectionEvents kind f ↔ CleanSection f := by
  unfold sectionEvents CleanSection
  rw [Forest.mem_collect, not_or, ids_eq_nil]
  refine and_congr ?_ ?_
  · constructor
    · intro h v hv
      cases v with
      | none => rfl
      | some w => exact absurd ⟨some w, hv, List.mem_singleton_self _⟩ h
    · rintro h ⟨v, hv, hmem⟩
      rw [h v hv] at hmem
      cases hmem
  · simp only [List.mem_cons, reduceCtorEq, false_or, stray_mem_entryEvents]
    push Not
    rfl

/-! ### The block of the group -/

/-- The entries of the sections of a kind. -/
def members (kind : Section) (f : Outline) : List (Str × Outline) :=
  (f.blocks.filter fun b => sectionOf b.1 = some kind).flatMap fun b => b.2.blocks

lemma flatMap_sections {γ : Type} (bs : List (Str × Outline)) {g : Str × Outline → List γ}
    {G : Str × Outline → List γ}
    (h : ∀ b ∈ bs, g b = if sectionOf b.1 = some kind then b.2.blocks.flatMap G else []) :
    bs.flatMap g =
      ((bs.filter fun b => sectionOf b.1 = some kind).flatMap fun b => b.2.blocks).flatMap G := by
  induction bs with
  | nil => rfl
  | cons b bs ih =>
    rw [List.flatMap_cons, ih fun b hb => h b (List.mem_cons_of_mem _ hb), h b List.mem_cons_self]
    by_cases hb : sectionOf b.1 = some kind
    · rw [if_pos hb, List.filter_cons_of_pos (by simpa using hb), List.flatMap_cons,
        List.flatMap_append]
    · rw [if_neg hb, List.filter_cons_of_neg (by simpa using hb), List.nil_append]

lemma rootIds_rootEvents : rootIds (rootEvents f) = Outline.ids f := by
  unfold rootIds rootEvents
  rw [Forest.filterMap_collect_leaves, ids_eq]
  · refine List.flatMap_congr fun v _ => ?_
    cases v <;> simp
  · intro b _
    split
    · exact sectionEvents_none _ _ rfl (fun _ => rfl) fun _ _ => rfl
    · exact filterMap_strays rfl _

lemma tops_rootEvents : tops (rootEvents f) = [] := by
  unfold tops rootEvents
  rw [Forest.filterMap_collect_blocks fun v _ => filterMap_toList (fun _ => rfl) v]
  refine List.flatMap_eq_nil_iff.mpr fun b _ => ?_
  split
  · exact sectionEvents_none _ _ rfl (fun _ => rfl) fun _ _ => rfl
  · exact filterMap_strays rfl _

/-- The events of a block in the block of the group. -/
def blockEvents (b : Str × Outline) : List Event :=
  match sectionOf b.1 with
  | some kind => sectionEvents kind b.2
  | none => strays b.2

lemma entries_rootEvents : entries kind (rootEvents f) = (members kind f).map (·.1) := by
  have hother : ∀ kind' b, kind' ≠ kind → entries kind (sectionEvents kind' b) = [] :=
    fun kind' b hne =>
    sectionEvents_none kind' b rfl (fun _ => if_neg hne) fun _ _ => rfl
  rw [List.map_eq_flatMap]
  unfold members
  rw [← flatMap_sections kind f.blocks (g := fun b => entries kind (blockEvents b))]
  · unfold entries rootEvents
    exact Forest.filterMap_collect_blocks fun v _ => filterMap_toList (fun _ => rfl) v
  · intro b _
    unfold blockEvents
    cases hb : sectionOf b.1 with
    | none => exact filterMap_strays rfl _
    | some kind' =>
      by_cases hkind : kind' = kind
      · rw [hkind, if_pos rfl, ← List.map_eq_flatMap]
        exact entries_sectionEvents kind b.2
      · rw [if_neg fun h => hkind (Option.some.inj h)]
        exact hother kind' b.2 hkind

lemma ownIds_rootEvents :
    ownIds kind (rootEvents f) = (members kind f).flatMap fun b =>
      (Outline.ids b.2).map (b.1, ·) := by
  have hother : ∀ kind' b, kind' ≠ kind → ownIds kind (sectionEvents kind' b) = [] :=
    fun kind' b hne =>
    sectionEvents_none kind' b rfl (fun _ => rfl) fun _ _ => if_neg hne
  unfold members
  rw [← flatMap_sections kind f.blocks (g := fun b => ownIds kind (blockEvents b))]
  · unfold ownIds rootEvents
    exact Forest.filterMap_collect_blocks fun v _ => filterMap_toList (fun _ => rfl) v
  · intro b _
    unfold blockEvents
    cases hb : sectionOf b.1 with
    | none => exact filterMap_strays rfl _
    | some kind' =>
      by_cases hkind : kind' = kind
      · rw [hkind, if_pos rfl]
        exact ownIds_sectionEvents kind b.2
      · rw [if_neg fun h => hkind (Option.some.inj h)]
        exact hother kind' b.2 hkind

/-- The places in the block of the group where no `id` may stand. -/
def CleanRoot (f : Outline) : Prop := ∀ b ∈ f.blocks,
  match sectionOf b.1 with
  | some _ => CleanSection b.2
  | none => Outline.allIds b.2 = []

lemma stray_notMem_rootEvents : .stray ∉ rootEvents f ↔ CleanRoot f := by
  unfold rootEvents CleanRoot
  rw [Forest.mem_collect, not_or]
  have hleaves : ¬ ∃ v ∈ f.leaves, Event.stray ∈ (v.toList.map Event.rootId) := by
    rintro ⟨v, -, hv⟩
    obtain ⟨w, -, hw⟩ := List.mem_map.mp hv
    cases hw
  rw [and_iff_right hleaves]
  push Not
  refine forall₂_congr fun b _ => ?_
  cases sectionOf b.1 with
  | none =>
    show .stray ∉ strays b.2 ↔ _
    rw [stray_mem_strays, not_not]
  | some kind => exact stray_notMem_sectionEvents kind b.2

end Outline

end Pxeos.Restore
