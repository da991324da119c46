import Pxeos.Deploy.Allocation

/-!
# A run of the resolver, taken apart

`AdjustedRun` holds what a successful run of `resolveLayout` over an adjusted layout has computed on
the way and the checks it has passed; `resolveLayout_adjusted` builds it.  The leaves of the run are
the schema's partitions, each joined with exactly one layout entry.
-/

namespace Pxeos.Deploy

open Pxeos.Lib

/-! ### Sorted views of the schema -/

lemma mem_sortByNumber {parts : List SchemaPart} {p : SchemaPart} :
    p ∈ sortByNumber parts ↔ p ∈ parts :=
  (List.perm_insertionSort _ _).mem_iff

lemma mem_ofKind {s : Schema} {k : Kind} {p : SchemaPart} :
    p ∈ ofKind s k ↔ p ∈ s.partitions ∧ p.kind = some k := by
  simp [ofKind, List.mem_filter, mem_sortByNumber]

lemma startsBefore_total (a b : SchemaPart) : StartsBefore a b ∨ StartsBefore b a := by
  unfold StartsBefore
  omega

lemma startsBefore_trans {a b c : SchemaPart} (h1 : StartsBefore a b) (h2 : StartsBefore b c) :
    StartsBefore a c := by
  unfold StartsBefore at *
  omega

instance : Std.Total StartsBefore := ⟨startsBefore_total⟩

instance : IsTrans SchemaPart StartsBefore := ⟨fun _ _ _ => startsBefore_trans⟩

/-! ### The leaves -/

/-- What the container of an MBR schema has passed. -/
structure ContainerChecks (s : Schema) (x : SchemaPart) : Prop where
  only : ofKind s .extended = [x]
  logicals : ofKind s .logical ≠ []
  parents : ∀ p ∈ ofKind s .logical, p.parentNumber = some x.number
  apart : ∀ p ∈ ofKind s .primary, sourceOverlap p x = false

lemma workParts_container {s : Schema} {lp : List LayoutPart} {work : List SchemaPart}
    (hm : mbrExtended s = true) (h : workParts s lp = .ok work) :
    ∃ x, ContainerChecks s x ∧
      work = ((sortByNumber s.partitions).filter (·.kind != some .extended)).insertionSort
        StartsBefore := by
  simp only [workParts, hm, if_true, bind_eq_ok, exactlyOne_eq_ok, errorIf_eq_ok, pure_eq_ok] at h
  obtain ⟨x, hx, -, -, -, h1, -, h2, h3⟩ := h
  simp only [Bool.or_eq_false_iff, decide_eq_false_iff_not, List.any_eq_false, bne_iff_ne, not_not,
    List.length_eq_zero_iff] at h1
  exact ⟨x, ⟨hx, h1.1, h1.2, fun p hp => by simpa using List.any_eq_false.mp h2 p hp⟩, h3.symm⟩

lemma workParts_plain {s : Schema} {lp : List LayoutPart} {work : List SchemaPart}
    (hm : mbrExtended s = false) (h : workParts s lp = .ok work) :
    work = sortByNumber s.partitions := by
  unfold workParts at h
  rw [hm, if_neg (by simp), pure_eq_ok] at h
  exact h.symm

/-- The leaves of a schema whose container passes its checks. -/
lemma workParts_of_checks {s : Schema} {lp : List LayoutPart} {x : SchemaPart}
    (hm : mbrExtended s = true) (hx : ContainerChecks s x) (hderived : derivedEntry lp x = .ok ()) :
    workParts s lp =
      .ok (((sortByNumber s.partitions).filter (·.kind != some .extended)).insertionSort
        StartsBefore) := by
  unfold workParts
  rw [hm, if_pos rfl]
  simp only [bind_eq_ok, exactlyOne_eq_ok, errorIf_eq_ok, pure_eq_ok]
  refine ⟨x, hx.only, (), hderived, (), ?_, (), ?_, trivial⟩
  · simp only [Bool.or_eq_false_iff, decide_eq_false_iff_not, List.any_eq_false, bne_iff_ne,
      not_not, List.length_eq_zero_iff]
    exact ⟨hx.logicals, hx.parents⟩
  · rw [List.any_eq_false]
    exact fun q hq => by simp [hx.apart q hq]

/-- The leaves are the partitions that are not the container. -/
lemma mem_work {s : Schema} {lp : List LayoutPart} {work : List SchemaPart}
    (h : workParts s lp = .ok work) {p : SchemaPart} :
    p ∈ work ↔ p ∈ s.partitions ∧ (mbrExtended s = true → p.kind ≠ some .extended) := by
  cases hm : mbrExtended s with
  | false => simp [workParts_plain hm h, mem_sortByNumber]
  | true =>
    obtain ⟨x, -, rfl⟩ := workParts_container hm h
    rw [(List.perm_insertionSort _ _).mem_iff, List.mem_filter, mem_sortByNumber]
    simp

/-- The leaves and the container are the schema. -/
lemma workParts_perm {s : Schema} {lp : List LayoutPart} {work : List SchemaPart}
    (hm : mbrExtended s = true) (h : workParts s lp = .ok work) {x : SchemaPart}
    (hx : ofKind s .extended = [x]) : (work ++ [x]).Perm s.partitions := by
  obtain ⟨-, -, rfl⟩ := workParts_container hm h
  have h1 : (sortByNumber s.partitions).filter (fun p => !(p.kind != some .extended)) = [x] := by
    rw [← hx]
    exact List.filter_congr fun p _ => by simp [bne]
  have h2 := List.filter_append_perm (fun p : SchemaPart => p.kind != some .extended)
    (sortByNumber s.partitions)
  rw [h1] at h2
  exact (((List.perm_insertionSort _ _).append_right [x]).trans h2).trans
    (List.perm_insertionSort _ _)

/-! ### Joining the two documents -/

/-- A number that occurs once picks one entry. -/
lemma filter_number_length {lp : List LayoutPart} (hnd : (lp.map (·.number)).Nodup) {n : ℕ}
    (hn : n ∈ lp.map (·.number)) : (lp.filter (·.number == n)).length = 1 := by
  have h := List.count_eq_one_of_mem hnd hn
  rw [List.count_eq_countP, List.countP_map, List.countP_eq_length_filter] at h
  exact h

lemma joinLayout_fst {work : List SchemaPart} {lp : List LayoutPart}
    (hnd : (lp.map (·.number)).Nodup) (hn : ∀ p ∈ work, p.number ∈ lp.map (·.number)) :
    (joinLayout work lp).map Prod.fst = work := by
  unfold joinLayout
  induction work with
  | nil => rfl
  | cons p work ih =>
    have h1 := filter_number_length hnd (hn p (by simp))
    obtain ⟨o, ho⟩ := List.length_eq_one_iff.mp h1
    rw [List.flatMap_cons, List.map_append, ih (fun q hq => hn q (by simp [hq])), ho]
    rfl

/-- The item of an entry and the checks it has passed. -/
structure ItemChecks (s : Schema) (x : SchemaPart × LayoutPart) (it : Item) : Prop where
  eq : it = ⟨x.1, x.2, x.2.modeOrOriginal⟩
  mode : it.mode = .original ∨ it.mode = .fixed ∨ it.mode = .remaining
  fixed : it.mode = .fixed →
    (it.p.originalSectors : ℚ) * s.logicalSectorBytes ≤ it.o.fixedBytesOrZero

lemma mkItem_ok {s : Schema} {x : SchemaPart × LayoutPart} {it : Item} (h : mkItem s x = .ok it) :
    ItemChecks s x it := by
  obtain ⟨p, o⟩ := x
  simp only [mkItem, bind_eq_ok, errorIf_eq_ok, pure_eq_ok] at h
  obtain ⟨-, h1, -, -, -, -, -, -, -, -, -, h2, rfl⟩ := h
  rw [Bool.not_eq_false', decide_eq_true_eq] at h1
  refine ⟨rfl, by simpa using h1, fun hf => ?_⟩
  have hf : o.modeOrOriginal = .fixed := hf
  simpa [hf] using h2

lemma joined_items {s : Schema} {xs : List (SchemaPart × LayoutPart)} {items : List Item}
    (h : xs.mapM (mkItem s) = .ok items) :
    items.map (fun it => (it.p, it.o)) = xs ∧ ∀ it ∈ items, ItemChecks s (it.p, it.o) it := by
  have h2 := mapM_ok h
  clear h
  induction h2 with
  | nil => simp
  | @cons x it xs items hx _ ih =>
    have hx := mkItem_ok hx
    have hpo : (it.p, it.o) = x := by rw [hx.eq]
    refine ⟨by rw [List.map_cons, ih.1, hpo], fun it' hit' => ?_⟩
    rcases List.mem_cons.mp hit' with rfl | hit'
    · rw [hpo]; exact hx
    · exact ih.2 it' hit'

/-! ### The run -/

/-- Some partition other than the container has a mode of its own. -/
def Adjusts (s : Schema) (l : Layout) : Prop :=
  ∃ lp, l.partitions = some lp ∧ ∃ o ∈ lp, o.modeOrOriginal ≠ .original ∧
    ∀ p ∈ s.partitions, p.number = o.number → p.kind ≠ some .extended

/-- A successful run over an adjusted layout. -/
structure AdjustedRun (s : Schema) (l : Layout) (target : ℕ) (plan : List ResolvedPart) where
  lp : List LayoutPart
  work : List SchemaPart
  extended : Option (SchemaPart × ℕ)
  front : ℕ
  items : List Item
  available : ℤ
  layout_eq : l.partitions = some lp
  layout_nodup : (lp.map (·.number)).Nodup
  identity : (s.partitions.map (·.number)).Perm (lp.map (·.number))
  work_ok : workParts s lp = .ok work
  extended_ok : extendedWithEbr s = .ok extended
  front_ok : (s.partitions.map (·.startSectors)).min? = some front
  items_ok : (joinLayout work lp).mapM (mkItem s) = .ok items
  one_remaining : (items.filter (·.mode == .remaining)).length ≤ 1
  plan_ok : resolveAdjusted ⟨s.logicalSectorBytes, front, extended, items⟩ available
    ((target : ℤ) - backReserve s front) = .ok plan

lemma perm_of_sorted_eq {a b : List ℕ} (h : a.insertionSort (· ≤ ·) = b.insertionSort (· ≤ ·)) :
    a.Perm b :=
  ((List.perm_insertionSort _ a).symm.trans (List.Perm.of_eq h)).trans (List.perm_insertionSort _ b)

/-- Every partition is kept; the container, which the program derives, has no mode of its own. -/
def KeepsAll (s : Schema) (l : Layout) : Prop :=
  ∀ lp, l.partitions = some lp → ∀ o ∈ lp, o.modeOrOriginal = .original ∨
    (mbrExtended s = true ∧ ∃ p ∈ s.partitions, p.number = o.number ∧ p.kind = some .extended)

lemma Adjusts.not_keepsAll {s : Schema} {l : Layout} (h : Adjusts s l) : ¬ KeepsAll s l := by
  obtain ⟨lp, hlp, o, ho, hmode, hleaf⟩ := h
  intro hk
  rcases hk lp hlp o ho with h | ⟨-, p, hp, hn, hx⟩
  · exact hmode h
  · exact hleaf p hp hn hx

/-- The items of the leaves all have mode `original` exactly when every partition is kept. -/
lemma all_original_iff {s : Schema} {l : Layout} {lp : List LayoutPart} {work : List SchemaPart}
    {items : List Item} (hlp : l.partitions = some lp) (hnd : (lp.map (·.number)).Nodup)
    (hid : (s.partitions.map (·.number)).Perm (lp.map (·.number)))
    (hwork : workParts s lp = .ok work)
    (hitems : (joinLayout work lp).mapM (mkItem s) = .ok items) :
    items.all (·.mode == .original) = true ↔ KeepsAll s l := by
  obtain ⟨heq, hchk⟩ := joined_items hitems
  rw [List.all_eq_true]
  constructor
  · intro h lp' hlp' o ho
    rw [hlp, Option.some.injEq] at hlp'
    subst hlp'
    have hn : o.number ∈ s.partitions.map (·.number) := hid.mem_iff.mpr (List.mem_map_of_mem ho)
    obtain ⟨p, hp, hpn⟩ := List.mem_map.mp hn
    by_cases hx : mbrExtended s = true ∧ p.kind = some .extended
    · exact .inr ⟨hx.1, p, hp, hpn, hx.2⟩
    · have hpw : p ∈ work := (mem_work hwork).mpr ⟨hp, fun hm hk => hx ⟨hm, hk⟩⟩
      have hjoin : (p, o) ∈ joinLayout work lp := by
        refine List.mem_flatMap.mpr ⟨p, hpw, List.mem_map.mpr ⟨o, ?_, rfl⟩⟩
        rw [List.mem_filter]
        exact ⟨ho, by simp [hpn]⟩
      rw [← heq] at hjoin
      obtain ⟨it, hit, hitpo⟩ := List.mem_map.mp hjoin
      have hm := h it hit
      rw [(hchk it hit).eq, (Prod.mk.inj hitpo).2] at hm
      exact .inl (by simpa using hm)
  · intro h it hit
    have hjoin : (it.p, it.o) ∈ joinLayout work lp := by
      rw [← heq]
      exact List.mem_map_of_mem (f := fun it : Item => (it.p, it.o)) hit
    obtain ⟨p, hp, hpo⟩ := List.mem_flatMap.mp hjoin
    obtain ⟨o, ho, hpo⟩ := List.mem_map.mp hpo
    obtain ⟨rfl, rfl⟩ := Prod.mk.inj hpo
    obtain ⟨ho, hn⟩ := List.mem_filter.mp ho
    have hn : it.o.number = it.p.number := by simpa using hn
    rw [(hchk it hit).eq, beq_iff_eq]
    rcases h lp hlp it.o ho with hm | ⟨hm, q, hq, hqn, hqk⟩
    · exact hm
    · -- the container has a number of its own, so its entry joins no leaf
      obtain ⟨hps, hpx⟩ := (mem_work hwork).mp hp
      have hsnd : (s.partitions.map (·.number)).Nodup := hid.nodup_iff.mpr hnd
      have hqp : q = it.p := List.inj_on_of_nodup_map hsnd hq hps (hqn.trans hn)
      exact absurd (hqp ▸ hqk) (hpx hm)

/-- **A successful run, taken apart**: there is room between the two reserves, and the plan is the
captured table as it is or comes from an allocation. -/
theorem resolveLayout_cases {s : Schema} {l : Layout} {target : ℕ} {plan : List ResolvedPart}
    (h : resolveLayout s l target = .ok plan) :
    (∃ front, (s.partitions.map (·.startSectors)).min? = some front ∧
      front + backReserve s front < target) ∧
      ((KeepsAll s l ∧ resolveOriginal s target = .ok plan) ∨
        (¬ KeepsAll s l ∧ Nonempty (AdjustedRun s l target plan))) := by
  unfold resolveLayout at h
  cases hlp : l.partitions with
  | none => simp [hlp] at h
  | some lp =>
    rw [hlp] at h
    simp only [bind_eq_ok, errorIf_eq_ok, decide_eq_false_iff_not, not_not] at h
    obtain ⟨-, -, -, hnd, -, hid, work, hwork, extended, hext, h⟩ := h
    have hid := perm_of_sorted_eq hid
    have hnd : (lp.map (·.number)).Nodup := nodup_of_dedup_length (by rw [hnd, List.length_map])
    cases hf : (s.partitions.map (·.startSectors)).min? with
    | none => simp [hf] at h
    | some front =>
      rw [hf] at h
      simp only [resolveItems, bind_eq_ok, errorIf_eq_ok, decide_eq_false_iff_not,
        not_lt, not_le] at h
      obtain ⟨-, havail, items, hitems, -, hone, h⟩ := h
      refine ⟨⟨front, rfl, by omega⟩, ?_⟩
      have hall := all_original_iff hlp hnd hid hwork hitems
      by_cases hk : KeepsAll s l
      · rw [hall.mpr hk, if_pos rfl] at h
        exact .inl ⟨hk, h⟩
      · rw [if_neg fun h => hk (hall.mp h)] at h
        exact .inr ⟨hk, ⟨⟨lp, work, extended, front, items, _, hlp, hnd, hid, hwork, hext, hf, hitems, hone, h⟩⟩⟩

/-- A run over an adjusted layout allocates. -/
theorem resolveLayout_adjusted {s : Schema} {l : Layout} {target : ℕ} {plan : List ResolvedPart}
    (hadj : Adjusts s l) (h : resolveLayout s l target = .ok plan) :
    Nonempty (AdjustedRun s l target plan) := by
  rcases (resolveLayout_cases h).2 with ⟨hk, -⟩ | ⟨-, run⟩
  · exact absurd hk hadj.not_keepsAll
  · exact run

namespace AdjustedRun

variable {s : Schema} {l : Layout} {target : ℕ} {plan : List ResolvedPart}
  (run : AdjustedRun s l target plan)

/-- What the allocation of the run is given. -/
def env : AllocEnv := ⟨s.logicalSectorBytes, run.front, run.extended, run.items⟩

include run in
lemma schema_nodup : (s.partitions.map (·.number)).Nodup :=
  run.identity.nodup_iff.mpr run.layout_nodup

/-- The items are the leaves, in their order. -/
lemma items_p : run.items.map (·.p) = run.work := by
  have hn : ∀ p ∈ run.work, p.number ∈ run.lp.map (·.number) := fun p hp =>
    run.identity.mem_iff.mp (List.mem_map_of_mem ((mem_work run.work_ok).mp hp).1)
  have h := joinLayout_fst run.layout_nodup hn
  rw [← (joined_items run.items_ok).1, List.map_map] at h
  exact h

end AdjustedRun

end Pxeos.Deploy
