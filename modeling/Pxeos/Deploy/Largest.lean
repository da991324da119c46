import Pxeos.Deploy.Remaining
import Pxeos.Deploy.Agree

/-!
# The largest size, on every target

What the search gives for a schema and a layout.  The part of the program that does not depend on
the target is `allocEnv`; with exactly one partition in mode `remaining` the program succeeds when
some size of it fits, and it then gets the largest that does.  A larger target has room for what
fits a smaller one.
-/

namespace Pxeos.Deploy

open Pxeos.Lib

/-! ### What does not depend on the target -/

/-- What the allocation of a schema and a layout is given, when all their checks pass. -/
def allocEnv (s : Schema) (l : Layout) : Except String AllocEnv :=
  match l.partitions with
  | none => .error "layout partitions missing"
  | some lp => do
    errorIf (lp.any (·.percentage.has)) "percentage mode is retired"
    errorIf (decide ((lp.map (·.number)).dedup.length ≠ lp.length)) "duplicate layout number"
    errorIf
      (decide ((s.partitions.map (·.number)).insertionSort (· ≤ ·) ≠
        (lp.map (·.number)).insertionSort (· ≤ ·)))
      "layout identity mismatch"
    let work ← workParts s lp
    let extended ← extendedWithEbr s
    match (s.partitions.map (·.startSectors)).min? with
    | none => .error "null cannot be subtracted"
    | some front => do
      let items ← (joinLayout work lp).mapM (mkItem s)
      errorIf (decide ((items.filter (·.mode == .remaining)).length > 1)) "multiple remaining"
      pure ⟨s.logicalSectorBytes, front, extended, items⟩

/-- The end of the disk for the partitions, `$target - $back`. -/
def limitOf (s : Schema) (e : AllocEnv) (target : ℕ) : ℤ := (target : ℤ) - backReserve s e.front

/-- `$available`. -/
def availableOf (s : Schema) (e : AllocEnv) (target : ℕ) : ℤ :=
  (target : ℤ) - e.front - backReserve s e.front - ebrReservedTotal s e.extended

/-- **The program is the allocation, on a target.** -/
lemma resolveLayout_eq_ok {s : Schema} {l : Layout} {target : ℕ} {plan : List ResolvedPart} :
    resolveLayout s l target = .ok plan ↔ ∃ e, allocEnv s l = .ok e ∧ 0 < availableOf s e target ∧
      (if e.items.all (·.mode == .original) then resolveOriginal s target
        else resolveAdjusted e (availableOf s e target) (limitOf s e target)) = .ok plan := by
  unfold resolveLayout allocEnv
  cases l.partitions with
  | none => simp
  | some lp =>
    simp only [bind_eq_ok, errorIf_eq_ok]
    cases (s.partitions.map (·.startSectors)).min? with
    | none => simp
    | some front =>
      simp only [resolveItems, bind_eq_ok, errorIf_eq_ok, pure_eq_ok,
        decide_eq_false_iff_not, not_le]
      constructor
      · rintro ⟨u1, h1, u2, h2, u3, h3, work, hw, extended, hx, u4, ha, items, hi, u5, h5, h⟩
        exact ⟨_, ⟨u1, h1, u2, h2, u3, h3, work, hw, extended, hx, items, hi, u5, h5, rfl⟩, ha, h⟩
      · rintro ⟨e, ⟨u1, h1, u2, h2, u3, h3, work, hw, extended, hx, items, hi, u5, h5, rfl⟩, ha, h⟩
        exact ⟨u1, h1, u2, h2, u3, h3, work, hw, extended, hx, (), ha, items, hi, u5, h5, h⟩

lemma workParts_nodup {s : Schema} {lp : List LayoutPart} {work : List SchemaPart}
    (hnd : (s.partitions.map (·.number)).Nodup) (h : workParts s lp = .ok work) :
    (work.map (·.number)).Nodup := by
  have hsort : ((sortByNumber s.partitions).map (·.number)).Nodup :=
    ((List.perm_insertionSort _ _).map _).nodup_iff.mpr hnd
  cases hm : mbrExtended s with
  | false =>
    rw [workParts_plain hm h]
    exact hsort
  | true =>
    obtain ⟨x, -, rfl⟩ := workParts_container hm h
    refine ((List.perm_insertionSort _ _).map _).nodup_iff.mpr ?_
    exact hsort.sublist (List.filter_sublist.map _)

/-- The documents behind an allocation, with the checks they have passed. -/
structure Documents (s : Schema) (l : Layout) (e : AllocEnv) (lp : List LayoutPart)
    (work : List SchemaPart) : Prop where
  layout : l.partitions = some lp
  nodup : (lp.map (·.number)).Nodup
  identity : (s.partitions.map (·.number)).Perm (lp.map (·.number))
  work_ok : workParts s lp = .ok work
  extended : extendedWithEbr s = .ok e.extended
  front : (s.partitions.map (·.startSectors)).min? = some e.front
  items : (joinLayout work lp).mapM (mkItem s) = .ok e.items
  logical : e.logical = s.logicalSectorBytes
  one : (e.items.filter (·.mode == .remaining)).length ≤ 1

lemma allocEnv_ok {s : Schema} {l : Layout} {e : AllocEnv} (h : allocEnv s l = .ok e) :
    ∃ lp work, Documents s l e lp work := by
  unfold allocEnv at h
  cases hlp : l.partitions with
  | none => simp [hlp] at h
  | some lp =>
    rw [hlp] at h
    simp only [bind_eq_ok, errorIf_eq_ok, decide_eq_false_iff_not, not_not] at h
    obtain ⟨-, -, -, hnd, -, hid, work, hwork, extended, hext, h⟩ := h
    cases hf : (s.partitions.map (·.startSectors)).min? with
    | none => simp [hf] at h
    | some front =>
      rw [hf] at h
      simp only [bind_eq_ok, errorIf_eq_ok, decide_eq_false_iff_not, not_lt, pure_eq_ok] at h
      obtain ⟨items, hitems, -, hone, rfl⟩ := h
      exact ⟨lp, work, hlp, nodup_of_dedup_length (by rw [hnd, List.length_map]),
        perm_of_sorted_eq hid, hwork, hext, hf, hitems,
        rfl, hone⟩

namespace Documents

variable {s : Schema} {l : Layout} {e : AllocEnv} {lp : List LayoutPart} {work : List SchemaPart}
  (d : Documents s l e lp work)
include d

lemma schema_nodup : (s.partitions.map (·.number)).Nodup := d.identity.nodup_iff.mpr d.nodup

/-- The items are the leaves, in their order. -/
lemma items_p : e.items.map (·.p) = work := by
  have hn : ∀ p ∈ work, p.number ∈ lp.map (·.number) := fun p hp =>
    d.identity.mem_iff.mp (List.mem_map_of_mem ((mem_work d.work_ok).mp hp).1)
  have h := joinLayout_fst d.nodup hn
  rw [← (joined_items d.items).1, List.map_map] at h
  exact h

lemma mem_work_of_item {it : Item} (hit : it ∈ e.items) : it.p ∈ work := by
  rw [← d.items_p]
  exact List.mem_map_of_mem hit

lemma exists_item {p : SchemaPart} (hp : p ∈ work) : ∃ it ∈ e.items, it.p = p := by
  rw [← d.items_p] at hp
  exact List.mem_map.mp hp

/-- The container, when there is one. -/
lemma container {x : SchemaPart} {ebr : ℕ} (hx : e.extended = some (x, ebr)) : ContainerChecks s x ∧
    work = ((sortByNumber s.partitions).filter (·.kind != some .extended)).insertionSort
      StartsBefore := by
  obtain ⟨hm, hhead, -⟩ := extendedWithEbr_some (hx ▸ d.extended)
  obtain ⟨y, hy, hwork⟩ := workParts_container hm d.work_ok
  rw [hy.only, List.head?_cons, Option.some.injEq] at hhead
  exact ⟨hhead ▸ hy, hwork⟩

lemma plain (hx : e.extended = none) : work = sortByNumber s.partitions :=
  workParts_plain (extendedWithEbr_none (hx ▸ d.extended)) d.work_ok

lemma work_nodup : (work.map (·.number)).Nodup := workParts_nodup d.schema_nodup d.work_ok

lemma prepared : e.Prepared := by
  have hmap : ∀ f : SchemaPart → ℕ, e.items.map (fun it => f it.p) = work.map f := by
    intro f
    rw [← d.items_p, List.map_map]
    rfl
  refine ⟨by rw [hmap]; exact d.work_nodup, fun hx => ?_, fun hx => ?_⟩
  · obtain ⟨⟨x, ebr⟩, hx⟩ := Option.isSome_iff_exists.mp hx
    have h : work.Pairwise StartsBefore := by
      rw [(d.container hx).2]
      exact List.pairwise_insertionSort StartsBefore _
    rw [← d.items_p, List.pairwise_map] at h
    exact h
  · obtain ⟨⟨x, ebr⟩, hx⟩ := Option.isSome_iff_exists.mp hx
    obtain ⟨p, hp⟩ := List.exists_mem_of_ne_nil _ (d.container hx).1.logicals
    obtain ⟨hps, hk⟩ := mem_ofKind.mp hp
    obtain ⟨it, hit, rfl⟩ :=
      d.exists_item ((mem_work d.work_ok).mpr ⟨hps, fun _ => by rw [hk]; simp⟩)
    exact ⟨it, hit, hk⟩

/-- The EBRs of the program are those of the items. -/
lemma sum_gap : (e.items.map fun it => e.gap it.p).sum = ebrReservedTotal s e.extended := by
  have hmap : e.items.map (fun it => e.gap it.p) = work.map e.gap := by
    rw [← d.items_p, List.map_map]
    rfl
  rw [hmap]
  rcases hx : e.extended with _ | ⟨x, ebr⟩
  · have hzero : work.map e.gap = work.map fun _ => 0 := List.map_congr_left fun p _ => by
      simp [AllocEnv.gap, hx]
    rw [hzero]
    simp [ebrReservedTotal]
  · obtain ⟨hc, hwork⟩ := d.container hx
    have hparents : (ofKind s .logical).filter (·.parentNumber == some x.number) =
        ofKind s .logical :=
      List.filter_eq_self.mpr fun p hp => by simpa using hc.parents p hp
    have hcount : ∀ ps : List SchemaPart, (ps.map e.gap).sum =
        (ps.filter (·.kind == some .logical)).length * ebr := by
      intro ps
      induction ps with
      | nil => simp
      | cons p ps ih =>
        rw [List.map_cons, List.sum_cons, ih, List.filter_cons]
        by_cases hk : p.kind = some .logical
        · simp only [AllocEnv.gap, hx, hk, if_true, BEq.rfl, List.length_cons, Nat.add_mul]
          omega
        · simp [AllocEnv.gap, hx, hk]
    have hperm : work.Perm ((sortByNumber s.partitions).filter (·.kind != some .extended)) := by
      rw [hwork]
      exact List.perm_insertionSort _ _
    rw [hcount, (hperm.filter _).length_eq, List.filter_filter]
    show _ = ((ofKind s .logical).filter (·.parentNumber == some x.number)).length * ebr
    rw [hparents]
    unfold ofKind
    congr 2
    refine List.filter_congr fun p _ => ?_
    cases p.kind with
    | none => rfl
    | some k => cases k <;> rfl

lemma available_eq (target : ℕ) : availableOf s e target = e.between (limitOf s e target) := by
  have := d.sum_gap
  unfold availableOf AllocEnv.between limitOf
  rw [this]
  ring

end Documents

/-! ### The remaining partition of a layout -/

/-- The partition `n` is the only one in mode `remaining`. -/
def OnlyRemaining (l : Layout) (n : ℕ) : Prop :=
  ∃ o, (l.partitions.getD []).filter (·.modeOrOriginal == .remaining) = [o] ∧ o.number = n

/-- The container has an entry in mode `derived`. -/
lemma workParts_derived {s : Schema} {lp : List LayoutPart} {work : List SchemaPart}
    (hm : mbrExtended s = true) (h : workParts s lp = .ok work) {p : SchemaPart}
    (hp : p ∈ s.partitions) (hk : p.kind = some .extended) {o : LayoutPart} (ho : o ∈ lp)
    (hn : o.number = p.number) : o.modeOrOriginal = .derived := by
  simp only [workParts, hm, if_true, bind_eq_ok, exactlyOne_eq_ok] at h
  obtain ⟨x, hx, u, hd, -⟩ := h
  have hpx : p = x := by
    have hmem : p ∈ ofKind s .extended := mem_ofKind.mpr ⟨hp, hk⟩
    rw [hx] at hmem
    exact List.mem_singleton.mp hmem
  simp only [derivedEntry, bind_eq_ok, exactlyOne_eq_ok, errorIf_eq_ok, Bool.or_eq_false_iff,
    bne_eq_false_iff_eq] at hd
  obtain ⟨o', ho', hmode, -⟩ := hd
  have hmem : o ∈ lp.filter (·.number == x.number) :=
    List.mem_filter.mpr ⟨ho, by simpa using hn.trans (hpx ▸ rfl)⟩
  rw [ho'] at hmem
  rw [List.mem_singleton.mp hmem]
  unfold LayoutPart.modeOrOriginal
  rw [hmode]

namespace Documents

variable {s : Schema} {l : Layout} {e : AllocEnv} {lp : List LayoutPart} {work : List SchemaPart}
  (d : Documents s l e lp work)
include d

/-- An entry that is not the container's has an item. -/
lemma item_of_entry {o : LayoutPart} (ho : o ∈ lp) (hmode : o.modeOrOriginal ≠ .derived) :
    ∃ it ∈ e.items, it.p.number = o.number ∧ it.mode = o.modeOrOriginal := by
  obtain ⟨heq, hchk⟩ := joined_items d.items
  obtain ⟨p, hp, hpn⟩ := List.mem_map.mp (d.identity.mem_iff.mpr (List.mem_map_of_mem ho))
  have hpw : p ∈ work :=
    (mem_work d.work_ok).mpr
      ⟨hp, fun hm hk => hmode (workParts_derived hm d.work_ok hp hk ho hpn.symm)⟩
  have hjoin : (p, o) ∈ joinLayout work lp := by
    refine List.mem_flatMap.mpr
      ⟨p, hpw, List.mem_map.mpr ⟨o, List.mem_filter.mpr ⟨ho, by simp [hpn]⟩, rfl⟩⟩
  rw [← heq] at hjoin
  obtain ⟨it, hit, hpo⟩ := List.mem_map.mp hjoin
  obtain ⟨rfl, rfl⟩ := Prod.mk.inj hpo
  refine ⟨it, hit, hpn, ?_⟩
  rw [(hchk it hit).eq]

/-- The only remaining entry is the only remaining item. -/
lemma split {n : ℕ} (hone : OnlyRemaining l n) :
    ∃ pre it post, e.Split pre it post ∧ it.p.number = n := by
  obtain ⟨o, ho, rfl⟩ := hone
  rw [d.layout, Option.getD_some] at ho
  have hmem : o ∈ lp.filter (·.modeOrOriginal == .remaining) := by
    rw [ho]; exact List.mem_singleton_self o
  obtain ⟨hol, hmode⟩ := List.mem_filter.mp hmem
  rw [beq_iff_eq] at hmode
  obtain ⟨it, hit, hn, hm⟩ := d.item_of_entry hol (by rw [hmode]; simp)
  rw [hmode] at hm
  have hfm : it ∈ e.items.filter (·.mode == .remaining) :=
    List.mem_filter.mpr ⟨hit, by simpa using hm⟩
  have hlen : (e.items.filter (·.mode == .remaining)).length = 1 :=
    le_antisymm d.one (List.length_pos_of_mem hfm)
  obtain ⟨it', hit'⟩ := List.length_eq_one_iff.mp hlen
  obtain rfl : it = it' := by
    rw [hit'] at hfm
    exact List.mem_singleton.mp hfm
  obtain ⟨pre, post, hitems, hpre, hmode', hpost⟩ := List.filter_eq_cons_iff.mp hit'
  refine ⟨pre, it, post, ⟨hitems, by simpa using hmode', fun it' h => by simpa using hpre it' h,
    fun it' h => ?_⟩, hn⟩
  simpa using List.filter_eq_nil_iff.mp hpost it' h

end Documents

/-- A run with a remaining partition allocates. -/
lemma resolveLayout_remaining {s : Schema} {l : Layout} {n target : ℕ} {plan : List ResolvedPart}
    (hone : OnlyRemaining l n) :
    resolveLayout s l target = .ok plan ↔ ∃ e, allocEnv s l = .ok e ∧ 0 < availableOf s e target ∧
      resolveAdjusted e (e.between (limitOf s e target)) (limitOf s e target) = .ok plan := by
  rw [resolveLayout_eq_ok]
  refine exists_congr fun e => and_congr_right fun he => and_congr_right fun _ => ?_
  obtain ⟨lp, work, d⟩ := allocEnv_ok he
  obtain ⟨pre, it, post, hs, -⟩ := d.split hone
  have hall : ¬ e.items.all (·.mode == .original) = true := by
    intro h
    have hit := List.all_eq_true.mp h it (by rw [hs.items]; simp)
    rw [hs.mode] at hit
    cases hit
  rw [if_neg hall, d.available_eq]

/-! ### Larger targets -/

section Targets

variable {s : Schema} {l : Layout} {n : ℕ}

/-- The partition of a plan that has the remaining size. -/
lemma AllocEnv.Split.planned_remaining {e : AllocEnv} {pre post : List Item} {it : Item}
    (hs : e.Split pre it post) {r : ℕ} {plan : List ResolvedPart} (h : e.Planned r plan) :
    ∃ q ∈ plan, q.number = it.p.number ∧ q.resolvedSectors = r := by
  have hit : it ∈ e.items := by
    rw [hs.items]
    simp
  obtain ⟨start, hleaf⟩ := AllocEnv.mem_leavesFrom (e := e) (r := r) (c := e.front) hit
  rw [AllocEnv.sizeOf_remaining hs.mode] at hleaf
  refine ⟨it.p.placed start r, ?_, rfl, rfl⟩
  unfold AllocEnv.Planned at h
  rcases hx : e.extended with _ | ⟨x, ebr⟩
  · rw [hx] at h
    rw [h]
    exact hleaf
  · rw [hx] at h
    obtain ⟨box, -, rfl⟩ := h
    exact (List.perm_insertionSort _ _).mem_iff.mpr (List.mem_append_left _ hleaf)

/-- What becomes of a partition on a larger target. -/
structure Grows (s : Schema) (n : ℕ) (q q' : ResolvedPart) : Prop where
  number : q'.number = q.number
  size : q.resolvedSectors ≤ q'.resolvedSectors
  /-- Only the remaining partition and the container, which is derived, may have another size. -/
  same : q.number ≠ n → (∀ x, extendedOf s = some x → q.number ≠ x.number) →
    q'.resolvedSectors = q.resolvedSectors

lemma Documents.extendedOf_eq {e : AllocEnv} {lp : List LayoutPart} {work : List SchemaPart}
    (d : Documents s l e lp work) :
    extendedOf s = e.extended.map Prod.fst := by
  unfold extendedOf
  rcases hx : e.extended with _ | ⟨x, ebr⟩
  · rw [extendedWithEbr_none (hx ▸ d.extended)]
    rfl
  · obtain ⟨hm, hhead, -⟩ := extendedWithEbr_some (hx ▸ d.extended)
    rw [hm, if_pos rfl, hhead]
    rfl

/-- **The plans of two sizes.** -/
lemma Documents.planned_grows {e : AllocEnv} {lp : List LayoutPart} {work : List SchemaPart}
    (d : Documents s l e lp work) {pre post : List Item} {it : Item} (hs : e.Split pre it post)
    {r r' : ℕ} (hr : r ≤ r') (hd : alignment e.logical ∣ r' - r) {plan plan' : List ResolvedPart}
    (h : e.Planned r plan) (h' : e.Planned r' plan') :
    (plan'.map (·.number)).Perm (plan.map (·.number)) ∧ ∀ q ∈ plan, ∃ q' ∈ plan',
      Grows s it.p.number q q' := by
  obtain ⟨-, hlater, hkept⟩ := hs.grow d.prepared hr hd
  have hnumbers : (e.leavesFrom r' e.front e.items).map (·.number) =
      (e.leavesFrom r e.front e.items).map (·.number) := by
    rw [AllocEnv.map_number_leavesFrom, AllocEnv.map_number_leavesFrom]
  have hleaf : ∀ q ∈ e.leavesFrom r e.front e.items, ∃ q' ∈ e.leavesFrom r' e.front e.items,
      Grows s it.p.number q q' := by
    intro q hq
    obtain ⟨q', hq', hl⟩ := exists_right_of_forall₂ hlater hq
    exact ⟨q', hq', hl.number, hl.size, fun hn _ => hl.same hn⟩
  unfold AllocEnv.Planned at h h'
  rcases hx : e.extended with _ | ⟨x, ebr⟩
  · rw [hx] at h h'
    simp only at h h'
    rw [h, h']
    exact ⟨List.Perm.of_eq hnumbers, hleaf⟩
  · rw [hx] at h h'
    obtain ⟨box, hbox, rfl⟩ := h
    obtain ⟨box', hbox', rfl⟩ := h'
    have hx' : extendedOf s = some x := by rw [d.extendedOf_eq, hx]; rfl
    have hbn : box.number = x.number ∧ box'.number = x.number := by
      obtain ⟨_, _, -, -, rfl⟩ := hbox
      obtain ⟨_, _, -, -, rfl⟩ := hbox'
      exact ⟨rfl, rfl⟩
    refine ⟨?_, fun q hq => ?_⟩
    · refine ((List.perm_insertionSort _ _).map _).trans
        (List.Perm.trans ?_ ((List.perm_insertionSort _ _).map _).symm)
      rw [List.map_append, List.map_append, hnumbers, List.map_singleton,
        List.map_singleton, hbn.1, hbn.2]
    · rw [(List.perm_insertionSort _ _).mem_iff, List.mem_append, List.mem_singleton] at hq
      rcases hq with hq | rfl
      · obtain ⟨q', hq', hg⟩ := hleaf q hq
        exact ⟨q', (List.perm_insertionSort _ _).mem_iff.mpr (List.mem_append_left _ hq'), hg⟩
      · refine ⟨box',
          (List.perm_insertionSort _ _).mem_iff.mpr
            (List.mem_append_right _ (List.mem_singleton_self _)),
          hbn.2.trans hbn.1.symm,
            AllocEnv.box_le hbox hbox' hlater hkept AllocEnv.leavesFrom_sorted, fun _ hne => ?_⟩
        exact absurd hbn.1 (hne x hx')

/-- **The remaining partition gets the largest size that fits.**  The program has lost nothing, and
what succeeds on a target succeeds on every larger one, where the remaining partition and the
container are no smaller and every other partition has the same size. -/
theorem remaining_is_largest (hone : OnlyRemaining l n) {target : ℕ} {plan : List ResolvedPart}
    (h : resolveLayout s l target = .ok plan) :
    (∃ e, allocEnv s l = .ok e ∧ ∃ q ∈ plan, q.number = n ∧
      IsGreatest (e.Fitting (limitOf s e target)) q.resolvedSectors) ∧
      ∀ target', target ≤ target' → ∃ plan', resolveLayout s l target' = .ok plan' ∧
        (plan'.map (·.number)).Perm (plan.map (·.number)) ∧ ∀ q ∈ plan, ∃ q' ∈ plan',
          Grows s n q q' := by
  obtain ⟨e, he, havail, hplan⟩ := (resolveLayout_remaining hone).mp h
  obtain ⟨lp, work, d⟩ := allocEnv_ok he
  obtain ⟨pre, it, post, hs, rfl⟩ := d.split hone
  obtain ⟨r, hgreatest, hplanned⟩ := hs.greatest_of_ok d.prepared hplan
  refine ⟨⟨e, he, ?_⟩, fun target' hle => ?_⟩
  · obtain ⟨q, hq, hn, hsize⟩ := hs.planned_remaining hplanned
    exact ⟨q, hq, hn, by rw [hsize]; exact hgreatest⟩
  · -- what fits the smaller target fits the larger one
    have hlimit : limitOf s e target ≤ limitOf s e target' := by
      unfold limitOf
      omega
    have hmem : r ∈ e.Fitting (limitOf s e target') := by
      obtain ⟨hd, st, hst, hcur⟩ := hgreatest.1
      exact ⟨hd, st, hst, hcur.trans hlimit⟩
    obtain ⟨r', plan', hgreatest', hplanned', hok⟩ := hs.resolveAdjusted_of_fitting d.prepared hmem
    have hr : r ≤ r' := hgreatest'.2 hmem
    have havail' : 0 < availableOf s e target' := by
      unfold availableOf at havail ⊢
      omega
    refine ⟨plan', (resolveLayout_remaining hone).mpr ⟨e, he, havail', hok⟩, ?_⟩
    exact d.planned_grows hs hr (Nat.dvd_sub hgreatest'.1.1 hgreatest.1.1) hplanned hplanned'

end Targets

/-! ### Two targets -/

lemma grownLayout_only : OnlyRemaining grownLayout 6 := ⟨entry 6 .remaining, rfl, rfl⟩

/-- The sizes of a plan, by number. -/
def sizes (plan : Except String (List ResolvedPart)) : Option (List (ℕ × ℕ)) :=
  plan.toOption.map fun qs => qs.map fun q => (q.number, q.resolvedSectors)

lemma exists_of_sizes {plan : Except String (List ResolvedPart)} {ns : List (ℕ × ℕ)}
    (h : sizes plan = some ns) :
    ∃ qs, plan = .ok qs ∧ ∀ x ∈ ns, ∃ q ∈ qs, q.number = x.1 ∧ q.resolvedSectors = x.2 := by
  obtain ⟨qs, hqs, rfl⟩ := Option.map_eq_some_iff.mp h
  refine ⟨qs, toOption_eq_some.mp hqs, fun x hx => ?_⟩
  obtain ⟨q, hq, rfl⟩ := List.mem_map.mp hx
  exact ⟨q, hq, rfl, rfl⟩

/-- With the last logical partition in mode `remaining`, the container grows with the target as
well. -/
theorem container_not_unchanged :
    OnlyRemaining grownLayout 6 ∧ ∃ plan plan',
      resolveLayout dosSchema grownLayout 8192 = .ok plan ∧
    resolveLayout dosSchema grownLayout 16384 = .ok plan' ∧
    ∃ q ∈ plan, ∃ q' ∈ plan', q.number = 3 ∧ q'.number = 3 ∧
      q.resolvedSectors ≠ q'.resolvedSectors := by
  have h1 : sizes (resolveLayout dosSchema grownLayout 8192) =
      some [(1, 449), (3, 6146), (4, 512), (5, 600), (6, 4608)] := by
    decide +kernel
  have h2 : sizes (resolveLayout dosSchema grownLayout 16384) =
      some [(1, 449), (3, 14338), (4, 512), (5, 600), (6, 12800)] := by
    decide +kernel
  obtain ⟨plan, hplan, hmem⟩ := exists_of_sizes h1
  obtain ⟨plan', hplan', hmem'⟩ := exists_of_sizes h2
  obtain ⟨q, hq, hn, hsize⟩ := hmem (3, 6146) (by simp)
  obtain ⟨q', hq', hn', hsize'⟩ := hmem' (3, 14338) (by simp)
  refine ⟨grownLayout_only, plan, plan', hplan, hplan', q, hq, q', hq', hn, hn', ?_⟩
  rw [hsize, hsize']
  decide

/-- The last logical partition gets all there is, and no less on twice the disk. -/
theorem remaining_is_largest_dos : ∃ plan, resolveLayout dosSchema grownLayout 8192 = .ok plan ∧
    (∃ e, allocEnv dosSchema grownLayout = .ok e ∧ ∃ q ∈ plan, q.number = 6 ∧
      IsGreatest (e.Fitting (limitOf dosSchema e 8192)) q.resolvedSectors) ∧
    ∃ plan', resolveLayout dosSchema grownLayout 16384 = .ok plan' ∧ ∀ q ∈ plan, ∃ q' ∈ plan',
      Grows dosSchema 6 q q' := by
  have hok : (resolveLayout dosSchema grownLayout 8192).isOk = true := by decide +kernel
  cases h : resolveLayout dosSchema grownLayout 8192 with
  | error m =>
    rw [h] at hok
    cases hok
  | ok plan =>
    obtain ⟨h1, h2⟩ := remaining_is_largest grownLayout_only h
    obtain ⟨plan', h3, -, h4⟩ := h2 16384 (by omega)
    exact ⟨plan, rfl, h1, plan', h3, h4⟩

end Pxeos.Deploy
