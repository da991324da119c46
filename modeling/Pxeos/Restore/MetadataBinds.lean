import Mathlib.Data.List.Perm.Subperm
import Pxeos.Lib.Checks
import Pxeos.Restore.MetadataCount

/-!
# Which metadata binds a group

The check of a backup against the plan, and what it should have asked: it takes an `id` that is
missing for a uuid that is a number zero, and does not see an `id` with nothing between its quotes.
-/

namespace Pxeos.Restore

open Pxeos.Lib

/-! ### What binds a group -/

/-- The own `id` of a block; `loose` says that one that is missing may stand for a number zero. -/
def OwnId (loose : Bool) (uuid : Str) (ids : List Str) : Prop :=
  ids = [uuid] ∨ loose = true ∧ ids = [] ∧ awkUnsetEqual uuid = true

/-- The block of the group: its `id`, the entry of the physical volume, those of the logical
volumes, and no other `id`. -/
structure BindsRoot (loose : Bool) (plan : GroupPlan) (root : Outline) : Prop where
  own : OwnId loose plan.vgUuid (Outline.ids root)
  pv : ∃ entry, members .pv root = [entry] ∧ OwnId loose plan.pvUuid (Outline.ids entry.2) ∧
    (Outline.ids entry.2 = [] ∨ isPvName entry.1 = true)
  lv : ((members .lv root).map fun b => (b.1, Outline.ids b.2)).Perm
    (plan.volumes.map fun v => (v.1, [v.2]))
  clean : CleanRoot root

/-- One block with the name of the group, and no `id` outside of it. -/
structure Binds (loose : Bool) (plan : GroupPlan) (f : Outline) : Prop where
  top : ∃ root, f.blocks = [(plan.vgName, root)] ∧ BindsRoot loose plan root
  clean : Outline.ids f = []

/-- The lines are those of blocks that bind the group. -/
def TextBinds (plan : GroupPlan) (text : LvmText) : Prop :=
  ∃ f : Forest Str (Str × Str), f.items = text.items ∧ Binds false plan (f.map idOf)

/-- The group or the entry of its physical volume has no `id`. -/
def Unidentified (f : Outline) : Prop :=
  ∃ b ∈ f.blocks, Outline.ids b.2 = [] ∨ ∃ entry ∈ members .pv b.2, Outline.ids entry.2 = []

/-- Where the check is mistaken: an `id` stands somewhere with nothing between its quotes, or one is
missing where the plan has a number zero, and everything else is as it should be. -/
def Mistaken (plan : GroupPlan) (text : LvmText) : Prop :=
  ∃ f : Forest Str (Str × Str), f.items = text.items ∧ Binds true plan (f.map filledId) ∧
    (some [] ∈ f.allLeaves.map idOf ∨ Unidentified (f.map filledId))

/-! ### The events of the whole text -/

section Top

variable (kind : Section) (f : Outline)

lemma tops_topEvents : tops (topEvents f) = f.blocks.map (·.1) := by
  unfold tops topEvents
  rw [Forest.filterMap_collect_blocks fun v _ => filterMap_toList (fun _ => rfl) v,
    List.map_eq_flatMap]
  exact List.flatMap_congr fun b _ => congrArg (b.1 :: ·) (tops_rootEvents b.2)

lemma rootIds_topEvents : rootIds (topEvents f) = f.blocks.flatMap fun b => Outline.ids b.2 := by
  unfold rootIds topEvents
  rw [Forest.filterMap_collect_blocks fun v _ => filterMap_toList (fun _ => rfl) v]
  refine List.flatMap_congr fun b _ => ?_
  rw [List.filterMap_cons_none rfl]
  exact rootIds_rootEvents b.2

lemma entries_topEvents :
    entries kind (topEvents f) = f.blocks.flatMap fun b => (members kind b.2).map (·.1) := by
  unfold entries topEvents
  rw [Forest.filterMap_collect_blocks fun v _ => filterMap_toList (fun _ => rfl) v]
  refine List.flatMap_congr fun b _ => ?_
  rw [List.filterMap_cons_none rfl]
  exact entries_rootEvents kind b.2

lemma ownIds_topEvents : ownIds kind (topEvents f) =
    f.blocks.flatMap fun b => (members kind b.2).flatMap fun c =>
      (Outline.ids c.2).map (c.1, ·) := by
  unfold ownIds topEvents
  rw [Forest.filterMap_collect_blocks fun v _ => filterMap_toList (fun _ => rfl) v]
  refine List.flatMap_congr fun b _ => ?_
  rw [List.filterMap_cons_none rfl]
  exact ownIds_rootEvents kind b.2

lemma stray_notMem_topEvents :
    .stray ∉ topEvents f ↔ Outline.ids f = [] ∧ ∀ b ∈ f.blocks, CleanRoot b.2 := by
  unfold topEvents
  rw [Forest.mem_collect, not_or, ids_eq_nil]
  refine and_congr ?_ ?_
  · constructor
    · intro h v hv
      cases v with
      | none => rfl
      | some w => exact absurd ⟨some w, hv, List.mem_singleton_self _⟩ h
    · rintro h ⟨v, hv, hmem⟩
      rw [h v hv] at hmem
      cases hmem
  · simp only [List.mem_cons, reduceCtorEq, false_or]
    push Not
    exact forall₂_congr fun b _ => stray_notMem_rootEvents b.2

end Top

/-! ### The logical volumes -/

section Volumes

/-- The names with all their `id`s. -/
def pairs (ms : List (Str × List Str)) : List (Str × Str) := ms.flatMap fun b => b.2.map (b.1, ·)

lemma pairs_length_le {ms : List (Str × List Str)} (h : ∀ b ∈ ms, b.2.length ≤ 1) :
    (pairs ms).length ≤ ms.length := by
  induction ms with
  | nil => exact le_rfl
  | cons b ms ih =>
    have hb := h b List.mem_cons_self
    have hms := ih fun c hc => h c (List.mem_cons_of_mem _ hc)
    show (b.2.map (b.1, ·) ++ pairs ms).length ≤ _
    rw [List.length_append, List.length_map, List.length_cons]
    omega

/-- As many `id`s as names, at most one for each: then exactly one. -/
lemma eq_of_pairs_length {ms : List (Str × List Str)} (h : ∀ b ∈ ms, b.2.length ≤ 1)
    (hlength : (pairs ms).length = ms.length) :
    ms = (pairs ms).map fun p => (p.1, [p.2]) := by
  induction ms with
  | nil => rfl
  | cons b ms ih =>
    have hb := h b List.mem_cons_self
    have hle := pairs_length_le fun c hc => h c (List.mem_cons_of_mem _ hc)
    have hsplit : pairs (b :: ms) = b.2.map (b.1, ·) ++ pairs ms := rfl
    rw [hsplit, List.length_append, List.length_map, List.length_cons] at hlength
    obtain ⟨v, hv⟩ := List.length_eq_one_iff.mp (show b.2.length = 1 by omega)
    have hrest := ih (fun c hc => h c (List.mem_cons_of_mem _ hc)) (by omega)
    rw [hsplit, List.map_append, ← hrest]
    obtain ⟨name, ids⟩ := b
    dsimp only at hv
    rw [hv]
    rfl

lemma length_le_one_of_nodup {ms : List (Str × List Str)} (h : ((pairs ms).map (·.1)).Nodup) :
    ∀ b ∈ ms, b.2.length ≤ 1 := by
  induction ms with
  | nil => simp
  | cons c ms ih =>
    have hsplit : (pairs (c :: ms)).map (·.1) = List.replicate c.2.length c.1 ++
        (pairs ms).map (·.1) := by
      show (c.2.map (c.1, ·) ++ pairs ms).map (·.1) = _
      rw [List.map_append, List.map_map]
      congr 1
      exact List.map_const'
    rw [hsplit] at h
    intro b hb
    rcases List.mem_cons.mp hb with rfl | hb
    · exact List.nodup_replicate.mp h.of_append_left
    · exact ih h.of_append_right b hb

variable {plan : GroupPlan}

lemma uuid_of_mem {v : Str × Str} (h : v ∈ plan.volumes) :
    (⟨plan.volumes, false⟩ : Wanted).uuid v.1 = v.2 := by
  have hnodup := plan.names_nodup
  unfold Wanted.uuid
  dsimp only
  generalize plan.volumes = vs at h hnodup
  induction vs with
  | nil => cases h
  | cons w vs ih =>
    rw [List.map_cons, List.nodup_cons] at hnodup
    rcases List.mem_cons.mp h with rfl | h
    · rw [List.find?_cons_of_pos (by simp)]
      rfl
    · rw [List.find?_cons_of_neg]
      · exact ih h hnodup.2
      · rw [beq_iff_eq]
        intro heq
        exact hnodup.1 (heq ▸ List.mem_map_of_mem h)

lemma seenName_iff {name : Str} :
    (⟨plan.volumes, false⟩ : Wanted).seenName name = true ↔ ∃ v ∈ plan.volumes, v.1 = name := by
  unfold Wanted.seenName
  simp

/-- What the rules ask of the logical volumes: exactly those of the plan. -/
lemma volumes_iff {ms : List (Str × List Str)} :
    ((∀ name ∈ ms.map (·.1), (⟨plan.volumes, false⟩ : Wanted).seenName name = true) ∧
      (∀ p ∈ pairs ms, p.1 ≠ [] ∧ p.2 = (⟨plan.volumes, false⟩ : Wanted).uuid p.1) ∧
      ((pairs ms).map (·.1)).Nodup ∧
      ((pairs ms).map (·.2)).Nodup ∧ ms.length = plan.volumes.length ∧
      (pairs ms).length = plan.volumes.length) ↔
    ms.Perm (plan.volumes.map fun v => (v.1, [v.2])) := by
  constructor
  · rintro ⟨hnames, hwanted, hnodup, -, hlength, hpairs⟩
    have hsubset : pairs ms ⊆ plan.volumes := by
      intro p hp
      obtain ⟨b, hb, hpb⟩ := List.mem_flatMap.mp hp
      obtain ⟨w, -, rfl⟩ := List.mem_map.mp hpb
      obtain ⟨v, hv, hname⟩ := seenName_iff.mp (hnames b.1 (List.mem_map_of_mem hb))
      have huuid := (hwanted _ hp).2
      dsimp only at huuid
      rw [← hname, uuid_of_mem hv] at huuid
      rw [huuid, ← hname]
      exact hv
    have hperm : (pairs ms).Perm plan.volumes :=
      (List.subperm_of_subset (List.Nodup.of_map _ hnodup) hsubset).perm_of_length_le hpairs.ge
    rw [eq_of_pairs_length (length_le_one_of_nodup hnodup) (hpairs.trans hlength.symm)]
    exact hperm.map _
  · intro hperm
    have hpairs : (pairs ms).Perm plan.volumes := by
      have h := hperm.flatMap_right (fun b => b.2.map (b.1, ·))
      have hvolumes : (plan.volumes.map fun v => (v.1, [v.2])).flatMap (fun b => b.2.map (b.1, ·)) =
          plan.volumes := by
        rw [List.flatMap_map]
        exact List.flatMap_singleton' _
      rwa [hvolumes] at h
    refine ⟨?_, ?_, ?_, ?_, ?_, hpairs.length_eq⟩
    · intro name hname
      obtain ⟨b, hb, rfl⟩ := List.mem_map.mp hname
      obtain ⟨v, hv, rfl⟩ := List.mem_map.mp (hperm.mem_iff.mp hb)
      exact seenName_iff.mpr ⟨v, hv, rfl⟩
    · intro p hp
      have hv := hpairs.mem_iff.mp hp
      exact ⟨(plan.volume_chars p hv).1.1, (uuid_of_mem hv).symm⟩
    · exact (hpairs.map _).nodup_iff.mpr plan.names_nodup
    · exact (hpairs.map _).nodup_iff.mpr plan.uuids_nodup
    · rw [hperm.length_eq, List.length_map]

end Volumes

/-! ### The check at the end -/

section Check

variable {plan : GroupPlan}

/-- `END`, without the depth. -/
def endAccepts (plan : GroupPlan) (t : Tally) : Prop :=
  t.bad = false ∧ t.topCount = 1 ∧ awkIs t.topName plan.vgName = true ∧
    awkIs t.rootId plan.vgUuid = true ∧ t.pvCount = 1 ∧
    awkIs t.pvId plan.pvUuid = true ∧ t.lvCount = plan.volumes.length ∧
      t.foundLv = plan.volumes.length

/-- A variable that has been set at most once. -/
lemma awkIs_getLast? {ids : List Str} {uuid : Str} (h : ids.length ≤ 1) :
    awkIs ids.getLast? uuid = true ↔ OwnId true uuid ids := by
  unfold OwnId
  match ids, h with
  | [], _ => simp [awkIs]
  | [v], _ => simp [awkIs]

lemma pairs_members (kind : Section) (root : Outline) :
    pairs ((members kind root).map fun b => (b.1, Outline.ids b.2)) =
      (members kind root).flatMap fun c => (Outline.ids c.2).map (c.1, ·) := by
  unfold pairs
  rw [List.flatMap_map]

/-- The events of a text with one block. -/
lemma rootIds_single {name : Str} {root f : Outline} (h : f.blocks = [(name, root)]) :
    rootIds (topEvents f) = Outline.ids root := by
  rw [rootIds_topEvents, h, List.flatMap_singleton]

lemma entries_single (kind : Section) {name : Str} {root f : Outline}
    (h : f.blocks = [(name, root)]) :
    entries kind (topEvents f) = (members kind root).map (·.1) := by
  rw [entries_topEvents, h, List.flatMap_singleton]

lemma ownIds_single (kind : Section) {name : Str} {root f : Outline}
    (h : f.blocks = [(name, root)]) :
    ownIds kind (topEvents f) =
      pairs ((members kind root).map fun b => (b.1, Outline.ids b.2)) := by
  rw [ownIds_topEvents, h, List.flatMap_singleton, pairs_members]

lemma OwnId.length_le {loose : Bool} {uuid : Str} {ids : List Str} (h : OwnId loose uuid ids) :
    ids.length ≤ 1 := by
  rcases h with rfl | ⟨-, rfl, -⟩ <;> simp

/-- What the rules have counted is accepted if the text binds the group, but for the missing
`id`s. -/
lemma endAccepts_iff {f : Outline} {t : Tally} (h : Counted ⟨plan.volumes, false⟩ (topEvents f) t) :
    endAccepts plan t ↔ Binds true plan f := by
  unfold endAccepts
  constructor
  · rintro ⟨hbad, htop, hname, hroot, hpv, hpvId, hlv, hfound⟩
    obtain ⟨-, -, hfoundLv⟩ := h.lv hbad
    have hfine := h.bad.mp hbad
    rw [h.topCount, tops_topEvents, List.length_map] at htop
    obtain ⟨⟨name, root⟩, hblocks⟩ := List.length_eq_one_iff.mp htop
    obtain ⟨hclean, hcleanRoot⟩ := (stray_notMem_topEvents f).mp hfine.noStray
    obtain rfl : name = plan.vgName := by
      rw [h.topName, tops_topEvents, hblocks] at hname
      exact beq_iff_eq.mp hname
    have hroots := rootIds_single hblocks
    have hentries := fun kind => entries_single kind hblocks
    have hown := fun kind => ownIds_single kind hblocks
    refine ⟨⟨root, hblocks, ?_, ?_, ?_,
      hcleanRoot _ (by rw [hblocks]; exact List.mem_singleton_self _)⟩, hclean⟩
    · have hone := hfine.root
      rw [hroots] at hone
      rw [h.rootId, hroots] at hroot
      exact (awkIs_getLast? hone).mp hroot
    · rw [h.pvCount, hentries, List.length_map] at hpv
      obtain ⟨entry, hentry⟩ := List.length_eq_one_iff.mp hpv
      have hids : ownIds .pv (topEvents f) = (Outline.ids entry.2).map (entry.1, ·) := by
        rw [hown, hentry]
        exact List.flatMap_singleton _ _
      have hone := hfine.pv
      rw [hids, List.length_map] at hone
      rw [h.pvId, hids, List.map_map, show ((fun p : Str × Str => p.2) ∘ (entry.1, ·)) =
        id from rfl, List.map_id] at hpvId
      refine ⟨entry, hentry, (awkIs_getLast? hone).mp hpvId, ?_⟩
      cases hfirst : Outline.ids entry.2 with
      | nil => exact .inl rfl
      | cons v vs =>
        refine .inr (hfine.pvName (entry.1, v) ?_)
        rw [hids, hfirst]
        exact List.mem_cons_self
    · refine volumes_iff.mp ⟨?_, ?_, ?_, ?_, ?_, ?_⟩
      · have hnames := hfine.lvEntry
        rw [hentries] at hnames
        rwa [List.map_map]
      · rw [← hown]
        exact hfine.lvWanted
      · rw [← hown]
        exact hfine.lvNames
      · rw [← hown]
        exact hfine.lvUuids
      · rw [List.length_map, ← hlv, h.lvCount, hentries, List.length_map]
      · rw [← hown, ← hfoundLv, hfound]
  · rintro ⟨⟨root, hblocks, hroot, ⟨entry, hentry, hpvId, hpvName⟩, hlv, hcleanRoot⟩, hclean⟩
    have hroots := rootIds_single hblocks
    have hentries := fun kind => entries_single kind hblocks
    have hown := fun kind => ownIds_single kind hblocks
    have hids : ownIds .pv (topEvents f) = (Outline.ids entry.2).map (entry.1, ·) := by
      rw [hown, hentry]
      exact List.flatMap_singleton _ _
    obtain ⟨hnames, hwanted, hlvNames, hlvUuids, hlength, hpairs⟩ := volumes_iff.mpr hlv
    have hfine : Fine ⟨plan.volumes, false⟩ (topEvents f) := by
      refine ⟨(stray_notMem_topEvents f).mpr ⟨hclean, ?_⟩, ?_, ?_, ?_, ?_, ?_, ?_, ?_⟩
      · rw [hblocks]
        exact fun b hb => List.mem_singleton.mp hb ▸ hcleanRoot
      · rw [hroots]
        exact hroot.length_le
      · rw [hids, List.length_map]
        exact hpvId.length_le
      · intro p hp
        rw [hids] at hp
        obtain ⟨v, hv, rfl⟩ := List.mem_map.mp hp
        exact hpvName.resolve_left (List.ne_nil_of_mem hv)
      · rw [hentries]
        rwa [List.map_map] at hnames
      · rwa [hown]
      · rwa [hown]
      · rwa [hown]
    have hbad := h.bad.mpr hfine
    refine ⟨hbad, ?_, ?_, ?_, ?_, ?_, ?_, ?_⟩
    · rw [h.topCount, tops_topEvents, hblocks]
      rfl
    · rw [h.topName, tops_topEvents, hblocks]
      exact beq_self_eq_true plan.vgName
    · rw [h.rootId, hroots]
      exact (awkIs_getLast? hroot.length_le).mpr hroot
    · rw [h.pvCount, hentries, hentry]
      rfl
    · rw [h.pvId, hids, List.map_map, show ((fun p : Str × Str => p.2) ∘ (entry.1, ·)) =
        id from rfl, List.map_id]
      exact (awkIs_getLast? hpvId.length_le).mpr hpvId
    · rw [h.lvCount, hentries, List.length_map, ← hlength, List.length_map]
    · rw [(h.lv hbad).2.2, hown, hpairs]

end Check

/-! ### The lines of a text -/

section Lines

variable (want : Wanted)

lemma leave_bad {p : Parser} (h : p.bad = true) (opens closes : ℕ) :
    (p.leave opens closes).bad = true := by
  unfold Parser.leave
  dsimp only
  split_ifs <;> simp [h]

lemma leave_depth (p : Parser) (opens closes : ℕ) :
    (p.leave opens closes).depth = p.depth + (opens - closes) := by
  unfold Parser.leave
  dsimp only
  split_ifs <;> rfl

lemma openEntry_spec (p : Parser) (name : Str) :
    (p.bad = true → (p.openEntry want name).bad = true) ∧
    (p.openEntry want name).depth = p.depth := by
  unfold Parser.openEntry
  split
  · exact ⟨id, rfl⟩
  · split
    · exact ⟨id, rfl⟩
    · split
      · exact ⟨id, rfl⟩
      · rename_i kind _
        split
        · cases kind with
          | pv => exact ⟨id, rfl⟩
          | lv => exact ⟨fun h => by simp [h], rfl⟩
        · exact ⟨id, rfl⟩

lemma openTop_spec (p : Parser) (name : Str) :
    (p.openTop name).bad = p.bad ∧ (p.openTop name).depth = p.depth := by
  unfold Parser.openTop
  split_ifs <;> exact ⟨rfl, rfl⟩

/-- Nothing that is bad is forgotten. -/
lemma item_bad {p : Parser} (h : p.bad = true) (i : Item Str (Str × Str)) :
    (p.item want i).bad = true := by
  cases i with
  | opens name =>
    have htop : (p.openTop name).bad = true := (openTop_spec p name).1.trans h
    exact leave_bad ((openEntry_spec want _ name).1 htop) 1 0
  | closes => exact leave_bad h 0 1
  | leaf field =>
    unfold Parser.item
    dsimp only
    split
    · exact (Parser.readId_place want p _).2.2.2.2.2 h
    · exact h

lemma run_bad {p : Parser} (h : p.bad = true) (items : List (Item Str (Str × Str))) :
    (p.run want items).bad = true := by
  induction items generalizing p with
  | nil => exact h
  | cons i items ih => exact ih (item_bad want h i)

lemma item_depth (p : Parser) (i : Item Str (Str × Str)) :
    (p.item want i).depth = p.depth + (match i with
    | .opens _ => 1
    | .closes => -1
    | .leaf _ => 0) := by
  cases i with
  | opens name =>
    show (((p.openTop name).openEntry want name).leave 1 0).depth = _
    rw [leave_depth, (openEntry_spec want _ name).2, (openTop_spec p name).2]
    rfl
  | closes =>
    show (p.leave 0 1).depth = _
    rw [leave_depth]
    rfl
  | leaf field =>
    unfold Parser.item
    dsimp only
    split
    · rw [(Parser.readId_place want p _).1, add_zero]
    · exact (add_zero _).symm

/-- Lines that end at depth 0 without anything bad are balanced. -/
lemma balanced_of_run {p : Parser} {n : ℕ} (hdepth : p.depth = n)
    {items : List (Item Str (Str × Str))} (hbad : (p.run want items).bad = false)
    (hend : (p.run want items).depth = 0) : Forest.Balanced n items := by
  induction items generalizing p n with
  | nil =>
    have hzero : (n : ℤ) = 0 := hdepth.symm.trans hend
    exact Int.natCast_eq_zero.mp hzero
  | cons i items ih =>
    rw [Parser.run_cons] at hbad hend
    have hstep := item_depth want p i
    cases i with
    | opens name =>
      unfold Forest.Balanced
      refine ih ?_ hbad hend
      rw [hstep, hdepth]
      push_cast
      rfl
    | closes =>
      cases n with
      | zero =>
        -- below depth 0 the text is bad
        exfalso
        have hnegative : (p.item want .closes).depth < 0 := by rw [hstep, hdepth]; decide
        have hnow : (p.item want .closes).bad = true := (Parser.settled_leave p 0 1).depth hnegative
        rw [run_bad want hnow items] at hbad
        cases hbad
      | succ n =>
        refine ih (n := n) ?_ hbad hend
        rw [hstep, hdepth]
        push_cast
        omega
    | leaf field =>
      unfold Forest.Balanced
      refine ih ?_ hbad hend
      rw [hstep, hdepth, add_zero]

/-- The records of a text in the layout do what its items say. -/
lemma foldl_lines {p : Parser} (h : p.Settled) {lines : List Str}
    {items : List (Option (Item Str (Str × Str)))}
    (hlayout : List.Forall₂ (fun record item => LineOf (stripCr record) item) lines items) :
    lines.foldl (Parser.line want) p = p.run want (items.filterMap id) := by
  induction hlayout generalizing p with
  | nil => rfl
  | @cons record i lines items hline _ ih =>
    rw [List.foldl_cons, Parser.line_eq want h hline]
    cases i with
    | none => exact ih h
    | some i => exact ih (Parser.settled_item want h i)

lemma settled_start : ({} : Parser).Settled :=
  ⟨fun h => absurd h (by decide), fun h => absurd rfl h, fun h => absurd rfl h⟩

lemma named_of_items {f : Forest Str (Str × Str)} (h : ∀ name, .opens name ∈ f.items → name ≠ []) :
    Named f := by
  induction f with
  | nil => trivial
  | block name inside rest ihinside ihrest =>
    refine ⟨h name List.mem_cons_self, ihinside fun n hn => h n ?_, ihrest fun n hn => h n ?_⟩
    · exact List.mem_cons_of_mem _ (List.mem_append_left _ hn)
    · exact List.mem_cons_of_mem _ (List.mem_append_right _ (List.mem_cons_of_mem _ hn))
  | leaf field rest ih => exact ih fun n hn => h n (List.mem_cons_of_mem _ hn)

/-- The blocks of a text in the layout have names. -/
lemma name_ne_nil (text : LvmText) {name : Str} (h : .opens name ∈ text.items) : name ≠ [] := by
  obtain ⟨i, hi, hitem⟩ := List.mem_filterMap.mp h
  obtain ⟨record, -, hline⟩ := exists_left_of_forall₂ text.layout hi
  rw [show i = some (.opens name) from hitem] at hline
  generalize stripCr record = line at hline
  cases hline with
  | opens _ hname _ _ => exact hname.1

end Lines

/-! ### The first file -/

section Rows

variable (plan : GroupPlan)

lemma noSpace_of_isIdentChar {c : Char} (h : isIdentChar c = true) : isSpace c = false := by
  simp only [isIdentChar, Bool.or_eq_true, beq_iff_eq] at h
  rcases h with ((((h | rfl) | rfl) | rfl) | rfl) | rfl
  · exact isSpace_of_isAlphanum h
  all_goals decide

/-- A row is read as its name and its uuid. -/
lemma row_fields {v : Str × Str} (hv : v ∈ plan.volumes) :
    blankFields (stripCr (v.1 ++ '\t' :: v.2)) = [v.1, v.2] := by
  obtain ⟨⟨hname, hnames⟩, huuid, huuids⟩ := plan.volume_chars v hv
  have hspace1 : ∀ c ∈ v.1, isSpace c = false :=
    fun c hc => isSpace_of_isNameChar (List.all_eq_true.mp hnames c hc)
  have hspace2 : ∀ c ∈ v.2, isSpace c = false :=
    fun c hc => noSpace_of_isIdentChar (List.all_eq_true.mp huuids c hc)
  have hstrip : stripCr (v.1 ++ '\t' :: v.2) = v.1 ++ '\t' :: v.2 := by
    obtain ⟨init, c, hc⟩ := (List.eq_nil_or_concat' v.2).resolve_left huuid
    have hlast : (v.1 ++ '\t' :: v.2).getLast? = some c := by
      rw [hc, ← List.cons_append, ← List.append_assoc, List.getLast?_concat]
    unfold stripCr
    refine if_neg fun h => ?_
    rw [hlast] at h
    have hspace := hspace2 c (by rw [hc]; simp)
    rw [Option.some.inj h] at hspace
    exact absurd hspace (by decide)
  have hplain : ∀ {w : Str}, (∀ c ∈ w, isSpace c = false) → ∀ c ∈ w,
      (c == ' ' || c == '\t' || c == '\n') = false := by
    intro w hw c hc
    by_contra hblank
    simp only [Bool.not_eq_false, Bool.or_eq_true, beq_iff_eq] at hblank
    have := hw c hc
    rcases hblank with (rfl | rfl) | rfl <;> revert this <;> decide
  rw [hstrip]
  unfold blankFields
  rw [List.splitOnP_append_cons_of_forall_mem (hplain hspace1) '\t' (by decide),
    List.splitOnP_eq_singleton (hplain hspace2)]
  simp [hname, huuid]

/-- What is wanted is what the plan says. -/
lemma wanted_eq : (records (volumeRows plan)).foldl Wanted.row {} = ⟨plan.volumes, false⟩ := by
  have hrecords : records (volumeRows plan) = plan.volumes.map fun v => v.1 ++ '\t' :: v.2 := by
    refine records_unlines fun l hl => ?_
    obtain ⟨v, hv, rfl⟩ := List.mem_map.mp hl
    obtain ⟨⟨-, hnames⟩, -, huuids⟩ := plan.volume_chars v hv
    intro hmem
    rcases List.mem_append.mp hmem with hmem | hmem
    · exact absurd (List.all_eq_true.mp hnames _ hmem) (by decide)
    · rcases List.mem_cons.mp hmem with h | hmem
      · exact absurd h (by decide)
      · exact absurd (List.all_eq_true.mp huuids _ hmem) (by decide)
  have hfold : ∀ (done rest : List (Str × Str)), done ++ rest = plan.volumes →
      (rest.map fun v => v.1 ++ '\t' :: v.2).foldl Wanted.row ⟨done, false⟩ =
        ⟨plan.volumes, false⟩ := by
    intro done rest
    induction rest generalizing done with
    | nil =>
      intro h
      rw [← h, List.append_nil]
      rfl
    | cons v rest ih =>
      intro h
      have hv : v ∈ plan.volumes := by
        rw [← h]
        simp
      have hnames := plan.names_nodup
      have huuids := plan.uuids_nodup
      rw [← h, List.map_append, List.map_cons] at hnames huuids
      have hname : (⟨done, false⟩ : Wanted).seenName v.1 = false := by
        unfold Wanted.seenName
        rw [List.any_eq_false]
        intro w hw hequal
        exact (List.nodup_append.mp hnames).2.2 _ (List.mem_map_of_mem hw) _ List.mem_cons_self
          (beq_iff_eq.mp hequal)
      have huuid : (⟨done, false⟩ : Wanted).seenUuid v.2 = false := by
        unfold Wanted.seenUuid
        rw [List.any_eq_false]
        intro w hw hequal
        exact (List.nodup_append.mp huuids).2.2 _ (List.mem_map_of_mem hw) _ List.mem_cons_self
          (beq_iff_eq.mp hequal)
      have hrow : (⟨done, false⟩ : Wanted).row (v.1 ++ '\t' :: v.2) = ⟨done ++ [v], false⟩ := by
        unfold Wanted.row
        rw [row_fields plan hv]
        dsimp only
        rw [hname, huuid, if_neg (by simp)]
      rw [List.map_cons, List.foldl_cons, hrow]
      exact ih (done ++ [v]) (by rw [List.append_assoc]; exact h)
  rw [hrecords]
  exact hfold [] plan.volumes rfl

lemma records_volumeRows_ne : records (volumeRows plan) ≠ [] := by
  intro h
  have heq := wanted_eq plan
  rw [h] at heq
  exact plan.volumes_ne (congrArg Wanted.uuids heq).symm

lemma unescape_names :
    unescape plan.vgName = plan.vgName ∧ unescape plan.vgUuid = plan.vgUuid ∧
    unescape plan.pvUuid = plan.pvUuid := by
  refine ⟨unescape_of_notMem fun h => ?_, unescape_of_notMem fun h => ?_,
    unescape_of_notMem fun h => ?_⟩
  · exact absurd (List.all_eq_true.mp plan.vgName_chars _ h) (by decide)
  · exact absurd (List.all_eq_true.mp plan.vgUuid_chars _ h) (by decide)
  · exact absurd (List.all_eq_true.mp plan.pvUuid_chars _ h) (by decide)

end Rows

/-! ### The whole check -/

section Whole

variable (plan : GroupPlan) (text : LvmText)

/-- What is accepted binds the group, up to the `id`s that are missing or empty. -/
lemma accepts_iff_loose : accepts plan text.content = true ↔
    ∃ f : Forest Str (Str × Str), f.items = text.items ∧ Binds true plan (f.map filledId) := by
  obtain ⟨hname, hvg, hpv⟩ := unescape_names plan
  have hrun : (records text.content).foldl (Parser.line ⟨plan.volumes, false⟩) {} =
      ({} : Parser).run ⟨plan.volumes, false⟩ text.items := foldl_lines _ settled_start text.layout
  have hend : accepts plan text.content = true ↔
      endAccepts plan (({} : Parser).run ⟨plan.volumes, false⟩ text.items).toTally ∧
      (({} : Parser).run ⟨plan.volumes, false⟩ text.items).depth = 0 := by
    unfold accepts bindsGroup endAccepts
    dsimp only
    rw [hname, hvg, hpv, if_neg (records_volumeRows_ne plan), if_neg (records_volumeRows_ne plan),
      wanted_eq, hrun]
    simp only [Bool.and_eq_true, Bool.not_eq_true', Bool.false_or, beq_iff_eq]
    tauto
  rw [hend]
  have hcounted : ∀ f : Forest Str (Str × Str), f.items = text.items →
      ∃ last, ({} : Parser).run ⟨plan.volumes, false⟩ text.items =
        found ⟨plan.volumes, false⟩ (outside 0 last) {} (topEvents (f.map filledId)) := by
    intro f hf
    have hnamed : Named f := named_of_items fun name h => name_ne_nil text (hf ▸ h)
    rw [← hf]
    exact run_top _ hnamed 0 {}
  constructor
  · rintro ⟨haccepts, hdepth⟩
    obtain ⟨f, hf⟩ := Forest.exists_items (balanced_of_run _ rfl haccepts.1 hdepth)
    obtain ⟨last, hfound⟩ := hcounted f hf
    rw [hfound] at haccepts
    exact ⟨f, hf, (endAccepts_iff (counted _)).mp haccepts⟩
  · rintro ⟨f, hf, hbinds⟩
    obtain ⟨last, hfound⟩ := hcounted f hf
    rw [hfound]
    exact ⟨(endAccepts_iff (counted _)).mpr hbinds, rfl⟩

end Whole

/-! ### What the check does not see -/

section Strict

variable {plan : GroupPlan}

lemma mem_allIds {v : Str} (g : Outline) :
    v ∈ Outline.allIds g ↔ v ∈ Outline.ids g ∨ ∃ b ∈ g.blocks, v ∈ Outline.allIds b.2 := by
  induction g with
  | nil => simp [Outline.allIds, Outline.ids, Forest.allLeaves, Forest.leaves, Forest.blocks]
  | block name inside rest _ ih =>
    have hsplit : v ∈ Outline.allIds (.block name inside rest) ↔ v ∈ Outline.allIds inside ∨
        v ∈ Outline.allIds rest := by
      simp [Outline.allIds, Forest.allLeaves]
    rw [hsplit, ih]
    show _ ↔ v ∈ Outline.ids rest ∨ ∃ b ∈ (name, inside) :: rest.blocks, v ∈ Outline.allIds b.2
    simp only [List.mem_cons, exists_eq_or_imp]
    exact or_left_comm
  | leaf w rest ih =>
    have hall : v ∈ Outline.allIds (.leaf w rest) ↔ w = some v ∨ v ∈ Outline.allIds rest := by
      cases w <;> simp [Outline.allIds, Forest.allLeaves, eq_comm]
    have hids : v ∈ Outline.ids (.leaf w rest) ↔ w = some v ∨ v ∈ Outline.ids rest := by
      cases w <;> simp [Outline.ids, Forest.leaves, eq_comm]
    rw [hall, hids, ih]
    exact or_assoc.symm

lemma BindsRoot.mem_allIds {root : Outline} (h : BindsRoot false plan root) {v : Str}
    (hv : v ∈ Outline.allIds root) : v ≠ [] := by
  have hown : ∀ {uuid : Str} {ids : List Str}, uuid ≠ [] → OwnId false uuid ids →
      v ∈ ids → v ≠ [] := by
    intro uuid ids huuid hids hmem
    rcases hids with rfl | ⟨hfalse, -⟩
    · rwa [List.mem_singleton.mp hmem]
    · cases hfalse
  -- an entry has its own `id` and no other one
  have hentry : ∀ kind, ∀ entry ∈ members kind root, v ∈ Outline.ids entry.2 → v ≠ [] := by
    intro kind entry hentry hmem
    cases kind with
    | pv =>
      obtain ⟨e, he, hid, -⟩ := h.pv
      rw [he] at hentry
      obtain rfl := List.mem_singleton.mp hentry
      exact hown plan.pvUuid_ne hid hmem
    | lv =>
      have hin :=
        h.lv.mem_iff.mp (List.mem_map_of_mem (f := fun b => (b.1, Outline.ids b.2)) hentry)
      obtain ⟨w, hw, heq⟩ := List.mem_map.mp hin
      rw [← (Prod.mk.inj heq).2] at hmem
      rw [List.mem_singleton.mp hmem]
      exact (plan.volume_chars w hw).2.1
  rcases (Restore.mem_allIds root).mp hv with hids | ⟨b, hb, hmem⟩
  · exact hown plan.vgUuid_ne h.own hids
  · have hclean := h.clean b hb
    cases hkind : sectionOf b.1 with
    | none =>
      rw [hkind] at hclean
      rw [show Outline.allIds b.2 = [] from hclean] at hmem
      cases hmem
    | some kind =>
      rw [hkind] at hclean
      obtain ⟨hnone, hnested⟩ : CleanSection b.2 := hclean
      rcases (Restore.mem_allIds b.2).mp hmem with hids | ⟨entry, hin, hmem⟩
      · rw [hnone] at hids
        cases hids
      · rcases (Restore.mem_allIds entry.2).mp hmem with hids | ⟨c, hc, hmem⟩
        · refine hentry kind entry ?_ hids
          exact List.mem_flatMap.mpr ⟨b, List.mem_filter.mpr ⟨hb, by simpa using hkind⟩, hin⟩
        · rw [hnested entry hin c hc] at hmem
          cases hmem

/-- Without an `id` that is empty, the check sees all of them. -/
lemma map_idOf {f : Forest Str (Str × Str)} (h : some [] ∉ f.allLeaves.map idOf) :
    f.map idOf = f.map filledId := by
  refine Forest.map_congr fun field hfield => ?_
  unfold filledId
  cases hid : idOf field with
  | none => rfl
  | some v =>
    have hv : v ≠ [] := by
      rintro rfl
      exact h (hid ▸ List.mem_map_of_mem hfield)
    rw [Option.filter_some, if_pos (decide_eq_true hv)]

lemma OwnId.loose {uuid : Str} {ids : List Str} (h : OwnId false uuid ids) :
    ids = [uuid] ∧ OwnId true uuid ids := by
  rcases h with rfl | ⟨hfalse, -⟩
  · exact ⟨rfl, .inl rfl⟩
  · cases hfalse

lemma OwnId.strict {uuid : Str} {ids : List Str} (h : OwnId true uuid ids) (hne : ids ≠ []) :
    OwnId false uuid ids :=
  .inl (h.resolve_right fun h => hne h.2.1)

/-- The claim about the text, and what the check sees of it. -/
lemma binds_iff {f : Forest Str (Str × Str)} : Binds false plan (f.map idOf) ↔
    Binds true plan (f.map filledId) ∧
    ¬ (some [] ∈ f.allLeaves.map idOf ∨ Unidentified (f.map filledId)) := by
  constructor
  · intro h
    obtain ⟨root, hblocks, hroot⟩ := h.top
    have hempty : some [] ∉ f.allLeaves.map idOf := by
      intro hmem
      rw [← Forest.allLeaves_map] at hmem
      have hall : [] ∈ Outline.allIds (f.map idOf) := List.mem_filterMap.mpr ⟨_, hmem, rfl⟩
      rcases (mem_allIds _).mp hall with hids | ⟨b, hb, hin⟩
      · rw [h.clean] at hids
        cases hids
      · rw [hblocks] at hb
        rw [List.mem_singleton.mp hb] at hin
        exact hroot.mem_allIds hin rfl
    rw [map_idOf hempty] at h hblocks
    obtain ⟨entry, hentry, hpvId, hpvName⟩ := hroot.pv
    refine ⟨⟨⟨root, hblocks, hroot.own.loose.2, ⟨entry, hentry, hpvId.loose.2, hpvName⟩, hroot.lv,
      hroot.clean⟩, h.clean⟩, ?_⟩
    rintro (hmem | ⟨b, hb, hnone⟩)
    · exact hempty hmem
    · rw [hblocks] at hb
      obtain rfl := List.mem_singleton.mp hb
      rcases hnone with hnone | ⟨e, he, hnone⟩
      · rw [hroot.own.loose.1] at hnone
        cases hnone
      · rw [hentry] at he
        rw [List.mem_singleton.mp he, hpvId.loose.1] at hnone
        cases hnone
  · rintro ⟨h, hodd⟩
    rw [not_or] at hodd
    obtain ⟨hempty, hidentified⟩ := hodd
    obtain ⟨root, hblocks, hroot⟩ := h.top
    obtain ⟨entry, hentry, hpvId, hpvName⟩ := hroot.pv
    have hin : (plan.vgName, root) ∈ (f.map filledId).blocks := by
      rw [hblocks]
      exact List.mem_singleton_self _
    have hrootId : Outline.ids root ≠ [] := fun hnone => hidentified ⟨_, hin, .inl hnone⟩
    have hentryId : Outline.ids entry.2 ≠ [] := by
      refine fun hnone => hidentified ⟨_, hin, .inr ⟨entry, ?_, hnone⟩⟩
      show entry ∈ members .pv root
      rw [hentry]
      exact List.mem_singleton_self _
    rw [map_idOf hempty]
    exact ⟨⟨root, hblocks, hroot.own.strict hrootId,
      ⟨entry, hentry, hpvId.strict hentryId, hpvName⟩, hroot.lv, hroot.clean⟩, h.clean⟩

end Strict

/-- **The check of the metadata**: it accepts what binds the group, and nothing else, unless it is
mistaken. -/
theorem accepts_iff_binds (plan : GroupPlan) (text : LvmText) :
    (accepts plan text.content = true ↔ TextBinds plan text) ↔ ¬ Mistaken plan text := by
  rw [accepts_iff_loose]
  constructor
  · rintro h ⟨f, hf, hloose, hodd⟩
    obtain ⟨g, hg, hbinds⟩ := h.mp ⟨f, hf, hloose⟩
    obtain rfl : f = g := Forest.items_injective (hf.trans hg.symm)
    exact (binds_iff.mp hbinds).2 hodd
  · intro h
    constructor
    · rintro ⟨f, hf, hloose⟩
      refine ⟨f, hf, binds_iff.mpr ⟨hloose, fun hodd => h ⟨f, hf, hloose, hodd⟩⟩⟩
    · rintro ⟨f, hf, hbinds⟩
      exact ⟨f, hf, (binds_iff.mp hbinds).1⟩

/-! ### A uuid that is zero -/

section Zero

def zeroPlan : GroupPlan where
  vgName := "vg0".toList
  vgUuid := "0".toList
  pvUuid := "P".toList
  volumes := [("a".toList, "A".toList)]
  vgName_chars := by decide
  vgUuid_ne := by decide
  vgUuid_chars := by decide
  pvUuid_ne := by decide
  pvUuid_chars := by decide
  volumes_ne := by decide
  volume_chars := by decide
  names_nodup := by decide
  uuids_nodup := by decide

/-- The group has no `id`. -/
def zeroForest : Forest Str (Str × Str) :=
  .block "vg0".toList
    (.block "physical_volumes".toList
      (.block "pv0".toList (.leaf ("id".toList, "\"P\"".toList) .nil) .nil)
      (.block "logical_volumes".toList (.block "a".toList (.leaf ("id".toList, "\"A\"".toList) .nil)
        .nil) .nil)) .nil

lemma lineOf_open {record name : Str} (hstrip : stripCr record = name ++ " \x7b".toList)
    (hname : IsName name) :
    LineOf (stripCr record) (some (.opens name)) := by
  rw [hstrip]
  exact @LineOf.opens [] name [' '] [] (by simp [Blank]) hname (by simp [Blank, isSpace])
    ⟨by simp, by simp⟩

lemma lineOf_id {record value : Str} (hstrip : stripCr record = "id = ".toList ++ value)
    (hbraces : NoBraces value) (hfirst : value.dropWhile isSpace = value) :
    LineOf (stripCr record) (some (.leaf ("id".toList, value))) := by
  rw [hstrip]
  exact @LineOf.field [] "id".toList [' '] [' '] value (by simp [Blank])
    ⟨by decide, forall_mem_of_all (by decide)⟩
    (by simp [Blank, isSpace]) (by simp [Blank, isSpace]) hbraces hfirst

lemma lineOf_close {record : Str} (hstrip : stripCr record = ['}']) :
    LineOf (stripCr record) (some .closes) := by
  rw [hstrip]
  exact @LineOf.closes [] [] (by simp [Blank]) ⟨by simp, by simp⟩

def zeroText : LvmText where
  content := "vg0 \x7b\nphysical_volumes \x7b\npv0 \x7b\nid = \"P\"\n\x7d\n\x7d\nlogical_volumes \x7b\na \x7b\nid = \"A\"\n\x7d\n\x7d\n\x7d\n".toList
  lines := zeroForest.items.map some
  layout := by
    have hrecords : records "vg0 \x7b\nphysical_volumes \x7b\npv0 \x7b\nid = \"P\"\n\x7d\n\x7d\nlogical_volumes \x7b\na \x7b\nid = \"A\"\n\x7d\n\x7d\n\x7d\n".toList =
        ["vg0 \x7b".toList, "physical_volumes \x7b".toList, "pv0 \x7b".toList, "id = \"P\"".toList,
          "\x7d".toList, "\x7d".toList,
          "logical_volumes \x7b".toList, "a \x7b".toList, "id = \"A\"".toList, "\x7d".toList,
            "\x7d".toList, "\x7d".toList] := by decide +kernel
    have hclose : LineOf (stripCr "\x7d".toList) (some .closes) := lineOf_close (by decide +kernel)
    rw [hrecords]
    exact .cons (lineOf_open (by decide +kernel) ⟨by decide, forall_mem_of_all (by decide)⟩)
      (.cons (lineOf_open (by decide +kernel) ⟨by decide, forall_mem_of_all (by decide)⟩)
      (.cons (lineOf_open (by decide +kernel) ⟨by decide, forall_mem_of_all (by decide)⟩)
      (.cons (lineOf_id (by decide +kernel) ⟨by decide, by decide⟩ (by decide +kernel))
      (.cons hclose (.cons hclose
      (.cons (lineOf_open (by decide +kernel) ⟨by decide, forall_mem_of_all (by decide)⟩)
      (.cons (lineOf_open (by decide +kernel) ⟨by decide, forall_mem_of_all (by decide)⟩)
      (.cons (lineOf_id (by decide +kernel) ⟨by decide, by decide⟩ (by decide +kernel))
      (.cons hclose (.cons hclose (.cons hclose .nil)))))))))))

/-- For the uuid 0 a group without an `id` is accepted. -/
theorem not_binds_zero :
    ¬ ∀ (plan : GroupPlan) (text : LvmText), accepts plan text.content =
      true ↔ TextBinds plan text := by
  intro h
  have haccepts : accepts zeroPlan zeroText.content = true := by decide +kernel
  obtain ⟨f, hf, hbinds⟩ := (h zeroPlan zeroText).mp haccepts
  obtain rfl : f = zeroForest := by
    refine Forest.items_injective (hf.trans ?_)
    unfold LvmText.items zeroText
    rw [List.filterMap_map]
    exact List.filterMap_some
  obtain ⟨root, hblocks, hroot⟩ := hbinds.top
  have hid := hroot.own.loose.1
  rw [← (Prod.mk.inj (List.cons.inj hblocks).1).2] at hid
  revert hid
  decide +kernel

end Zero

end Pxeos.Restore
