import Pxeos.Groups.Executor

/-!
# The schema of all groups

When the schemas of the groups are merged and the result passes its check, every file that it names
is the file of one group, so that a directory which has them all is a complete image.
-/

namespace Pxeos.Groups

open Pxeos.Lib
open Pxeos.Lvm (lvmCaptureLvFactsPrepared)

/-! ### Prepared facts -/

lemma fields_of_bars {fields : List Str} (hne : fields ≠ []) (h : ∀ field ∈ fields, '|' ∉ field) :
    (List.intercalate ['|'] fields).splitOn '|' = fields :=
  List.splitOn_intercalate '|' h hne

/-- The record of a volume has the fields of its line. -/
lemma factFields_record {f : Lvm.Fact} {fs : Str} (hread : Lvm.readFact f.line = some f)
    (hfs : Lvm.supported fs = true) :
    factFields (List.intercalate ['|'] [f.name, f.uuid, f.path, f.size, fs]) =
      factFields f.line := by
  obtain ⟨-, hbar⟩ := Lvm.readFact_spec hread
  have hall : ∀ field ∈ [f.name, f.uuid, f.path, f.size, fs], '|' ∉ field := by
    intro field hfield
    rcases List.mem_append.mp (show field ∈ [f.name, f.uuid, f.path, f.size] ++ [fs] from hfield)
      with hfield | hfield
    · exact hbar field hfield
    · rw [List.mem_singleton.mp hfield]
      exact (Lvm.notMem_of_supported hfs).1
  unfold factFields Lvm.Fact.line
  rw [fields_of_bars (List.cons_ne_nil _ _) hall, fields_of_bars (List.cons_ne_nil _ _) hbar]
  rfl

/-- **A preparation** leaves prepared facts of the same volumes. -/
lemma Prepares.spec {sameText : Str → Str → Bool} {facts prepared : Str}
    (h : Prepares sameText facts prepared) :
    lvmCaptureLvFactsPrepared prepared = true ∧
      (endedLines prepared).map factFields = (endedLines facts).map factFields := by
  obtain ⟨n, ready, initial, v, v', τ, hr, hanswers, rfl⟩ := h
  have hsafe :
      Script.Holds (Lvm.contract facts)
        (Script.status (Lvm.lvmPrepareCaptureLvFactsSingle sameText n true ready facts)) v
        (Lvm.World.before initial) (fun m _ w' => Lvm.Ended facts true m w') fun _ _ _ => True :=
    Lvm.holds_lvmPrepareCaptureLvFactsSingle
  obtain ⟨-, recorded, hfacts, hcovered⟩ := ((hsafe.along hr hanswers).2 _ rfl).done rfl rfl
  have hfile : ((Lvm.contract facts).after (Lvm.World.before initial) τ).file facts =
      unlines recorded := by
    unfold Lvm.World.file
    rw [hfacts]
  rw [hfile]
  have hended : endedLines (unlines recorded) = recorded := by
    unfold endedLines
    rw [splitOn_unlines fun record hrecord => (hcovered.records record hrecord).1,
      List.dropLast_concat]
  refine ⟨hcovered.prepared.2, ?_⟩
  obtain ⟨-, fs, -, hlines, hread, hstage, -⟩ := hcovered
  rw [hended, hlines]
  clear hlines hfile hended hfacts
  induction hstage with
  | nil => rfl
  | @cons f record fs recorded hf _ ih =>
    obtain ⟨t, hsupported, -, rfl⟩ := hf
    rw [List.map_cons, List.map_cons, List.map_cons,
      factFields_record (hread f List.mem_cons_self) hsupported,
      ih fun f' hf' => hread f' (List.mem_cons_of_mem _ hf')]

lemma Refined.positive {sameText : Str → Str → Bool} {g g' : Group} (h : Refined sameText g g') :
    isPositive g'.number = true := by
  have hsound := h.sound
  unfold groupSound at hsound
  simp only [Bool.and_eq_true] at hsound
  exact hsound.1.1.1.1.1.1.1.1

/-! ### The merged schema -/

section Merge

variable {schemas : List Schema}

lemma foldl_merge (s : Schema) :
    schemas.foldl (fun s g => { s with pvs := s.pvs ++ g.pvs, vgs := s.vgs ++ g.vgs }) s =
      { s with
        pvs := s.pvs ++ schemas.flatMap Schema.pvs, vgs := s.vgs ++ schemas.flatMap Schema.vgs } := by
  induction schemas generalizing s with
  | nil => simp
  | cons g schemas ih =>
    rw [List.foldl_cons, ih]
    simp

lemma mergeSchemas_pvs : (mergeSchemas schemas).pvs = schemas.flatMap Schema.pvs := by
  unfold mergeSchemas
  rw [foldl_merge]
  rfl

lemma mergeSchemas_vgs : (mergeSchemas schemas).vgs = schemas.flatMap Schema.vgs := by
  unfold mergeSchemas
  rw [foldl_merge]
  rfl

end Merge

/-- The schema of a group, with a row for each volume. -/
def SchemaOf (g : Group) (s : Schema) : Prop :=
  ∃ rows, List.Forall₂ (RowOf g) (endedLines g.lvFacts) rows ∧ s = groupSchema g rows

/-- The files of the volumes in the schema of a group. -/
lemma SchemaOf.lvArtifacts {g : Group} {rows : List Row}
    (h : List.Forall₂ (RowOf g) (endedLines g.lvFacts) rows) :
    ((rows.map Row.lv).filter fun lv => lv.artifact != []).map SchemaLv.artifact =
      g.volumes.map fun v => lvArtifact g.number v.name := by
  unfold Group.volumes
  generalize endedLines g.lvFacts = lines at h
  induction h with
  | nil => rfl
  | @cons line row lines rows hrow _ ih =>
    obtain ⟨v, hread, uuid, rfl⟩ := hrow
    rw [List.map_cons, List.filterMap_cons_some hread]
    by_cases hswap : v.fs = swapWord
    · rw [List.filter_cons_of_neg (by simp [Row.lv, hswap]),
        List.filter_cons_of_neg (by simp [hswap]), ih]
    · rw [List.filter_cons_of_pos (by simp [Row.lv, hswap, lvArtifact_ne_nil]),
        List.filter_cons_of_pos (by simp [hswap]), List.map_cons, List.map_cons, ih]
      simp [Row.lv, hswap]

/-! ### Whose file it is -/

section Files

variable {g g' : Group} {a : Str} {c : Content}

/-- The number of the group stands in the name of each of its files. -/
lemma exists_of_mem_payloads (h : (a, c) ∈ g.payloads) :
    ∃ rest, a = "d1p".toList ++ (g.number ++ '.' :: rest) := by
  unfold Group.payloads at h
  rw [List.mem_cons, List.mem_cons, List.mem_map] at h
  rcases h with h | h | ⟨v, -, h⟩
  · exact ⟨_, (Prod.mk.inj h).1.trans (pvArtifact_eq _)⟩
  · exact ⟨_, (Prod.mk.inj h).1.trans (vgArtifact_eq _)⟩
  · exact ⟨_, (Prod.mk.inj h).1.symm.trans (lvArtifact_eq _ _)⟩

/-- A file has one group. -/
lemma number_of_mem_payloads {c' : Content} (hn : isPositive g.number = true)
    (hn' : isPositive g'.number = true) (h : (a, c) ∈ g.payloads) (h' : (a, c') ∈ g'.payloads) :
    g'.number = g.number := by
  obtain ⟨rest, rfl⟩ := exists_of_mem_payloads h
  obtain ⟨rest', heq⟩ := exists_of_mem_payloads h'
  exact (number_inj hn hn' heq).1.symm

lemma content_pvArtifact (hn : isPositive g.number = true)
    (h : (pvArtifact g.number, c) ∈ g.payloads) : c = .pvReport g.pvPath := by
  unfold Group.payloads at h
  rw [List.mem_cons, List.mem_cons, List.mem_map] at h
  rcases h with h | h | ⟨v, -, h⟩
  · exact (Prod.mk.inj h).2
  · exact absurd (Prod.mk.inj h).1 (pvArtifact_ne_vgArtifact hn)
  · exact absurd (Prod.mk.inj h).1 (lvArtifact_ne_pvArtifact hn)

lemma content_vgArtifact (hn : isPositive g.number = true)
    (h : (vgArtifact g.number, c) ∈ g.payloads) : c = .vgBackup g.vgName := by
  unfold Group.payloads at h
  rw [List.mem_cons, List.mem_cons, List.mem_map] at h
  rcases h with h | h | ⟨v, -, h⟩
  · exact absurd (Prod.mk.inj h).1.symm (pvArtifact_ne_vgArtifact hn)
  · exact (Prod.mk.inj h).2
  · exact absurd (Prod.mk.inj h).1 (lvArtifact_ne_vgArtifact hn)

/-- The names of the volumes are different, so that each has its image. -/
lemma content_lvArtifact {v : Volume} (hn : isPositive g.number = true) (hv : v ∈ g.volumes)
    (hnodup : (g.volumes.map fun v => lvArtifact g.number v.name).Nodup)
    (h : (lvArtifact g.number v.name, c) ∈ g.payloads) : c = .volume v.path := by
  unfold Group.payloads at h
  rw [List.mem_cons, List.mem_cons, List.mem_map] at h
  rcases h with h | h | ⟨v', hv', h⟩
  · exact absurd (Prod.mk.inj h).1 (lvArtifact_ne_pvArtifact hn)
  · exact absurd (Prod.mk.inj h).1 (lvArtifact_ne_vgArtifact hn)
  · obtain ⟨hname, rfl⟩ := Prod.mk.inj h
    rw [List.inj_on_of_nodup_map hnodup hv' hv hname]

end Files

/-! ### The check -/

/-- What the check of the merged schema says. -/
structure Checked (s : Schema) : Prop where
  partitions : (s.pvs.map SchemaPv.partitionNumber).Nodup
  uuids : (s.vgs.map SchemaVg.uuid).Nodup
  distinct : (s.artifacts.map Capture.lowered).Nodup

lemma checked_of_schemaOk {count : ℕ} {s : Schema} (h : schemaOk count s = true) :
    Checked s := by
  unfold schemaOk at h
  simp only [Bool.and_eq_true, beq_iff_eq] at h
  obtain ⟨⟨⟨⟨⟨⟨⟨⟨-, hpvs⟩, hvgs⟩, hpartitions⟩, -⟩, huuids⟩, -⟩, -⟩, hartifacts⟩ := h.1
  refine ⟨nodup_of_dedup_length ?_, nodup_of_dedup_length ?_, nodup_of_dedup_length ?_⟩
  · rw [List.length_map, hpvs]
    exact hpartitions
  · rw [List.length_map, hvgs]
    exact huuids
  · rw [List.length_map]
    exact hartifacts

/-! ### A complete image -/

section Complete

variable {gs : List Group} {schemas : List Schema} {image : Str → Option Entry}

lemma mem_artifacts {s : Schema} {a : Str} : a ∈ s.artifacts ↔
    (∃ pv ∈ s.pvs, a = pv.artifact ∨ a = pv.vgConfigArtifact) ∨
      ∃ vg ∈ s.vgs, ∃ lv ∈ vg.lvs, lv.artifact ≠ [] ∧ lv.artifact = a := by
  unfold Schema.artifacts
  simp only [List.mem_append, List.mem_flatMap, List.mem_map, List.mem_filter, bne_iff_ne,
    List.mem_cons, List.not_mem_nil, or_false]
  refine or_congr Iff.rfl ⟨?_, ?_⟩
  · rintro ⟨lv, ⟨⟨vg, hvg, hlv⟩, hne⟩, rfl⟩
    exact ⟨vg, hvg, lv, hlv, hne, rfl⟩
  · rintro ⟨vg, hvg, lv, hlv, hne, rfl⟩
    exact ⟨lv, ⟨⟨vg, hvg, hlv⟩, hne⟩, rfl⟩

/-- What a schema names, the merged one names. -/
lemma mem_artifacts_merge {s : Schema} {a : Str} (hs : s ∈ schemas) (h : a ∈ s.artifacts) :
    a ∈ (mergeSchemas schemas).artifacts := by
  rw [mem_artifacts] at h ⊢
  rw [mergeSchemas_pvs, mergeSchemas_vgs]
  rcases h with ⟨pv, hpv, ha⟩ | ⟨vg, hvg, hlv⟩
  · exact .inl ⟨pv, List.mem_flatMap_of_mem hs hpv, ha⟩
  · exact .inr ⟨vg, List.mem_flatMap_of_mem hs hvg, hlv⟩

/-- Every name is the name of a file of a group. -/
lemma final_of_mem_artifacts (hs : List.Forall₂ SchemaOf gs schemas) {a : Str}
    (h : a ∈ (mergeSchemas schemas).artifacts) : Final a := by
  rw [mem_artifacts, mergeSchemas_pvs, mergeSchemas_vgs] at h
  rcases h with ⟨pv, hpv, ha⟩ | ⟨vg, hvg, lv, hlv, hne, rfl⟩
  · obtain ⟨s, hmem, hpv⟩ := List.mem_flatMap.mp hpv
    obtain ⟨g, -, rows, -, rfl⟩ := exists_left_of_forall₂ hs hmem
    obtain rfl := List.mem_singleton.mp hpv
    rcases ha with rfl | rfl
    · exact final_pvArtifact _
    · exact final_vgArtifact _
  · obtain ⟨s, hmem, hvg⟩ := List.mem_flatMap.mp hvg
    obtain ⟨g, -, rows, hrows, rfl⟩ := exists_left_of_forall₂ hs hmem
    obtain rfl := List.mem_singleton.mp hvg
    have hname : lv.artifact ∈ g.volumes.map fun v => lvArtifact g.number v.name := by
      rw [← SchemaOf.lvArtifacts hrows]
      exact List.mem_map_of_mem (List.mem_filter.mpr ⟨hlv, bne_iff_ne.mpr hne⟩)
    obtain ⟨v, -, hv⟩ := List.mem_map.mp hname
    rw [← hv]
    exact final_lvArtifact _ _

/-- The volumes of one group have different names. -/
lemma nodup_volumes {g : Group} {rows : List Row}
    (hrows : List.Forall₂ (RowOf g) (endedLines g.lvFacts) rows)
    (hmem : groupSchema g rows ∈ schemas) (hnodup : (mergeSchemas schemas).artifacts.Nodup) :
    (g.volumes.map fun v => lvArtifact g.number v.name).Nodup := by
  rw [← SchemaOf.lvArtifacts hrows]
  refine hnodup.sublist (.trans ?_ (List.sublist_append_right _ _))
  refine .map _ (.filter _ ?_)
  rw [mergeSchemas_vgs]
  have hvg : rows.map Row.lv ∈ (schemas.flatMap Schema.vgs).map SchemaVg.lvs :=
    List.mem_map.mpr ⟨_, List.mem_flatMap_of_mem hmem (List.mem_singleton_self _), rfl⟩
  exact List.sublist_flatten_of_mem hvg

/-- The partitions of the groups. -/
lemma partitions_eq (hs : List.Forall₂ SchemaOf gs schemas) :
    (mergeSchemas schemas).pvs.map SchemaPv.partitionNumber =
      gs.map fun g => number g.number := by
  rw [mergeSchemas_pvs]
  induction hs with
  | nil => rfl
  | cons hg _ ih =>
    obtain ⟨rows, -, rfl⟩ := hg
    rw [List.flatMap_cons, List.map_append, ih]
    rfl

/-- The files of the image are those of the groups. -/
def Filled (gs : List Group) (image : Str → Option Entry) (artifacts : List Str) : Prop :=
  ∀ a ∈ artifacts, ∃ c, image a = some (.file c) ∧ ∃ g ∈ gs, (a, c) ∈ g.payloads

/-- The file of a group has what it has to hold. -/
lemma Filled.content {artifacts : List Str} (hfilled : Filled gs image artifacts)
    (hpositive : ∀ g ∈ gs, isPositive g.number = true)
    (hnumbers : (gs.map fun g => number g.number).Nodup) {g : Group} (hg : g ∈ gs) {a : Str}
    (ha : a ∈ artifacts) {c' : Content} (hpayload : (a, c') ∈ g.payloads) :
    ∃ c, image a = some (.file c) ∧ (a, c) ∈ g.payloads := by
  obtain ⟨c, himage, g', hg', hmem⟩ := hfilled a ha
  have hnumber : g'.number = g.number :=
    number_of_mem_payloads (hpositive g hg) (hpositive g' hg') hpayload hmem
  have heq : g' = g := List.inj_on_of_nodup_map hnumbers hg' hg (congrArg number hnumber)
  exact ⟨c, himage, heq ▸ hmem⟩

/-- A volume of the schema is that of its line. -/
lemma listed_of_row {g : Group} {line : Str} {row : Row} (hrow : RowOf g line row)
    (hfile : ∀ v, readVolume line = some v → v.fs ≠ swapWord →
      image (lvArtifact g.number v.name) = some (.file (.volume v.path))) :
    Listed image line row.lv := by
  obtain ⟨v, hread, uuid, rfl⟩ := hrow
  have hv : v = ⟨⟨(line.splitOn '|').getD 0 [], (line.splitOn '|').getD 1 [],
      (line.splitOn '|').getD 2 [], (line.splitOn '|').getD 3 []⟩,
        (line.splitOn '|').getD 4 []⟩ := by
    unfold readVolume at hread
    dsimp only at hread
    split at hread
    · exact (Option.some.inj hread).symm
    · cases hread
  have hpath : v.path = (line.splitOn '|').getD 2 [] := congrArg (Lvm.Fact.path ∘ Volume.toFact) hv
  refine ⟨congrArg (Lvm.Fact.name ∘ Volume.toFact) hv, congrArg (Lvm.Fact.uuid ∘ Volume.toFact) hv,
    congrArg (number ∘ Lvm.Fact.size ∘ Volume.toFact) hv, congrArg Volume.fs hv, ?_⟩
  show if v.fs = swapWord then _ else _
  by_cases hswap : v.fs = swapWord
  · rw [if_pos hswap]
    exact if_pos hswap
  · rw [if_neg hswap]
    have hartifact : (Row.lv ⟨v.name, v.uuid, v.size, v.size, v.fs,
        if v.fs = swapWord then [] else lvArtifact g.number v.name, uuid⟩).artifact =
        lvArtifact g.number v.name := if_neg hswap
    rw [hartifact, ← hpath]
    exact ⟨lvArtifact_ne_nil _ _, hfile v hread hswap⟩

/-- A group of the schema is that of the manifest. -/
lemma marksGroup_of_filled {g : Group} {rows : List Row}
    (hrows : List.Forall₂ (RowOf g) (endedLines g.lvFacts) rows)
    (hmem : groupSchema g rows ∈ schemas) (hn : isPositive g.number = true)
    (hnodup : (mergeSchemas schemas).artifacts.Nodup)
    (hcontent : ∀ a c', a ∈ (mergeSchemas schemas).artifacts → (a, c') ∈ g.payloads →
      ∃ c, image a = some (.file c) ∧ (a, c) ∈ g.payloads) :
    ∃ pv vg, (groupSchema g rows).pvs = [pv] ∧ (groupSchema g rows).vgs = [vg] ∧
      MarksGroup image g pv vg := by
  have hnamed : ∀ {a}, a ∈ (groupSchema g rows).artifacts →
      a ∈ (mergeSchemas schemas).artifacts := fun ha => mem_artifacts_merge hmem ha
  refine ⟨_, _, rfl, rfl, ⟨rfl, rfl, rfl, ⟨rfl, rfl⟩, rfl, ?_, ?_, ?_⟩⟩
  · have ha : pvArtifact g.number ∈ (groupSchema g rows).artifacts :=
      mem_artifacts.mpr (.inl ⟨_, List.mem_singleton_self _, .inl rfl⟩)
    obtain ⟨c, himage, hc⟩ := hcontent _ _ (hnamed ha) List.mem_cons_self
    rw [← content_pvArtifact hn hc]
    exact himage
  · have ha : vgArtifact g.number ∈ (groupSchema g rows).artifacts :=
      mem_artifacts.mpr (.inl ⟨_, List.mem_singleton_self _, .inr rfl⟩)
    obtain ⟨c, himage, hc⟩ :=
      hcontent _ _ (hnamed ha) (List.mem_cons_of_mem _ List.mem_cons_self)
    rw [← content_vgArtifact hn hc]
    exact himage
  · have hall : ∀ line ∈ endedLines g.lvFacts, ∀ v, readVolume line = some v → v.fs ≠ swapWord →
        image (lvArtifact g.number v.name) = some (.file (.volume v.path)) := by
      intro line hline v hread hswap
      have hv := mem_volumes hline hread hswap
      have hname : lvArtifact g.number v.name ∈
          ((rows.map Row.lv).filter fun lv => lv.artifact != []).map SchemaLv.artifact := by
        rw [SchemaOf.lvArtifacts hrows]
        exact List.mem_map_of_mem (f := fun v => lvArtifact g.number v.name) hv
      obtain ⟨lv, hlv, heq⟩ := List.mem_map.mp hname
      obtain ⟨hlv, hne⟩ := List.mem_filter.mp hlv
      have ha : lvArtifact g.number v.name ∈ (groupSchema g rows).artifacts :=
        mem_artifacts.mpr (.inr ⟨_, List.mem_singleton_self _, lv, hlv, bne_iff_ne.mp hne, heq⟩)
      obtain ⟨c, himage, hc⟩ := hcontent _ _ (hnamed ha) (mem_payloads_volume hv)
      rw [← content_lvArtifact hn hv (nodup_volumes hrows hmem hnodup) hc]
      exact himage
    have hlisted : List.Forall₂ (fun line row => Listed image line (Row.lv row))
        (endedLines g.lvFacts) rows :=
      (forall₂_mem hrows).imp fun line _ h => listed_of_row h.2.2 (hall line h.1)
    exact List.forall₂_map_right_iff.mpr hlisted

/-- The groups of the merged schema, one by one. -/
lemma forall₂_zip_merge {R : Group → SchemaPv → SchemaVg → Prop}
    (h : List.Forall₂ (fun g s => ∃ pv vg, s.pvs = [pv] ∧ s.vgs = [vg] ∧ R g pv vg) gs schemas) :
    (schemas.flatMap Schema.pvs).length = gs.length ∧
      (schemas.flatMap Schema.vgs).length = gs.length ∧
      List.Forall₂ (fun g x => R g x.1 x.2) gs
        ((schemas.flatMap Schema.pvs).zip (schemas.flatMap Schema.vgs)) := by
  induction h with
  | nil => exact ⟨rfl, rfl, .nil⟩
  | cons hg _ ih =>
    obtain ⟨pv, vg, hpv, hvg, hR⟩ := hg
    obtain ⟨hpvs, hvgs, hall⟩ := ih
    rw [List.flatMap_cons, List.flatMap_cons, hpv, hvg]
    refine ⟨?_, ?_, .cons hR hall⟩
    · rw [List.singleton_append, List.length_cons, List.length_cons, hpvs]
    · rw [List.singleton_append, List.length_cons, List.length_cons, hvgs]

/-- **A schema that passes its check marks a directory with all its files.** -/
theorem marks_of_filled {sameText : Str → Str → Bool} {groups : List Group} {count : ℕ}
    (hrefined : List.Forall₂ (Refined sameText) groups gs) (hs : List.Forall₂ SchemaOf gs schemas)
    (hok : schemaOk count (mergeSchemas schemas) = true)
    (hfilled : Filled gs image (mergeSchemas schemas).artifacts) :
    Marks sameText groups image (mergeSchemas schemas) := by
  have hchecked := checked_of_schemaOk hok
  have hpositive : ∀ g ∈ gs, isPositive g.number = true := by
    intro g hg
    obtain ⟨g₀, -, h⟩ := exists_left_of_forall₂ hrefined hg
    exact h.positive
  have hnumbers := hchecked.partitions
  rw [partitions_eq hs] at hnumbers
  have hnodup : (mergeSchemas schemas).artifacts.Nodup := hchecked.distinct.of_map _
  have heach : List.Forall₂ (fun g s => ∃ pv vg, s.pvs = [pv] ∧ s.vgs = [vg] ∧
      MarksGroup image g pv vg) gs schemas := by
    refine (forall₂_mem hs).imp ?_
    rintro g s ⟨hg, hmem, rows, hrows, rfl⟩
    exact marksGroup_of_filled hrows hmem (hpositive g hg) hnodup fun a c' ha hc' =>
      hfilled.content hpositive hnumbers hg ha hc'
  obtain ⟨hpvs, hvgs, hall⟩ := forall₂_zip_merge heach
  rw [← mergeSchemas_pvs] at hpvs
  rw [← mergeSchemas_vgs] at hvgs
  rw [← mergeSchemas_pvs, ← mergeSchemas_vgs] at hall
  refine ⟨gs, hrefined, hpvs, hvgs, hall, hchecked.partitions, hchecked.uuids, ?_,
    hchecked.distinct⟩
  intro a ha
  obtain ⟨c, himage, -⟩ := hfilled a ha
  exact ⟨c, himage⟩

end Complete

end Pxeos.Groups
