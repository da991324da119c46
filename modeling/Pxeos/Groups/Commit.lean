import Pxeos.Groups.Merged

/-!
# All groups, and then the marker

The groups are captured one after another into a directory that they share; `Captured` says what is
there.  When the schemas are merged, the files go into the directory of the image one after another,
as `Publishing` says, and the schema goes when they are all there.
-/

namespace Pxeos.Groups

open Pxeos.Lib
open Pxeos.Lib.Script (Holds)
open Pxeos.Lvm (lvmCaptureLvFactsPrepared)

variable {sameText : Str → Str → Bool} {groups gs : List Group} {g : Group} {vars : Vars} {w : World}

/-- Any exit. -/
def Stopped (_ : ℕ) (_ : Vars) (_ : World) : Prop := True

lemma holds_require {b : Bool} {Q : Unit → Vars → World → Prop} (h : b = true → Q () vars w) :
    Holds (contract sameText groups) (check b) vars w Q Stopped :=
  holds_check trivial h

lemma holds_orCleanup {b : Bool} {Q : Unit → Vars → World → Prop} (h : b = true → Q () vars w) :
    Holds (contract sameText groups) (orCleanup b) vars w Q Stopped := by
  unfold orCleanup
  split
  · exact Script.holds_pure (h ‹_›)
  · refine .seq (holds_command (fun _ => trivial) fun _ _ => ?_)
    exact .seq (Script.holds_set (Script.holds_exit trivial))

/-! ### The facts are prepared -/

lemma holds_lvmCaptureGroupLoad {Q : Bool → Vars → World → Prop}
    (hload : groupSound g = true → Q true { vars with captured := false } w)
    (hfail : Q false vars w) :
    Holds (contract sameText groups) (lvmCaptureGroupLoad g) vars w Q Stopped := by
  unfold lvmCaptureGroupLoad
  split
  · rename_i hsound
    refine .seq (holds_quiet (fun _ => trivial) (fun _ => rfl) fun readable _ => ?_)
    cases readable with
    | false => exact Script.holds_pure hfail
    | true => exact .seq (Script.holds_set (Script.holds_pure (hload hsound)))
  · exact Script.holds_pure hfail

lemma holds_prepareFacts {Q : Group → Vars → World → Prop} (hsound : groupSound g = true)
    (h : ∀ g', Refined sameText g g' → Q g' vars w) :
    Holds (contract sameText groups) (prepareFacts g) vars w Q Stopped := by
  unfold prepareFacts
  split
  · rename_i hprepared
    exact Script.holds_pure (h g ⟨rfl, .inl rfl, rfl, hprepared, hsound⟩)
  · refine .seq (holds_quiet (fun _ => trivial) (fun _ => rfl) fun prepared hanswer => ?_)
    cases prepared with
    | none => exact Script.holds_exit trivial
    | some facts =>
      have hprepares : Prepares sameText g.lvFacts facts := hanswer facts rfl
      obtain ⟨hprepared, hsame⟩ := hprepares.spec
      exact Script.holds_pure (h _ ⟨rfl, .inr hprepares, hsame, hprepared, hsound⟩)

/-- All facts are prepared. -/
lemma holds_lvmPrepareCaptureLvFacts {Q : List Group → Vars → World → Prop} (gs : List Group)
    (h : ∀ gs' vars', List.Forall₂ (Refined sameText) gs gs' → Q gs' vars' w) :
    Holds (contract sameText groups) (lvmPrepareCaptureLvFacts gs) vars w Q Stopped := by
  induction gs generalizing vars Q with
  | nil => exact Script.holds_pure (h [] vars .nil)
  | cons g gs ih =>
    refine .seq (holds_lvmCaptureGroupLoad (fun hsound => ?_) (.seq (holds_require nofun)))
    refine .seq (holds_require fun _ => ?_)
    refine .seq (holds_prepareFacts hsound fun g' hg' => ?_)
    refine .seq (ih fun gs' vars' hgs' => ?_)
    exact Script.holds_pure (h _ vars' (.cons hg' hgs'))

lemma holds_validateNames {Q : Unit → Vars → World → Prop} (h : ∀ vars', Q () vars' w) :
    Holds (contract sameText groups) (Script.forEach gs validateNames) vars w Q Stopped := by
  refine (Script.holds_forEach (fun _ _ w' => w' = w) ?_ _ rfl).mono ?_ fun _ _ _ h => h
  · intro g _ v w' hw'
    refine .seq (holds_lvmCaptureGroupLoad (fun hsound => ?_) (.seq (holds_require nofun)))
    exact .seq (holds_require fun _ => holds_require fun _ => hw')
  · rintro _ v w' rfl
    exact h v

/-! ### The groups are captured -/

/-- The groups `done` are captured: their schemas are beside the manifest, and every file that the
groups share is that of a group. -/
structure Captured (image : Str → Option Entry) (gs done : List Group) (w : World) : Prop where
  image : w.image = image
  stage : ∀ a c, w.stage a = some c → ∃ g ∈ gs, (a, c) ∈ g.payloads
  fragments : ∀ g ∈ done, ∃ s, SchemaOf g s ∧ w.fragments g.number = some s

/-- An executor leaves one more group. -/
lemma Captured.staged {image : Str → Option Entry} {done : List Group} {w' : World}
    (h : Captured image gs done w) (hg : g ∈ gs) (hstaged : Staged g w w') :
    Captured image gs (done ++ [g]) w' where
  image := hstaged.image.trans h.image
  stage := by
    intro a c hc
    rcases hstaged.stage a c hc with hc | hc
    · exact h.stage a c hc
    · exact ⟨g, hg, hc⟩
  fragments := by
    obtain ⟨rows, hrows, hfragments⟩ := hstaged.fragments
    intro g' hg'
    rcases List.mem_append.mp hg' with hg' | hg'
    · obtain ⟨s, hs, hsome⟩ := h.fragments g' hg'
      have hne : g'.number ≠ g.number := by
        intro heq
        rw [heq, hstaged.fresh] at hsome
        cases hsome
      refine ⟨s, hs, ?_⟩
      rw [hfragments, put_other hne]
      exact hsome
    · obtain rfl := List.mem_singleton.mp hg'
      exact ⟨_, ⟨rows, hrows, rfl⟩, by rw [hfragments, put_self]⟩

lemma holds_captureGroup {manifest : List Group} {Q : Unit → Vars → World → Prop}
    (hprepared : lvmCaptureLvFactsPrepared g.lvFacts = true)
    (h : ∀ vars' w', Staged g w w' → Q () vars' w') :
    Holds (contract sameText groups) (captureGroup sameText manifest g) vars w Q Stopped := by
  refine .seq (holds_lvmCaptureGroupLoad (fun _ => ?_) (.seq (holds_orCleanup nofun)))
  refine .seq (holds_orCleanup fun _ => ?_)
  have hstatus : Holds (contract sameText groups)
      (Script.status (captureLvmVolumesSingle sameText manifest g)) { vars with captured := false } w
      (fun n _ w' => n = 0 → Staged g w w') Stopped :=
    Script.holds_status ((holds_captureLvmVolumesSingle rfl hprepared
      fun _ _ hstaged _ => hstaged).mono (fun _ _ _ h => h) fun _ _ _ hn h0 => absurd h0 hn)
  refine hstatus.bind fun status vars' w' hstaged => ?_
  refine .seq (holds_orCleanup fun hzero => ?_)
  refine .seq (holds_quiet (fun _ => trivial) (fun _ => rfl) fun readable _ => ?_)
  exact holds_orCleanup fun _ => h vars' w' (hstaged (beq_iff_eq.mp hzero))

/-- **All groups are captured.** -/
lemma holds_captureEach {image : Str → Option Entry} {manifest : List Group}
    {Q : Unit → Vars → World → Prop}
    (hprepared : ∀ g ∈ gs, lvmCaptureLvFactsPrepared g.lvFacts = true)
    (hw : Captured image gs [] w) (h : ∀ vars' w', Captured image gs gs w' → Q () vars' w') :
    Holds (contract sameText groups) (Script.forEach gs (captureGroup sameText manifest)) vars w Q
      Stopped := by
  refine (Script.holds_forEach
    (fun rest _ w' => ∃ done, gs = done ++ rest ∧ Captured image gs done w') ?_ _
    ⟨[], rfl, hw⟩).mono ?_ fun _ _ _ h => h
  · rintro g rest v w' ⟨done, hgs, hw'⟩
    have hg : g ∈ gs := by
      rw [hgs]
      exact List.mem_append_right _ List.mem_cons_self
    refine holds_captureGroup (hprepared g hg) fun v' w'' hstaged => ⟨done ++ [g], ?_, ?_⟩
    · rw [hgs, List.append_assoc]
      rfl
    · exact hw'.staged hg hstaged
  · rintro _ v w' ⟨done, hgs, hw'⟩
    rw [List.append_nil] at hgs
    subst hgs
    exact h v w' hw'

/-! ### The files are published -/

section Publish

variable {image : Str → Option Entry} {artifacts : List Str}

/-- Nothing has the name of a file. -/
lemma holds_checkArtifacts {Q : Unit → Vars → World → Prop} (htrim : ∀ a ∈ artifacts, lvmTrim a = a)
    (h : (∀ a ∈ artifacts, present (w.image a) = false) → Q () vars w) :
    Holds (contract sameText groups) (Script.forEach artifacts checkArtifact) vars w Q Stopped := by
  refine (Script.holds_forEach (fun rest v w' => v = vars ∧ w' = w ∧ ∃ done,
    artifacts = done ++ rest ∧ ∀ a ∈ done, present (w.image a) = false) ?_ _
    ⟨rfl, rfl, [], rfl, nofun⟩).mono ?_ fun _ _ _ h => h
  · rintro a rest v w' ⟨rfl, rfl, done, hall, hdone⟩
    have ha : lvmTrim a = a := htrim a (hall ▸ List.mem_append_right _ List.mem_cons_self)
    unfold checkArtifact
    rw [ha]
    refine .seq (holds_orCleanup fun _ => ?_)
    refine .seq (holds_quiet (fun _ => trivial) (fun _ => rfl) fun readable _ => ?_)
    refine .seq (holds_orCleanup fun _ => ?_)
    refine .seq (holds_quiet (fun _ => trivial) (fun _ => rfl) fun there hthere => ?_)
    refine holds_orCleanup fun hlacks => ⟨rfl, rfl, done ++ [a], ?_, ?_⟩
    · rw [hall, List.append_assoc]
      rfl
    · intro b hb
      rcases List.mem_append.mp hb with hb | hb
      · exact hdone b hb
      · obtain rfl := List.mem_singleton.mp hb
        have hanswer : there = present (w'.image b) := hthere
        rw [← hanswer]
        simpa using hlacks
  · rintro _ v w' ⟨rfl, rfl, done, hall, hdone⟩
    rw [List.append_nil] at hall
    exact h (hall ▸ hdone)

/-- The files of `done` are in the directory of the image, and nothing has the name of one of
`rest`. -/
structure Publishing (gs : List Group) (s : Schema) (done rest : List Str) (w : World) : Prop where
  marker : w.image schemaName = none
  combined : w.combined = some s
  stage : ∀ a c, w.stage a = some c → ∃ g ∈ gs, (a, c) ∈ g.payloads
  done : Filled gs w.image done
  rest : ∀ a ∈ rest, present (w.image a) = false

/-- One more file. -/
lemma Publishing.toImage {s : Schema} {a : Str} {done rest : List Str}
    (h : Publishing gs s done (a :: rest) w) (ha : Final a) (hdone : a ∉ done) (hrest : a ∉ rest)
    (hthere : (w.stage a).isSome = true) : Publishing gs s (done ++ [a]) rest (w.toImage a) where
  marker := (put_other ha.schema.symm).trans h.marker
  combined := h.combined
  stage := by
    intro b c hc
    by_cases heq : b = a
    · subst heq
      exact nomatch (put_self _ _ _).symm.trans hc
    · exact h.stage b c ((put_other heq).symm.trans hc)
  done := by
    intro b hb
    rcases List.mem_append.mp hb with hb | hb
    · obtain ⟨c, himage, hpayload⟩ := h.done b hb
      have hne : b ≠ a := fun heq => hdone (heq ▸ hb)
      exact ⟨c, (put_other hne).trans himage, hpayload⟩
    · obtain rfl := List.mem_singleton.mp hb
      obtain ⟨c, hc⟩ := Option.isSome_iff_exists.mp hthere
      refine ⟨c, (put_self _ _ _).trans ?_, h.stage b c hc⟩
      rw [hc]
      rfl
  rest := by
    intro b hb
    have hne : b ≠ a := fun heq => hrest (heq ▸ hb)
    have hput : (w.toImage a).image b = w.image b := put_other hne
    rw [hput]
    exact h.rest b (List.mem_cons_of_mem _ hb)

/-- **All files are published.** -/
lemma holds_publishArtifacts {s : Schema} {Q : Unit → Vars → World → Prop}
    (hfinal : ∀ a ∈ artifacts, Final a) (hnodup : artifacts.Nodup)
    (hw : Publishing gs s [] artifacts w)
    (h : ∀ w', Publishing gs s artifacts [] w' → Q () vars w') :
    Holds (contract sameText groups) (Script.forEach artifacts publishArtifact) vars w Q
      Stopped := by
  refine (Script.holds_forEach (fun rest v w' => v = vars ∧ ∃ done, artifacts = done ++ rest ∧
    Publishing gs s done rest w') ?_ _ ⟨rfl, [], rfl, hw⟩).mono ?_ fun _ _ _ h => h
  · rintro a rest v w' ⟨rfl, done, hall, hw'⟩
    have ha : Final a := hfinal a (hall ▸ List.mem_append_right _ List.mem_cons_self)
    rw [hall, List.nodup_append] at hnodup
    obtain ⟨-, hrest, hapart⟩ := hnodup
    unfold publishArtifact
    rw [ha.trim]
    refine .seq (holds_command (fun _ => ⟨hw'.marker, ha.schema, hw'.rest a List.mem_cons_self⟩)
      fun moved hmoved => ?_)
    cases moved with
    | false => exact holds_orCleanup nofun
    | true =>
      refine holds_orCleanup fun _ => ⟨rfl, done ++ [a], ?_, ?_⟩
      · rw [hall, List.append_assoc]
        rfl
      · exact hw'.toImage ha (fun hmem => hapart a hmem a List.mem_cons_self rfl)
          (List.nodup_cons.mp hrest).1 (hmoved rfl)
  · rintro _ v w' ⟨rfl, done, hall, hw'⟩
    rw [List.append_nil] at hall
    exact h w' (hall ▸ hw')

/-- **The schema comes last.** -/
lemma holds_publishGroups {count : ℕ} (hmarker : image schemaName = none)
    (hrefined : List.Forall₂ (Refined sameText) groups gs) (hw : Captured image gs gs w) :
    Holds (contract sameText groups) (publishGroups count gs) vars w (fun _ _ _ => True)
      Stopped := by
  refine .seq (holds_command (fun _ => trivial) fun schema hmerge => ?_)
  cases schema with
  | none => exact holds_orCleanup nofun
  | some s =>
    obtain ⟨schemas, hfragments, rfl⟩ := hmerge s rfl
    have hs : List.Forall₂ SchemaOf gs schemas := by
      refine (forall₂_mem (List.forall₂_map_left_iff.mp hfragments)).imp ?_
      rintro g s ⟨hg, -, hsome⟩
      obtain ⟨s', hs', hsome'⟩ := hw.fragments g hg
      rw [hsome] at hsome'
      exact Option.some.inj hsome' ▸ hs'
    refine .seq (holds_quiet (fun _ => trivial) (fun _ => rfl) fun checked _ => ?_)
    refine .seq (holds_orCleanup fun hok => ?_)
    have hok := (Bool.and_eq_true_iff.mp hok).2
    have hnodup : (mergeSchemas schemas).artifacts.Nodup :=
      (checked_of_schemaOk hok).distinct.of_map _
    have hfinal : ∀ a ∈ (mergeSchemas schemas).artifacts, Final a := fun a =>
      final_of_mem_artifacts hs
    refine .seq (holds_quiet (fun _ => trivial) (fun _ => rfl) fun listed _ => ?_)
    refine .seq (holds_orCleanup fun _ => ?_)
    refine .seq (holds_checkArtifacts (fun a ha => (hfinal a ha).trim) fun hlacks => ?_)
    have hstart : Publishing gs (mergeSchemas schemas) [] (mergeSchemas schemas).artifacts
        { w with combined := some (mergeSchemas schemas) } :=
      ⟨(congrFun hw.image schemaName).trans hmarker, rfl, hw.stage, nofun, hlacks⟩
    refine .seq (holds_publishArtifacts hfinal hnodup hstart fun w' hw' => ?_)
    refine .seq (holds_command (fun _ => ⟨hw'.marker, fun s hsome => ?_⟩) fun moved _ => ?_)
    · rw [hw'.combined] at hsome
      exact Option.some.inj hsome ▸ marks_of_filled hrefined hs hok hw'.done
    · refine .seq (holds_orCleanup fun _ => ?_)
      refine .seq (holds_command (fun _ => trivial) fun _ _ => ?_)
      exact Script.holds_set trivial

end Publish

/-- **A capture keeps to its contract.** -/
theorem holds_captureLvmVolumes {count : ℕ} (hmarker : w.image schemaName = none) :
    Holds (contract sameText groups) (captureLvmVolumes sameText count groups) vars w
      (fun _ _ _ => True) Stopped := by
  have hdone : Holds (contract sameText groups) alreadyCaptured vars w (fun _ _ w' => w' = w)
      Stopped := by
    refine .seq (Script.holds_vars ?_)
    split
    · exact holds_quiet (fun _ => trivial) (fun _ => rfl) fun _ _ => rfl
    · exact Script.holds_pure rfl
  refine hdone.bind fun done vars' w' hw' => ?_
  subst hw'
  split
  · exact Script.holds_pure trivial
  · refine .seq (holds_quiet (fun _ => trivial) (fun _ => rfl) fun _ _ => ?_)
    refine .seq (holds_require fun _ => ?_)
    refine .seq (holds_require fun _ => ?_)
    refine .seq (holds_quiet (fun _ => trivial) (fun _ => rfl) fun there _ => ?_)
    refine .seq (holds_require fun _ => ?_)
    refine .seq (holds_lvmPrepareCaptureLvFacts groups fun gs vars₁ hrefined => ?_)
    refine .seq (holds_validateNames fun vars₂ => ?_)
    refine .seq (holds_command (fun _ => trivial) fun made _ => ?_)
    cases made with
    | false => exact .seq (holds_orCleanup nofun)
    | true =>
      refine .seq (holds_orCleanup fun _ => ?_)
      refine .seq (holds_quiet (fun _ => trivial) (fun _ => rfl) fun _ _ => ?_)
      refine .seq (holds_orCleanup fun _ => ?_)
      have hprepared : ∀ g ∈ gs, lvmCaptureLvFactsPrepared g.lvFacts = true := by
        intro g hg
        obtain ⟨_, -, h⟩ := exists_left_of_forall₂ hrefined hg
        exact h.prepared
      have hstart : Captured w'.image gs [] { w' with stage := fun _ => none } :=
        ⟨rfl, nofun, nofun⟩
      refine .seq (holds_captureEach hprepared hstart fun vars₃ w₃ hw₃ => ?_)
      exact holds_publishGroups hmarker hrefined hw₃

end Pxeos.Groups
