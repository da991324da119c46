import Pxeos.Groups.Commit

/-!
# The marker of a capture

Runs of a capture from a directory of the image without a schema: the schema is there only when the
image is complete, and what was there before is still there unless a file is moved to the name of a
symbolic link that leads nowhere, which the test for its name does not see.
-/

namespace Pxeos.Groups

open Pxeos.Lib

/-- What a capture has to leave: no schema without a complete image, and everything that was there
before. -/
structure Left (sameText : Str → Str → Bool) (groups : List Group) (before : Str → Option Old)
    (w : World) : Prop where
  marker : ∀ e, w.image schemaName = some e →
    ∃ s, e = .file (.schema s) ∧ Marks sameText groups w.image s
  kept : ∀ name old, before name = some old → w.image name = some (.old old)

/-- A file is moved to the name of a symbolic link that leads nowhere. -/
def World.replaces (w : World) : Sigma Call.Value → Bool
  | ⟨.publish name, true⟩ => w.image name == some (.old (.link false))
  | _ => false

/-- A command moves no file to such a name. -/
def World.Clear (w : World) (e : Sigma Call.Value) : Prop := w.replaces e = false

instance (w : World) (e : Sigma Call.Value) : Decidable (w.Clear e) :=
  inferInstanceAs (Decidable (w.replaces e = false))

section Steps

variable {sameText : Str → Str → Bool} {groups : List Group} {before : Str → Option Old} {w : World}

/-- Two commands change the directory of the image. -/
lemma next_image (w : World) (e : Sigma Call.Value) :
    (∃ name, e = ⟨.publish name, true⟩) ∨ e = ⟨.commit, true⟩ ∨
      (w.next e).image = w.image ∧ w.Clear e := by
  obtain ⟨c, r⟩ := e
  cases c with
  | publish name =>
    cases r with
    | false => exact .inr (.inr ⟨rfl, rfl⟩)
    | true => exact .inl ⟨name, rfl⟩
  | commit =>
    cases r with
    | false => exact .inr (.inr ⟨rfl, rfl⟩)
    | true => exact .inr (.inl rfl)
  | writeFragment n =>
    refine .inr (.inr ⟨?_, rfl⟩)
    cases r with
    | false => rfl
    | true =>
      show (w.toFragment n).image = w.image
      unfold World.toFragment
      split <;> rfl
  | makeStage => cases r <;> exact .inr (.inr ⟨rfl, rfl⟩)
  | makeInner => cases r <;> exact .inr (.inr ⟨rfl, rfl⟩)
  | uploadFormat a => cases r <;> exact .inr (.inr ⟨rfl, rfl⟩)
  | waitForWriter a => cases r <;> exact .inr (.inr ⟨rfl, rfl⟩)
  | finishPayload a => cases r <;> exact .inr (.inr ⟨rfl, rfl⟩)
  | stagePayload a => cases r <;> exact .inr (.inr ⟨rfl, rfl⟩)
  | _ => exact .inr (.inr ⟨rfl, rfl⟩)

/-- Another name does not matter for a complete image when nothing had it. -/
lemma Lists.frame {gs : List Group} {image : Str → Option Entry} {s : Schema} {name : Str}
    {entry : Option Entry} (h : Lists gs image s) (hname : image name = none) :
    Lists gs (put image name entry) s := by
  have hput : ∀ {a c}, image a = some (.file c) → put image name entry a = some (.file c) := by
    intro a c ha
    have hne : a ≠ name := by
      rintro rfl
      rw [hname] at ha
      cases ha
    exact (put_other hne).trans ha
  have hlisted : ∀ {line lv}, Listed image line lv → Listed (put image name entry) line lv := by
    intro line lv hlv
    refine ⟨hlv.name, hlv.uuid, hlv.size, hlv.fs, ?_⟩
    have hartifact := hlv.artifact
    split at hartifact
    · rename_i hswap
      rw [if_pos hswap]
      exact hartifact
    · rename_i hswap
      rw [if_neg hswap]
      exact ⟨hartifact.1, hput hartifact.2⟩
  refine ⟨h.pvs, h.vgs, h.groups.imp fun g x hg => ?_, h.partitions, h.uuids, fun a ha => ?_,
    h.distinct⟩
  · exact ⟨hg.partition, hg.uuid, hg.vgUuid, hg.named, hg.pvs, hput hg.report, hput hg.backup,
      hg.lvs.imp fun _ _ hlv => hlisted hlv⟩
  · obtain ⟨c, hc⟩ := h.files a ha
    exact ⟨c, hput hc⟩

/-- A step that meets the contract and the condition keeps what a capture has to leave. -/
lemma Left.next {e : Sigma Call.Value} (h : Left sameText groups before w)
    (hmet : w.Met sameText groups e) (hclear : w.Clear e) :
    Left sameText groups before (w.next e) := by
  rcases next_image w e with ⟨name, rfl⟩ | rfl | ⟨himage, -⟩
  · obtain ⟨hmarker, hne, hpresent⟩ := hmet
    refine ⟨fun e he => ?_, fun other old hold => ?_⟩
    · have hnone : (w.toImage name).image schemaName = none := (put_other hne.symm).trans hmarker
      exact nomatch hnone.symm.trans he
    · have hkept := h.kept other old hold
      have hother : other ≠ name := by
        rintro rfl
        rw [hkept] at hpresent
        cases old with
        | link leads =>
          obtain rfl : leads = false := hpresent
          exact beq_eq_false_iff_ne.mp hclear hkept
        | file => cases hpresent
        | directory => cases hpresent
      exact (put_other hother).trans hkept
  · obtain ⟨hmarker, hmarks⟩ := hmet
    refine ⟨fun e he => ?_, fun other old hold => ?_⟩
    · change put w.image schemaName (w.combined.map fun s => .file (.schema s)) schemaName =
        some e at he
      rw [put_self] at he
      obtain ⟨s, hs, rfl⟩ := Option.map_eq_some_iff.mp he
      obtain ⟨gs, hgs, hlists⟩ := hmarks s hs
      exact ⟨s, rfl, gs, hgs, hlists.frame hmarker⟩
    · have hkept := h.kept other old hold
      have hother : other ≠ schemaName := by
        rintro rfl
        exact nomatch hmarker.symm.trans hkept
      exact (put_other hother).trans hkept
  · refine ⟨fun e he => ?_, fun other old hold => ?_⟩
    · rw [himage] at he ⊢
      exact h.marker e he
    · rw [himage]
      exact h.kept other old hold

/-- What is old in the directory of the image was there before. -/
def World.Within (before : Str → Option Old) (w : World) : Prop :=
  ∀ name old, w.image name = some (.old old) → before name = some old

/-- Something is no longer there. -/
def World.Lost (before : Str → Option Old) (w : World) : Prop :=
  ∃ name old, before name = some old ∧ ∀ old', w.image name ≠ some (.old old')

/-- What a command gives a name to is not old. -/
lemma next_old {e : Sigma Call.Value} {name : Str} {old : Old}
    (h : (w.next e).image name = some (.old old)) : w.image name = some (.old old) := by
  have hfile : ∀ {f : Str → Option Entry} {target : Str} {α : Type} {o : Option α} {c : α → Content},
      put f target (o.map fun a => Entry.file (c a)) name = some (.old old) →
        f name = some (.old old) := by
    intro f target α o c hput
    by_cases heq : name = target
    · subst heq
      rw [put_self] at hput
      obtain ⟨a, -, ha⟩ := Option.map_eq_some_iff.mp hput
      cases ha
    · exact (put_other heq).symm.trans hput
  rcases next_image w e with ⟨target, rfl⟩ | rfl | ⟨himage, -⟩
  · exact hfile (c := id) h
  · exact hfile h
  · rw [← himage]
    exact h

lemma World.Within.next (h : w.Within before) (e : Sigma Call.Value) :
    (w.next e).Within before := fun name old hold => h name old (next_old hold)

lemma World.Lost.next (h : w.Lost before) (e : Sigma Call.Value) : (w.next e).Lost before := by
  obtain ⟨name, old, hbefore, hlost⟩ := h
  exact ⟨name, old, hbefore, fun old' hold => hlost old' (next_old hold)⟩

/-- A step against the condition loses the link. -/
lemma lost_of_not_clear {e : Sigma Call.Value} (hwithin : w.Within before) (h : ¬w.Clear e) :
    (w.next e).Lost before := by
  rcases next_image w e with ⟨name, rfl⟩ | rfl | ⟨-, hclear⟩
  · have hlink : w.image name = some (.old (.link false)) := by
      by_contra hne
      exact h (beq_eq_false_iff_ne.mpr hne)
    refine ⟨name, _, hwithin name _ hlink, fun old' hold => ?_⟩
    have hput : (w.stage name).map Entry.file = some (.old old') :=
      (put_self _ _ _).symm.trans hold
    obtain ⟨c, -, hc⟩ := Option.map_eq_some_iff.mp hput
    cases hc
  · exact absurd rfl h
  · exact absurd hclear h

end Steps

/-! ### Runs -/

section Runs

variable {sameText : Str → Str → Bool} {groups : List Group} {before : Str → Option Old} {w : World}
  {τ : List (Sigma Call.Value)}

lemma left_start (h : before schemaName = none) :
    Left sameText groups before (World.start before) := by
  refine ⟨fun e he => ?_, fun name old hold => ?_⟩
  · have hnone : (World.start before).image schemaName = none := by
      show (before schemaName).map Entry.old = none
      rw [h, Option.map_none]
    exact nomatch hnone.symm.trans he
  · show (before name).map Entry.old = some (.old old)
    rw [hold, Option.map_some]

lemma within_start : (World.start before).Within before := by
  intro name old hold
  obtain ⟨old', hbefore, heq⟩ := Option.map_eq_some_iff.mp hold
  exact Entry.old.inj heq ▸ hbefore

/-- A run that keeps everything meets the condition. -/
lemma clear_of_kept (hwithin : w.Within before)
    (hkept : ¬((contract sameText groups).after w τ).Lost before) :
    (contract sameText groups).Along World.Clear w τ := by
  induction τ generalizing w with
  | nil => trivial
  | cons e τ ih =>
    refine ⟨?_, ih (hwithin.next e) hkept⟩
    by_contra hclear
    have hlost : (w.next e).Lost before := lost_of_not_clear hwithin hclear
    have hall := Contract.along_of_forall (contract sameText groups) (P := fun _ _ => True)
      (fun _ _ => trivial) (w.next e) τ
    exact hkept (hall.keeps _ (fun w e _ h => h.next e) hlost)

/-- **The schema marks a complete image, and nothing is replaced.**  In every run of a capture into
a directory without a schema, whatever fails, and wherever the run is cut: the schema is there only
when it lists every group with its files, all of which are there, and everything that was there
before is still there, if and only if no file is moved to the name of a symbolic link that leads
nowhere. -/
theorem captureLvmVolumes_left_iff (sameText : Str → Str → Bool) (count : ℕ) (groups : List Group)
    (before : Str → Option Old) (v : Vars) (hmarker : before schemaName = none)
    {τ : List (Sigma Call.Value)} {o : Option (Except ℕ ℕ × Vars)}
    (hr : Prog.Runs (Script.status (captureLvmVolumes sameText count groups) v) τ o)
    (hanswers : (contract sameText groups).Along (World.Answers sameText) (World.start before) τ) :
    Left sameText groups before ((contract sameText groups).after (World.start before) τ) ↔
      (contract sameText groups).Along World.Clear (World.start before) τ := by
  have himage : (World.start before).image schemaName = none := by
    show (before schemaName).map Entry.old = none
    rw [hmarker, Option.map_none]
  have hsafe : Script.Holds (contract sameText groups)
      (Script.status (captureLvmVolumes sameText count groups)) v (World.start before)
      (fun _ _ _ => True) Stopped :=
    Script.holds_status ((holds_captureLvmVolumes himage).mono (fun _ _ _ _ => trivial)
      fun _ _ _ _ => trivial)
  have hmet := (hsafe.along hr hanswers).1
  constructor
  · intro hleft
    refine clear_of_kept within_start ?_
    rintro ⟨name, old, hbefore, hlost⟩
    exact hlost old (hleft.kept name old hbefore)
  · intro hclear
    exact (hmet.and _ hclear).keeps _ (fun w e h hleft => hleft.next h.1 h.2) (left_start hmarker)

end Runs

/-! ### Two groups -/

/-- Two groups: one with a volume for swap, and one that has one volume. -/
def sampleGroups : List Group :=
  [⟨"3".toList, "/dev/sda3".toList, "P3".toList, "vg0".toList, "V0".toList, "4096".toList,
      "1024".toList, "512".toList, "0".toList,
      "root|R0|/dev/vg0/root|2048|ext4\nswap|S0|/dev/vg0/swap|1024|swap\n".toList⟩,
    ⟨"4".toList, "/dev/sda4".toList, "P4".toList, "vg1".toList, "V1".toList, "8192".toList,
      "1024".toList, "512".toList, "0".toList, "home|H1|/dev/vg1/home|4096|ext4\n".toList⟩]

/-- An image of another partition, and what has the name of the report on a physical volume. -/
def sampleBefore (report : Option Old) (name : Str) : Option Old :=
  if name = "d1p1.img".toList then some .file
  else if name = "d1p3.lvm.pv.meta".toList then report
  else none

/-- The schema of both. -/
def sampleSchema : Schema :=
  mergeSchemas (sampleGroups.map fun g => groupSchema g
    (((endedLines g.lvFacts).filterMap readVolume).map fun v =>
      if v.fs = swapWord then ⟨v.name, v.uuid, v.size, v.size, v.fs, [], "S".toList⟩
      else ⟨v.name, v.uuid, v.size, v.size, v.fs, lvArtifact g.number v.name, []⟩))

/-- Every command succeeds, and no file is there that is in the way. -/
def sampleEnv (_ : List (Sigma Call.Value)) : (c : Call) → c.Value
  | .manifestReadable => true
  | .factsReadable _ => true
  | .prepare _ => none
  | .imageHas _ => false
  | .makeStage => true
  | .chmodStage => true
  | .fragmentReadable _ => true
  | .merge _ => some sampleSchema
  | .checkCombined => true
  | .listArtifacts => true
  | .stageReadable _ => true
  | .publish _ => true
  | .commit => true
  | .cleanupGroups => true
  | .cleanupStage => true
  | .makeStatusFile => true
  | .makeInner => true
  | .activateVg _ _ => 0
  | .deactivateVg _ _ => true
  | .displayMetadata => 0
  | .pvdisplay _ _ => true
  | .vgcfgbackup _ _ => true
  | .startRows => true
  | .appendRow _ => true
  | .removeRows => true
  | .swapUuid _ => "S".toList
  | .fsType path => if path = "/dev/vg0/swap".toList then swapWord else "ext4".toList
  | .xfsPreflight _ => none
  | .removeFifo => true
  | .progressPrepare => true
  | .progressAbort => true
  | .progressWait => true
  | .uploadFormat _ => true
  | .partclone _ _ => true
  | .waitForWriter _ => true
  | .finishPayload _ => true
  | .writeSchema _ => 0
  | .checkSchema => true
  | .stageHas _ => false
  | .stagePayload _ => true
  | .fragmentHas _ => false
  | .writeFragment _ => true
  | .removeInner => true
  | .removeStatusFile => true

/-- What the tests see and `jq` merges. -/
def World.agrees (w : World) : Sigma Call.Value → Bool
  | ⟨.imageHas name, there⟩ => there == present (w.image name)
  | ⟨.stageReadable name, there⟩ => there == (w.stage name).isSome
  | ⟨.stageHas name, there⟩ => there == (w.stage name).isSome
  | ⟨.fragmentReadable number, there⟩ => there == (w.fragments number).isSome
  | ⟨.fragmentHas number, there⟩ => there == (w.fragments number).isSome
  | ⟨.merge numbers, schema⟩ => schema == (numbers.mapM w.fragments).map mergeSchemas
  | ⟨.prepare _, prepared⟩ => prepared == none
  | ⟨.publish name, _⟩ => (w.stage name).isSome
  | ⟨.commit, _⟩ => w.combined.isSome
  | ⟨.finishPayload artifact, _⟩ => (w.inner (sliceOf artifact)).isSome
  | ⟨.stagePayload name, _⟩ => (w.inner name).isSome
  | ⟨.writeFragment _, _⟩ => (w.inner schemaName).isSome
  | _ => true

lemma answers_of_agrees {sameText : Str → Str → Bool} {w : World} {e : Sigma Call.Value}
    (h : w.agrees e = true) : w.Answers sameText e := by
  obtain ⟨c, r⟩ := e
  cases c with
  | imageHas name => exact beq_iff_eq.mp h
  | stageReadable name => exact beq_iff_eq.mp h
  | stageHas name => exact beq_iff_eq.mp h
  | fragmentReadable number => exact beq_iff_eq.mp h
  | fragmentHas number => exact beq_iff_eq.mp h
  | merge numbers =>
    intro s hs
    have hmerged : r = (numbers.mapM w.fragments).map mergeSchemas := beq_iff_eq.mp h
    obtain ⟨schemas, hschemas, rfl⟩ := Option.map_eq_some_iff.mp (hmerged.symm.trans hs)
    exact ⟨schemas, mapM_some hschemas, rfl⟩
  | prepare facts =>
    intro f hf
    have hnone : r = none := beq_iff_eq.mp h
    exact nomatch hnone.symm.trans hf
  | publish name => exact fun _ => h
  | commit => exact fun _ => h
  | finishPayload artifact => exact fun _ => h
  | stagePayload name => exact fun _ => h
  | writeFragment number => exact fun _ => h
  | _ => trivial

def sampleContract : Contract Call.Value World := contract (fun s t => s = t) sampleGroups

def sampleVars : Vars := ⟨[], false, false, none, ([], []), false⟩

def sampleRun : List (Sigma Call.Value) × Option (Except ℕ ℕ × Vars) :=
  (Script.status (captureLvmVolumes (fun s t => s = t) 2 sampleGroups) sampleVars).exec sampleEnv []

/-- The directories behind the run. -/
def sampleAfter (report : Option Old) : World :=
  sampleContract.after (World.start (sampleBefore report)) sampleRun.1

/-- A link that leads nowhere is not in the way either. -/
lemma sampleRun_answers {report : Option Old} (h : report ∈ [none, some (.link false)]) :
    sampleContract.Along (World.Answers fun s t => s = t) (World.start (sampleBefore report))
      sampleRun.1 := by
  have hagrees : ∀ report ∈ [none, some (Old.link false)], sampleContract.Along
      (fun w e => w.agrees e = true) (World.start (sampleBefore report)) sampleRun.1 := by
    decide +kernel
  exact (hagrees report h).mono _ fun _ _ => answers_of_agrees

/-- Both groups are captured beside the image of another partition. -/
theorem captureLvmVolumes_left_iff_sample :
    (sampleAfter none).image schemaName = some (.file (.schema sampleSchema)) ∧
      Left (fun s t => s = t) sampleGroups (sampleBefore none) (sampleAfter none) :=
  ⟨by decide +kernel,
    (captureLvmVolumes_left_iff (fun s t => s = t) 2 sampleGroups (sampleBefore none) sampleVars
      (by decide) (Prog.runs_exec sampleEnv _ []) (sampleRun_answers (by decide))).mpr
      (by
        show sampleContract.Along World.Clear (World.start (sampleBefore none)) sampleRun.1
        decide +kernel)⟩

/-- A link that has the name of a report and leads nowhere is replaced. -/
theorem captureLvmVolumes_replaces_link :
    ¬∀ (sameText : Str → Str → Bool) (count : ℕ) (groups : List Group) (before : Str → Option Old)
      (v : Vars) (τ : List (Sigma Call.Value)) (o : Option (Except ℕ ℕ × Vars)),
      before schemaName = none →
      Prog.Runs (Script.status (captureLvmVolumes sameText count groups) v) τ o →
      (contract sameText groups).Along (World.Answers sameText) (World.start before) τ →
      Left sameText groups before ((contract sameText groups).after (World.start before) τ) := by
  intro h
  have hleft : Left (fun s t => s = t) sampleGroups (sampleBefore (some (.link false)))
      (sampleAfter (some (.link false))) :=
    h _ 2 _ _ sampleVars _ _ (by decide) (Prog.runs_exec sampleEnv _ [])
      (sampleRun_answers (by decide))
  have hkept := hleft.kept "d1p3.lvm.pv.meta".toList (.link false) (by decide)
  have hreplaced : (sampleAfter (some (.link false))).image "d1p3.lvm.pv.meta".toList =
      some (.file (.pvReport "/dev/sda3".toList)) := by decide +kernel
  exact nomatch hreplaced.symm.trans hkept

end Pxeos.Groups
