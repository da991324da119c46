import Pxeos.Groups.Directories

/-!
# What the executor leaves

An executor that succeeds leaves the schema of its group beside the manifest, and whatever it adds
to the directory that the groups share is the file of that name of its group.  The invariant is
`Inner`: what is in the directory of the executor is the schema, what a writer writes, or such a
file.
-/

namespace Pxeos.Groups

open Pxeos.Lib
open Pxeos.Lib.Script (Holds)
open Pxeos.Lvm (lvmCaptureLvFactsPrepared)

/-! ### Names -/

section Names

variable {n n' name name' : Str}

lemma dot_notMem (hn : isPositive n = true) : '.' ∉ n := notMem_of_isPositive hn rfl

/-- What stands before the first dot behind the prefix. -/
lemma number_inj {s t : Str} (hn : isPositive n = true) (hn' : isPositive n' = true)
    (h : "d1p".toList ++ (n ++ '.' :: s) = "d1p".toList ++ (n' ++ '.' :: t)) : n = n' ∧ s = t :=
  cut_inj (dot_notMem hn) (dot_notMem hn') (List.append_cancel_left h)

lemma pvArtifact_eq (n : Str) :
    pvArtifact n = "d1p".toList ++ (n ++ '.' :: "lvm.pv.meta".toList) := by
  unfold pvArtifact
  rw [List.append_assoc]
  rfl

lemma vgArtifact_eq (n : Str) :
    vgArtifact n = "d1p".toList ++ (n ++ '.' :: "lvm.vg.cfg".toList) := by
  unfold vgArtifact
  rw [List.append_assoc]
  rfl

lemma lvArtifact_eq (n name : Str) :
    lvArtifact n name =
      "d1p".toList ++ (n ++ '.' :: ("lvm.lv.".toList ++ (name ++ ".img".toList))) := by
  unfold lvArtifact
  simp only [List.append_assoc]
  rfl

lemma lvArtifact_inj (hn : isPositive n = true) (h : lvArtifact n name = lvArtifact n name') :
    name = name' := by
  rw [lvArtifact_eq, lvArtifact_eq] at h
  exact List.append_cancel_right (List.append_cancel_left (number_inj hn hn h).2)

lemma lvArtifact_ne_pvArtifact (hn : isPositive n = true) : lvArtifact n name ≠ pvArtifact n := by
  rw [lvArtifact_eq, pvArtifact_eq]
  intro h
  have htail := (number_inj hn hn h).2
  simp at htail

lemma lvArtifact_ne_vgArtifact (hn : isPositive n = true) : lvArtifact n name ≠ vgArtifact n := by
  rw [lvArtifact_eq, vgArtifact_eq]
  intro h
  have htail := (number_inj hn hn h).2
  simp at htail

lemma pvArtifact_ne_vgArtifact (hn : isPositive n = true) : pvArtifact n ≠ vgArtifact n := by
  rw [pvArtifact_eq, vgArtifact_eq]
  intro h
  have htail := (number_inj hn hn h).2
  simp at htail

lemma lvArtifact_ne_nil (n name : Str) : lvArtifact n name ≠ [] := by
  rw [lvArtifact_eq]
  simp

/-- A name of an artifact, which is neither that of the schema nor one that a writer writes to. -/
structure Final (name : Str) : Prop where
  schema : name ≠ schemaName
  slice : ∀ artifact, name ≠ sliceOf artifact
  trim : lvmTrim name = name

lemma final_of_eq {s : Str} {c : Char} (hc : isSpace c = false) (hzero : c ≠ '0')
    (h : name = "d1p".toList ++ (s ++ [c])) : Final name := by
  have hd1p : "d1p".toList = ['d', '1', 'p'] := rfl
  rw [hd1p] at h
  subst h
  have hname : ['d', '1', 'p'] ++ (s ++ [c]) = (['d', '1', 'p'] ++ s) ++ [c] :=
    (List.append_assoc _ _ _).symm
  refine ⟨fun h => ?_, fun artifact h => ?_, ?_⟩
  · have hschema : schemaName = 'd' :: '1' :: '.' :: "lvm.schema.json".toList := rfl
    rw [hschema] at h
    exact absurd (List.cons.inj (List.cons.inj (List.cons.inj h).2).2).1 (by decide)
  · have hslice : sliceOf artifact = (artifact ++ ['.', '0', '0']) ++ ['0'] := by
      unfold sliceOf
      rw [List.append_assoc]
      rfl
    rw [hname, hslice] at h
    exact hzero (List.append_inj' h rfl |>.2 |> List.cons.inj).1
  · have hfirst : (['d', '1', 'p'] ++ (s ++ [c])).dropWhile isSpace =
        ['d', '1', 'p'] ++ (s ++ [c]) :=
      List.dropWhile_cons_of_neg (by decide)
    unfold lvmTrim
    rw [hfirst, hname, List.rdropWhile_concat_neg _ _ _ (by rw [hc]; decide)]

lemma final_pvArtifact (n : Str) : Final (pvArtifact n) := by
  refine final_of_eq (s := n ++ '.' :: "lvm.pv.met".toList) (c := 'a') rfl (by decide) ?_
  rw [pvArtifact_eq, List.append_assoc]
  rfl

lemma final_vgArtifact (n : Str) : Final (vgArtifact n) := by
  refine final_of_eq (s := n ++ '.' :: "lvm.vg.cf".toList) (c := 'g') rfl (by decide) ?_
  rw [vgArtifact_eq, List.append_assoc]
  rfl

lemma final_lvArtifact (n name : Str) : Final (lvArtifact n name) := by
  refine final_of_eq (s := n ++ '.' :: ("lvm.lv.".toList ++ (name ++ ".im".toList)))
    (c := 'g') rfl (by decide) ?_
  rw [lvArtifact_eq]
  simp only [List.append_assoc, List.cons_append]
  rfl

end Names

/-! ### The files of a group -/

/-- The volumes of a group that are not for swap. -/
def Group.volumes (g : Group) : List Volume :=
  ((endedLines g.lvFacts).filterMap readVolume).filter fun v => v.fs != swapWord

/-- The files of a group, and what they have to hold. -/
def Group.payloads (g : Group) : List (Str × Content) :=
  (pvArtifact g.number, .pvReport g.pvPath) :: (vgArtifact g.number, .vgBackup g.vgName) ::
    g.volumes.map fun v => (lvArtifact g.number v.name, .volume v.path)

variable {g : Group}

lemma mem_volumes {line : Str} {v : Volume} (hline : line ∈ endedLines g.lvFacts)
    (hread : readVolume line = some v) (hfs : v.fs ≠ swapWord) : v ∈ g.volumes :=
  List.mem_filter.mpr ⟨List.mem_filterMap.mpr ⟨line, hline, hread⟩, bne_iff_ne.mpr hfs⟩

lemma mem_payloads_volume {v : Volume} (h : v ∈ g.volumes) :
    (lvArtifact g.number v.name, Content.volume v.path) ∈ g.payloads :=
  List.mem_cons_of_mem _ (List.mem_cons_of_mem _
    (List.mem_map_of_mem (f := fun v => (lvArtifact g.number v.name, Content.volume v.path)) h))

lemma final_of_mem_payloads {a : Str} {c : Content} (h : (a, c) ∈ g.payloads) : Final a := by
  unfold Group.payloads at h
  rw [List.mem_cons, List.mem_cons, List.mem_map] at h
  rcases h with h | h | ⟨v, -, h⟩
  · rw [(Prod.mk.inj h).1]
    exact final_pvArtifact _
  · rw [(Prod.mk.inj h).1]
    exact final_vgArtifact _
  · rw [← (Prod.mk.inj h).1]
    exact final_lvArtifact _ _

/-! ### Commands -/

section Commands

variable {sameText : Str → Str → Bool} {groups : List Group} {vars : Vars} {w : World}

lemma holds_command {c : Call} {Q : c.Value → Vars → World → Prop} {E : ℕ → Vars → World → Prop}
    (hmet : ∀ r, w.Met sameText groups ⟨c, r⟩)
    (h : ∀ r, w.Answers sameText ⟨c, r⟩ → Q r vars (w.next ⟨c, r⟩)) :
    Holds (contract sameText groups) (ask c) vars w Q E :=
  Script.holds_ask fun r hr => ⟨hmet r, h r hr⟩

/-- A command that does nothing to the directories. -/
lemma holds_quiet {c : Call} {Q : c.Value → Vars → World → Prop} {E : ℕ → Vars → World → Prop}
    (hmet : ∀ r, w.Met sameText groups ⟨c, r⟩) (hnext : ∀ r, w.next ⟨c, r⟩ = w)
    (h : ∀ r, w.Answers sameText ⟨c, r⟩ → Q r vars w) :
    Holds (contract sameText groups) (ask c) vars w Q E :=
  holds_command hmet fun r hr => (hnext r).symm ▸ h r hr

lemma holds_check {b : Bool} {Q : Unit → Vars → World → Prop} {E : ℕ → Vars → World → Prop}
    (hE : E 1 vars w) (h : b = true → Q () vars w) :
    Holds (contract sameText groups) (check b) vars w Q E := by
  unfold check
  split
  · exact Script.holds_pure (h ‹_›)
  · exact Script.holds_exit hE

/-- An exit that is no success. -/
def Failed (n : ℕ) (_ : Vars) (_ : World) : Prop := n ≠ 0

lemma failed_one (vars : Vars) (w : World) : Failed 1 vars w := Nat.one_ne_zero

lemma holds_fail {α : Type} {code reason : Str} {Q : α → Vars → World → Prop} :
    Holds (contract sameText groups) (fail code reason) vars w Q Failed :=
  .seq (Script.holds_set (Script.holds_exit (failed_one _ _)))

/-- A command that does nothing to the directories, and the end. -/
lemma holds_quiet_exit {α : Type} {c : Call} {n : ℕ} {Q : α → Vars → World → Prop}
    (hn : n ≠ 0) (hmet : ∀ r, w.Met sameText groups ⟨c, r⟩) :
    Holds (contract sameText groups)
      (do
        let _ ← ask c
        Script.exit n) vars w Q Failed :=
  .seq (holds_command hmet fun _ _ => Script.holds_exit hn)

lemma holds_failCopy {code reason : Str} {Q : Unit → Vars → World → Prop} :
    Holds (contract sameText groups) (failCopy code reason) vars w Q Failed :=
  .seq (Script.holds_set (holds_quiet_exit Nat.one_ne_zero fun _ => trivial))

end Commands

/-! ### The directory of the executor -/

/-- What an executor has in its directory: the schema of the group, what a writer writes to, or a
file of the group. -/
def Allowed (g : Group) (s : Option Schema) (a : Str) (c : Content) : Prop :=
  (a = schemaName ∧ ∃ schema, s = some schema ∧ c = .schema schema) ∨ (∃ b, a = sliceOf b) ∨
    (a, c) ∈ g.payloads

def Inner (g : Group) (s : Option Schema) (files : Str → Option Content) : Prop :=
  ∀ a c, files a = some c → Allowed g s a c

/-- The executor has changed nothing outside. -/
structure Working (g : Group) (s : Option Schema) (w₀ w : World) : Prop where
  image : w.image = w₀.image
  stage : w.stage = w₀.stage
  fragments : w.fragments = w₀.fragments
  inner : Inner g s w.inner

section Working

variable {s : Option Schema} {w₀ w : World} {a : Str} {c : Content}

/-- A file that is there is one of the group. -/
lemma Inner.mem {files : Str → Option Content} (h : Inner g s files) (ha : Final a)
    (hc : files a = some c) : (a, c) ∈ g.payloads := by
  rcases h a c hc with ⟨hschema, -⟩ | ⟨b, hslice⟩ | hmem
  · exact absurd hschema ha.schema
  · exact absurd hslice (ha.slice b)
  · exact hmem

lemma Inner.put {files : Str → Option Content} {content : Option Content} (h : Inner g s files)
    (hnew : ∀ c, content = some c → Allowed g s a c) : Inner g s (put files a content) := by
  intro a' c hc
  by_cases ha : a' = a
  · subst ha
    rw [put_self] at hc
    exact hnew c hc
  · rw [put_other ha] at hc
    exact h a' c hc

lemma Inner.empty : Inner g s fun _ => none := fun _ _ hc => nomatch hc

/-- A file is written that the directory may have. -/
lemma Working.write (h : Working g s w₀ w) (hnew : Allowed g s a c) :
    Working g s w₀ (w.write a c true) where
  image := h.image
  stage := h.stage
  fragments := h.fragments
  inner := h.inner.put fun _ hc => Option.some.inj hc ▸ hnew

/-- The image of a volume gets its name. -/
lemma Working.rename {path : Str} (h : Working g s w₀ w)
    (hslice : w.inner (sliceOf a) = some (.volume path)) (hmem : (a, .volume path) ∈ g.payloads) :
    Working g s w₀ (w.renameInner (sliceOf a) a) where
  image := h.image
  stage := h.stage
  fragments := h.fragments
  inner := by
    refine (h.inner.put fun c hc => ?_).put nofun
    rw [hslice] at hc
    exact Option.some.inj hc ▸ .inr (.inr hmem)

end Working

/-! ### The first half -/

section Capture

variable {sameText : Str → Str → Bool} {groups : List Group} {vars : Vars} {w₀ w : World}

lemma holds_testXfs {v : Volume} {Q : Unit → Vars → World → Prop} (h : Q () vars w) :
    Holds (contract sameText groups) (testXfs v) vars w Q Failed := by
  unfold testXfs
  split
  · refine .seq (holds_quiet (fun _ => trivial) (fun _ => rfl) fun r _ => ?_)
    cases r with
    | none => exact Script.holds_pure h
    | some reason => exact holds_fail
  · exact Script.holds_pure h

lemma holds_prepareFifo {Q : Unit → Vars → World → Prop} (h : Q () vars w) :
    Holds (contract sameText groups) prepareFifo vars w Q Failed := by
  refine .seq (holds_quiet (fun _ => trivial) (fun _ => rfl) fun r _ => ?_)
  refine .seq (holds_check (failed_one _ _) fun _ => ?_)
  refine .seq (holds_quiet (fun _ => trivial) (fun _ => rfl) fun ready _ => ?_)
  cases ready with
  | false => exact holds_quiet_exit Nat.one_ne_zero fun _ => trivial
  | true => exact Script.holds_pure h

lemma holds_startWriter {a : Str} {Q : Unit → Vars → World → Prop} (hw : Working g none w₀ w)
    (h : ∀ w', Working g none w₀ w' → Q () vars w') :
    Holds (contract sameText groups) (startWriter a) vars w Q Failed := by
  refine .seq (holds_command (fun _ => trivial) fun started _ => ?_)
  cases started with
  | false =>
    refine .seq (holds_command (fun _ => trivial) fun _ _ => ?_)
    exact holds_quiet_exit Nat.one_ne_zero fun _ => trivial
  | true => exact Script.holds_pure (h _ (hw.write (.inr (.inl ⟨a, rfl⟩))))

/-- The writer has written what `partclone` has read of the volume. -/
lemma holds_transfer {v : Volume} {a : Str} {Q : Unit → Vars → World → Prop}
    (hw : Working g none w₀ w)
    (h : ∀ w', Working g none w₀ w' → w'.inner (sliceOf a) = some (.volume v.path) →
      Q () vars w') :
    Holds (contract sameText groups) (transfer v a) vars w Q Failed := by
  refine .seq (holds_command (fun _ => trivial) fun producer _ => ?_)
  refine .seq (holds_quiet (fun _ => trivial) (fun _ => rfl) fun decoder _ => ?_)
  refine .seq (holds_command (fun _ => trivial) fun writer _ => ?_)
  cases producer with
  | false => exact holds_failCopy
  | true =>
    cases decoder with
    | false => exact holds_failCopy
    | true =>
      cases writer with
      | false => exact holds_failCopy
      | true =>
        have hcloned : Working g none w₀ { w with cloned := some v.path } :=
          ⟨hw.image, hw.stage, hw.fragments, hw.inner⟩
        exact Script.holds_pure (h _ (hcloned.write (.inr (.inl ⟨a, rfl⟩))) (write_self _ _ _))

/-- The image of a volume comes to its file. -/
lemma holds_copyVolume {v : Volume} {Q : Unit → Vars → World → Prop} (hv : v ∈ g.volumes)
    (hw : Working g none w₀ w) (h : ∀ w', Working g none w₀ w' → Q () vars w') :
    Holds (contract sameText groups) (copyVolume v (lvArtifact g.number v.name)) vars w Q
      Failed := by
  refine .seq (holds_testXfs ?_)
  refine .seq (holds_prepareFifo ?_)
  refine .seq (holds_startWriter hw fun w₁ hw₁ => ?_)
  refine .seq (holds_transfer hw₁ fun w₂ hw₂ hslice => ?_)
  refine .seq (holds_command (fun _ => trivial) fun finished _ => ?_)
  cases finished with
  | false => exact holds_check (failed_one _ _) nofun
  | true =>
    exact holds_check (failed_one _ _) fun _ =>
      h _ (hw₂.rename hslice (mem_payloads_volume hv))

/-- The row of a volume. -/
def RowOf (g : Group) (line : Str) (row : Row) : Prop :=
  ∃ v, readVolume line = some v ∧ ∃ swapUuid, row = ⟨v.name, v.uuid, v.size, v.size, v.fs,
    if v.fs = swapWord then [] else lvArtifact g.number v.name, swapUuid⟩

lemma holds_appendRow {v : Volume} {a swapUuid : Str} {Q : Unit → Vars → World → Prop}
    (h : Q () { vars with
      rows := vars.rows ++ [⟨v.name, v.uuid, v.size, v.size, v.fs, a, swapUuid⟩] } w) :
    Holds (contract sameText groups) (appendRow v a swapUuid) vars w Q Failed := by
  refine .seq (holds_quiet (fun _ => trivial) (fun _ => rfl) fun r _ => ?_)
  refine .seq (holds_check (failed_one _ _) fun _ => ?_)
  exact Script.holds_set h

lemma holds_captureVolume {line : Str} {Q : Unit → Vars → World → Prop}
    (hline : line ∈ endedLines g.lvFacts) (hw : Working g none w₀ w)
    (h : ∀ row w', RowOf g line row → Working g none w₀ w' →
      Q () { vars with rows := vars.rows ++ [row] } w') :
    Holds (contract sameText groups) (captureVolume g line) vars w Q Failed := by
  unfold captureVolume
  cases hread : readVolume line with
  | none => exact Script.holds_exit (failed_one _ _)
  | some v =>
    dsimp only
    split
    · rename_i hswap
      refine .seq (holds_quiet (fun _ => trivial) (fun _ => rfl) fun uuid _ => ?_)
      refine .seq (holds_check (failed_one _ _) fun _ => ?_)
      exact holds_appendRow (h _ w ⟨v, hread, uuid, by rw [if_pos hswap]⟩ hw)
    · rename_i hswap
      refine .seq (holds_check (failed_one _ _) fun _ => ?_)
      refine .seq (holds_copyVolume (mem_volumes hline hread hswap) hw fun w' hw' => ?_)
      exact holds_appendRow (h _ w' ⟨v, hread, [], by rw [if_neg hswap]⟩ hw')

/-- All volumes are captured. -/
lemma holds_captureVolumes {Q : Unit → Vars → World → Prop} (hrows : vars.rows = [])
    (hw : Working g none w₀ w)
    (h : ∀ vars' w', List.Forall₂ (RowOf g) (endedLines g.lvFacts) vars'.rows →
      Working g none w₀ w' → Q () vars' w') :
    Holds (contract sameText groups) (Script.forEach (endedLines g.lvFacts) (captureVolume g)) vars
      w Q Failed := by
  refine (Script.holds_forEach (fun rest v w' => ∃ done, endedLines g.lvFacts = done ++ rest ∧
    List.Forall₂ (RowOf g) done v.rows ∧ Working g none w₀ w') ?_ _ ?_).mono ?_ fun _ _ _ h => h
  · rintro line rest v w' ⟨done, hlines, hdone, hw'⟩
    have hline : line ∈ endedLines g.lvFacts := by
      rw [hlines]
      exact List.mem_append_right _ List.mem_cons_self
    refine holds_captureVolume hline hw' fun row w'' hrow hw'' => ⟨done ++ [line], ?_, ?_, hw''⟩
    · rw [hlines, List.append_assoc]
      rfl
    · exact List.rel_append hdone (.cons hrow .nil)
  · exact ⟨[], rfl, hrows ▸ .nil, hw⟩
  · rintro _ v w' ⟨done, hlines, hdone, hw'⟩
    rw [List.append_nil] at hlines
    exact h v w' (hlines ▸ hdone) hw'

lemma holds_activateLvmVg {Q : Unit → Vars → World → Prop} (h : Q () vars w) :
    Holds (contract sameText groups) (activateLvmVg g) vars w Q Failed := by
  refine .seq (holds_quiet (fun _ => trivial) (fun _ => rfl) fun status _ => ?_)
  split
  · exact Script.holds_pure h
  · rename_i hstatus
    exact holds_quiet_exit hstatus fun _ => trivial

lemma holds_collectDisplayMetadata {Q : Unit → Vars → World → Prop} (h : Q () vars w) :
    Holds (contract sameText groups) collectDisplayMetadata vars w Q Failed := by
  refine .seq (holds_quiet (fun _ => trivial) (fun _ => rfl) fun status _ => ?_)
  split
  · exact holds_fail
  · exact Script.holds_pure h

/-- The schema of the group is written. -/
lemma holds_writeGroupSchema {s : Schema} {Q : Unit → Vars → World → Prop}
    (hw : Working g none w₀ w)
    (h : ∀ w', Working g (some s) w₀ w' → w'.inner schemaName = some (.schema s) →
      Q () vars w') :
    Holds (contract sameText groups) (writeGroupSchema s) vars w Q Failed := by
  refine .seq (holds_command (fun _ => trivial) fun status _ => ?_)
  split
  · rename_i hstatus
    subst hstatus
    refine .seq (holds_quiet (fun _ => trivial) (fun _ => rfl) fun r _ => ?_)
    refine holds_check (failed_one _ _) fun _ =>
      h (w.write schemaName (.schema s) true) ?_ (write_self _ _ _)
    have hwider : Working g (some s) w₀ w :=
      ⟨hw.image, hw.stage, hw.fragments, fun a c hc => (hw.inner a c hc).imp_left nofun⟩
    exact hwider.write (.inl ⟨rfl, s, rfl, rfl⟩)
  · exact holds_fail

/-- **The first half**: the directory of the executor has the schema of all volumes. -/
lemma holds_captureFiles {Q : Unit → Vars → World → Prop} (hrows : vars.rows = [])
    (hw : Working g none w₀ w)
    (h : ∀ rows vars' w', List.Forall₂ (RowOf g) (endedLines g.lvFacts) rows →
      Working g (some (groupSchema g rows)) w₀ w' →
      w'.inner schemaName = some (.schema (groupSchema g rows)) → Q () vars' w') :
    Holds (contract sameText groups) (captureFiles g) vars w Q Failed := by
  refine .seq (holds_check (failed_one _ _) fun _ => ?_)
  refine .seq (holds_activateLvmVg ?_)
  refine .seq (Script.holds_set ?_)
  refine .seq (holds_collectDisplayMetadata ?_)
  refine .seq (holds_command (fun _ => trivial) fun shown _ => ?_)
  cases shown with
  | false => exact .seq (holds_check (failed_one _ _) nofun)
  | true =>
    refine .seq (holds_check (failed_one _ _) fun _ => ?_)
    have hshown := hw.write (.inr (.inr (List.mem_cons_self (a := (pvArtifact g.number, _)))))
    refine .seq (holds_command (fun _ => trivial) fun saved _ => ?_)
    cases saved with
    | false => exact .seq (holds_check (failed_one _ _) nofun)
    | true =>
      refine .seq (holds_check (failed_one _ _) fun _ => ?_)
      have hsaved := hshown.write
        (.inr (.inr (List.mem_cons_of_mem _ (List.mem_cons_self (a := (vgArtifact g.number, _))))))
      refine .seq (holds_quiet (fun _ => trivial) (fun _ => rfl) fun r _ => ?_)
      refine .seq (holds_check (failed_one _ _) fun _ => ?_)
      refine .seq (holds_captureVolumes hrows hsaved fun vars' w' hall hw' => ?_)
      refine .seq (Script.holds_vars (.seq (holds_writeGroupSchema hw' fun w'' hw'' hschema => ?_)))
      refine .seq (holds_quiet (fun _ => trivial) (fun _ => rfl) fun r _ => ?_)
      exact holds_check (failed_one _ _) fun _ => h _ _ _ hall hw'' hschema

end Capture

/-! ### The second half -/

section Stage

variable {sameText : Str → Str → Bool} {groups : List Group} {vars : Vars} {w₀ w : World}
  {s : Schema}

lemma holds_cleanupVg {Q : Bool → Vars → World → Prop} {E : ℕ → Vars → World → Prop}
    (h : ∀ ok vars', Q ok vars' w) :
    Holds (contract sameText groups) (cleanupVg g) vars w Q E := by
  refine .seq (Script.holds_vars ?_)
  split
  · refine .seq (Script.holds_set ?_)
    refine .seq (holds_quiet (fun _ => trivial) (fun _ => rfl) fun off _ => ?_)
    cases off with
    | false => exact Script.holds_pure (h _ _)
    | true => exact .seq (Script.holds_set (Script.holds_pure (h _ _)))
  · exact Script.holds_pure (h _ _)

lemma holds_deactivateOrFail {Q : Unit → Vars → World → Prop} (h : ∀ vars', Q () vars' w) :
    Holds (contract sameText groups) (deactivateOrFail g) vars w Q Failed := by
  refine .seq (holds_cleanupVg fun ok vars' => ?_)
  cases ok with
  | false => exact holds_fail
  | true => exact Script.holds_pure (h vars')

/-- The files are on their way: what the groups share has more files of the group, and the schema
is still there. -/
structure Moving (g : Group) (s : Schema) (w₀ w : World) : Prop where
  image : w.image = w₀.image
  stage : ∀ a c, w.stage a = some c → w₀.stage a = some c ∨ (a, c) ∈ g.payloads
  fragments : w.fragments = w₀.fragments
  inner : Inner g (some s) w.inner
  schema : w.inner schemaName = some (.schema s)

lemma Working.moving (hw : Working g (some s) w₀ w)
    (hschema : w.inner schemaName = some (.schema s)) : Moving g s w₀ w :=
  ⟨hw.image, fun _ _ hc => .inl (hw.stage ▸ hc), hw.fragments, hw.inner, hschema⟩

lemma Moving.toStage {a : Str} (hw : Moving g s w₀ w) (ha : Final a)
    (hthere : (w.inner a).isSome = true) : Moving g s w₀ (w.toStage a) where
  image := hw.image
  fragments := hw.fragments
  inner := hw.inner.put nofun
  schema := (put_other ha.schema.symm).trans hw.schema
  stage := by
    intro a' c hc
    by_cases heq : a' = a
    · subst heq
      exact .inr (hw.inner.mem ha ((put_self _ _ _).symm.trans hc))
    · exact hw.stage a' c ((put_other heq).symm.trans hc)

/-- `mv … || return 1`, and what follows. -/
lemma holds_stagePayload {α : Type} {a : Str} {rest : Shell α} {Q : α → Vars → World → Prop}
    (hw : Moving g s w₀ w) (ha : Final a)
    (h : ∀ w', Moving g s w₀ w' → Holds (contract sameText groups) rest vars w' Q Failed) :
    Holds (contract sameText groups)
      (do
        check (← ask (.stagePayload a))
        rest) vars w Q Failed := by
  refine .seq (holds_command (fun _ => trivial) fun moved hmoved => ?_)
  cases moved with
  | false => exact .seq (holds_check (failed_one _ _) nofun)
  | true => exact .seq (holds_check (failed_one _ _) fun _ => h _ (hw.toStage ha (hmoved rfl)))

lemma holds_stageVolume {line : Str} {Q : Unit → Vars → World → Prop} (hw : Moving g s w₀ w)
    (h : ∀ w', Moving g s w₀ w' → Q () vars w') :
    Holds (contract sameText groups) (stageVolume g line) vars w Q Failed := by
  refine .seq (holds_quiet (fun _ => trivial) (fun _ => rfl) fun fs _ => ?_)
  split
  · exact Script.holds_pure (h w hw)
  · refine .seq (holds_command (fun _ => trivial) fun moved hmoved => ?_)
    cases moved with
    | false => exact holds_check (failed_one _ _) nofun
    | true =>
      exact holds_check (failed_one _ _) fun _ =>
        h _ (hw.toStage (final_lvArtifact _ _) (hmoved rfl))

lemma holds_stageLacks {names : List Str} {Q : Unit → Vars → World → Prop} (h : Q () vars w) :
    Holds (contract sameText groups) (Script.forEach names stageLacks) vars w Q Failed := by
  refine (Script.holds_forEach (fun _ v w' => v = vars ∧ w' = w) ?_ _ ⟨rfl, rfl⟩).mono ?_
    fun _ _ _ h => h
  · rintro name _ v w' hv
    refine .seq (holds_quiet (fun _ => trivial) (fun _ => rfl) fun there _ => ?_)
    exact holds_check (failed_one _ _) fun _ => hv
  · rintro _ v w' ⟨rfl, rfl⟩
    exact h

/-- What an executor leaves that succeeds. -/
structure Staged (g : Group) (w₀ w : World) : Prop where
  image : w.image = w₀.image
  stage : ∀ a c, w.stage a = some c → w₀.stage a = some c ∨ (a, c) ∈ g.payloads
  fresh : w₀.fragments g.number = none
  fragments : ∃ rows, List.Forall₂ (RowOf g) (endedLines g.lvFacts) rows ∧
    w.fragments = put w₀.fragments g.number (some (groupSchema g rows))

/-- **The second half.** -/
lemma holds_stageFiles {rows : List Row} {Q : Unit → Vars → World → Prop}
    (hrows : List.Forall₂ (RowOf g) (endedLines g.lvFacts) rows)
    (hw : Moving g (groupSchema g rows) w₀ w) (h : ∀ vars' w', Staged g w₀ w' → Q () vars' w') :
    Holds (contract sameText groups) (stageFiles g) vars w Q Failed := by
  refine .seq (holds_stageLacks ?_)
  refine .seq ?_
  refine (Script.holds_forEach (fun _ _ w' => Moving g (groupSchema g rows) w₀ w') ?_ _ hw).mono
    ?_ fun _ _ _ h => h
  · exact fun line _ v w' hw' => holds_stageVolume hw' fun _ hw'' => hw''
  · rintro _ v w₁ hw₁
    refine holds_stagePayload hw₁ (final_pvArtifact _) fun w₂ hw₂ => ?_
    refine holds_stagePayload hw₂ (final_vgArtifact _) fun w₃ hw₃ => ?_
    refine .seq (holds_deactivateOrFail fun vars' => ?_)
    refine .seq (holds_quiet (fun _ => trivial) (fun _ => rfl) fun there hthere => ?_)
    refine .seq (holds_check (failed_one _ _) fun hlacks => ?_)
    have hnone : w₀.fragments g.number = none := by
      obtain rfl : there = false := by simpa using hlacks
      have hsome : false = (w₃.fragments g.number).isSome := hthere
      rw [hw₃.fragments] at hsome
      exact Option.isNone_iff_eq_none.mp (Option.isSome_eq_false_iff.mp hsome.symm)
    refine .seq (holds_command (fun _ => trivial) fun written _ => ?_)
    cases written with
    | false => exact holds_check (failed_one _ _) nofun
    | true =>
      refine holds_check (failed_one _ _) fun _ => h vars' _ ?_
      have hnext : w₃.next ⟨.writeFragment g.number, true⟩ =
          { w₃ with
            fragments := put w₃.fragments g.number (some (groupSchema g rows)),
            inner := put w₃.inner schemaName none } := by
        show w₃.toFragment g.number = _
        unfold World.toFragment
        rw [hw₃.schema]
      rw [hnext]
      exact ⟨hw₃.image, hw₃.stage, hnone, rows, hrows, by rw [hw₃.fragments]⟩

lemma Staged.removeInner (h : Staged g w₀ w) (ok : Bool) :
    Staged g w₀ (w.next ⟨.removeInner, ok⟩) := ⟨h.image, h.stage, h.fresh, h.fragments⟩

/-- Behind the subshell, whatever it has exited with. -/
lemma holds_withCleanup {body : Shell Unit} {Q : Unit → Vars → World → Prop}
    (hbody : Holds (contract sameText groups) body vars w (fun _ _ w' => Staged g w₀ w') Failed)
    (h : ∀ vars' w', Staged g w₀ w' → Q () vars' w') :
    Holds (contract sameText groups) (withCleanup g body) vars w Q Failed := by
  have hstatus : Holds (contract sameText groups) (Script.status body) vars w
      (fun n _ w' => n = 0 → Staged g w₀ w') Failed :=
    Script.holds_status (hbody.mono (fun _ _ _ h _ => h) fun _ _ _ hn h0 => absurd h0 hn)
  refine hstatus.bind fun status vars' w' hstaged => ?_
  refine .seq (holds_quiet (fun _ => trivial) (fun _ => rfl) fun _ _ => ?_)
  refine .seq (holds_cleanupVg fun cleaned vars'' => ?_)
  cases cleaned with
  | true =>
    refine .seq (holds_command (fun _ => trivial) fun removed _ => ?_)
    split
    · rename_i h0
      exact Script.holds_pure (h _ _ ((hstaged h0).removeInner removed))
    · rename_i hne
      exact Script.holds_exit hne
  | false =>
    rw [if_neg Bool.false_ne_true]
    split
    · exact .seq (Script.holds_set (holds_quiet_exit Nat.one_ne_zero fun _ => trivial))
    · rename_i hne
      exact holds_quiet_exit hne fun _ => trivial

lemma holds_makeFiles {Q : Unit → Vars → World → Prop}
    (h : Q () vars { w with inner := fun _ => none }) :
    Holds (contract sameText groups) makeFiles vars w Q Failed := by
  refine .seq (holds_quiet (fun _ => trivial) (fun _ => rfl) fun r _ => ?_)
  refine .seq (holds_check (failed_one _ _) fun _ => ?_)
  refine .seq (holds_command (fun _ => trivial) fun made _ => ?_)
  cases made with
  | false => exact holds_quiet_exit Nat.one_ne_zero fun _ => trivial
  | true => exact Script.holds_pure h

/-- **What an executor leaves**, whose facts are prepared. -/
lemma holds_captureLvmVolumesSingle {manifest : List Group} {Q : Unit → Vars → World → Prop}
    (hcaptured : vars.captured = false) (hprepared : lvmCaptureLvFactsPrepared g.lvFacts = true)
    (h : ∀ vars' w', Staged g w w' → Q () vars' w') :
    Holds (contract sameText groups) (captureLvmVolumesSingle sameText manifest g) vars w Q
      Failed := by
  refine .seq (Script.holds_set (.seq (Script.holds_vars ?_)))
  rw [if_neg (by rw [hcaptured]; exact Bool.false_ne_true)]
  refine .seq (holds_check (failed_one _ _) fun _ => ?_)
  unfold prepareFacts
  rw [if_pos hprepared]
  refine .seq (Script.holds_pure ?_)
  refine .seq (holds_check (failed_one _ _) fun _ => ?_)
  refine .seq (holds_makeFiles (.seq (Script.holds_set ?_)))
  have hstart : Working g none w { w with inner := fun _ => none } := ⟨rfl, rfl, rfl, .empty⟩
  have hfiles : ∀ v : Vars, v.rows = [] → Holds (contract sameText groups) (captureFilesOf g) v
      { w with inner := fun _ => none } (fun _ _ w' => Staged g w w') Failed := by
    intro v hv
    refine .seq (holds_captureFiles hv hstart fun rows v' w₁ hrows hw₁ hschema => ?_)
    exact holds_stageFiles hrows (hw₁.moving hschema) fun _ _ hstaged => hstaged
  have hstatus : ∀ v : Vars, v.rows = [] → Holds (contract sameText groups)
      (Script.status (withCleanup g (captureFilesOf g))) v { w with inner := fun _ => none }
      (fun n _ w' => n = 0 → Staged g w w') Failed := fun v hv =>
    Script.holds_status ((holds_withCleanup (hfiles v hv) fun _ _ hstaged _ => hstaged).mono
      (fun _ _ _ h => h) fun _ _ _ hn h0 => absurd h0 hn)
  refine (hstatus _ rfl).bind fun status v' w' hstaged => ?_
  refine .seq (Script.holds_set ?_)
  refine .seq (holds_quiet (fun _ => trivial) (fun _ => rfl) fun _ _ => ?_)
  refine .seq (holds_check (failed_one _ _) fun hzero => ?_)
  exact Script.holds_set (h _ _ (hstaged (beq_iff_eq.mp hzero)))

end Stage

end Pxeos.Groups
