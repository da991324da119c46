import Pxeos.Lvm.Published

/-!
# What a preparation leaves, by its commands

The volumes and the file of the facts after a run of `rootpxe_lvm_prepare_capture_lv_facts_single`,
in terms of what the commands of the run have answered.
-/

namespace Pxeos.Lvm

open Pxeos.Lib

/-! ### The world after a run -/

section After

variable (facts : Str) {w : World} {τ : List (Sigma Answer)}

/-- Every deactivation of a run has succeeded. -/
def Deactivated (τ : List (Sigma Answer)) : Prop :=
  ∀ path (r : Reply Change), ⟨.deactivate path, r⟩ ∈ τ → r.value.ok = true

/-- No signal has arrived in a run. -/
def Undisturbed (τ : List (Sigma Answer)) : Prop := ∀ e ∈ τ, e.2.signal = none

lemma next_initial (e : Sigma Answer) : (w.next e).initial = w.initial := by
  obtain ⟨c, r, signal⟩ := e
  cases c with
  | lvs => cases r <;> rfl
  | intend path => cases r <;> rfl
  | publish recorded => cases r <;> rfl
  | _ => rfl

lemma initial_after : ((contract facts).after w τ).initial = w.initial := by
  induction τ generalizing w with
  | nil => rfl
  | cons e τ ih => exact ih.trans (next_initial e)

lemma next_failed (e : Sigma Answer)
    (h : ∀ path (r : Reply Change), e = ⟨.deactivate path, r⟩ → r.value.ok = true) :
    (w.next e).failed = w.failed := by
  obtain ⟨c, r, signal⟩ := e
  cases c with
  | lvs => cases r <;> rfl
  | intend path => cases r <;> rfl
  | publish recorded => cases r <;> rfl
  | deactivate path =>
    have hok : r.ok = true := h path ⟨r, signal⟩ rfl
    show (w.failed || !r.ok) = w.failed
    rw [hok, Bool.not_true, Bool.or_false]
  | _ => rfl

lemma failed_after (h : Deactivated τ) : ((contract facts).after w τ).failed = w.failed := by
  induction τ generalizing w with
  | nil => rfl
  | cons e τ ih =>
    have hrest : Deactivated τ := fun path r hmem => h path r (List.mem_cons_of_mem _ hmem)
    refine (ih hrest).trans (next_failed e fun path r he => h path r ?_)
    rw [he]
    exact List.mem_cons_self

lemma signalled_after (h : Undisturbed τ) :
    ((contract facts).after w τ).signalled = w.signalled := by
  induction τ generalizing w with
  | nil => rfl
  | cons e τ ih =>
    obtain ⟨he, hrest⟩ := List.forall_mem_cons.mp h
    refine (ih hrest).trans ?_
    show (w.signalled || e.2.signal.isSome) = w.signalled
    rw [he, Option.isSome_none, Bool.or_false]

lemma next_types {path fs : Str} (e : Sigma Answer) (h : (path, fs) ∈ (w.next e).types) :
    (path, fs) ∈ w.types ∨ ∃ signal, e = ⟨.fsType path, fs, signal⟩ := by
  obtain ⟨c, r, signal⟩ := e
  cases c with
  | lvs => cases r <;> exact .inl h
  | intend path => cases r <;> exact .inl h
  | publish recorded => cases r <;> exact .inl h
  | fsType looked =>
    rcases List.mem_append.mp h with h | h
    · exact .inl h
    · obtain ⟨rfl, rfl⟩ := Prod.mk.inj (List.mem_singleton.mp h)
      exact .inr ⟨signal, rfl⟩
  | _ => exact .inl h

/-- A type that is known was looked up. -/
lemma types_after {path fs : Str} (h : (path, fs) ∈ ((contract facts).after w τ).types) :
    (path, fs) ∈ w.types ∨ ∃ signal, ⟨.fsType path, fs, signal⟩ ∈ τ := by
  induction τ generalizing w with
  | nil => exact .inl h
  | cons e τ ih =>
    rcases ih h with h | ⟨signal, hmem⟩
    · exact (next_types e h).imp_right fun ⟨signal, he⟩ => ⟨signal, he ▸ List.mem_cons_self⟩
    · exact .inr ⟨signal, List.mem_cons_of_mem _ hmem⟩

lemma next_report (e : Sigma Answer) :
    (w.next e).report = w.report ∨ ∃ signal, e = ⟨.lvs, some (w.next e).report, signal⟩ := by
  obtain ⟨c, r, signal⟩ := e
  cases c with
  | lvs =>
    cases r with
    | none => exact .inl rfl
    | some rows => exact .inr ⟨signal, rfl⟩
  | intend path => cases r <;> exact .inl rfl
  | publish recorded => cases r <;> exact .inl rfl
  | _ => exact .inl rfl

/-- A report was given by LVM. -/
lemma report_after : ((contract facts).after w τ).report = w.report ∨
    ∃ signal, ⟨.lvs, some ((contract facts).after w τ).report, signal⟩ ∈ τ := by
  induction τ generalizing w with
  | nil => exact .inl rfl
  | cons e τ ih =>
    rcases ih (w := w.next e) with h | ⟨signal, hmem⟩
    · refine (next_report e).imp h.trans fun ⟨signal, he⟩ => ⟨signal, ?_⟩
      have hlast : ((contract facts).after w (e :: τ)).report = (w.next e).report := h
      rw [hlast, ← he]
      exact List.mem_cons_self
    · exact .inr ⟨signal, List.mem_cons_of_mem _ hmem⟩

end After

/-! ### Runs -/

/-- The record of a volume with the filesystem that `blkid` has found in the run. -/
def Probed (τ : List (Sigma Answer)) (f : Fact) (record : Str) : Prop :=
  ∃ fs signal, ⟨.fsType f.path, fs, signal⟩ ∈ τ ∧ supported fs = true ∧
    record = List.intercalate ['|'] [f.name, f.uuid, f.path, f.size, fs]

/-- The file of the facts has one record for each volume of the group, in the order of the facts. -/
def Replaced (facts : Str) (τ : List (Sigma Answer)) (file : Str) : Prop :=
  ∃ (fs : List Fact) (recorded : List Str) (rows : List StateRow) (signal : Option Signal),
    endedLines facts = fs.map Fact.line ∧ (∀ f ∈ fs, readFact f.line = some f) ∧
      file = unlines recorded ∧ List.Forall₂ (Probed τ) fs recorded ∧
        ⟨.lvs, some rows, signal⟩ ∈ τ ∧
        (fs.map fun f => (f.uuid, f.path)).Perm (rows.map fun row => (row.uuid, row.path))

/-- **What a preparation leaves.**  If every deactivation succeeds, the volumes are in the state
that they were in; if the preparation succeeds, the file has a record for each volume; and if it
fails without a signal, the file is as it was. -/
theorem lvmPrepareCaptureLvFactsSingle_frame (sameText : Str → Str → Bool) (n : ℕ)
    (active ready : Bool) (facts : Str) (v : Vars) (initial : Str → Bool) {τ : List (Sigma Answer)}
    {o : Option (Except ℕ ℕ × Vars)}
    (hr : Prog.Runs (Script.status (lvmPrepareCaptureLvFactsSingle sameText n active ready facts) v)
      τ o)
    (hanswers : (contract facts).Along World.Answers (World.before initial) τ) (m : ℕ) (v' : Vars)
    (ho : o = some (.ok m, v')) :
    (Deactivated τ → ((contract facts).after (World.before initial) τ).active = initial) ∧
      (m = 0 → active = true →
        Replaced facts τ (((contract facts).after (World.before initial) τ).file facts)) ∧
      (m ≠ 0 → Undisturbed τ →
        ((contract facts).after (World.before initial) τ).file facts = facts) := by
  have hsafe :
      Script.Holds (contract facts)
        (Script.status (lvmPrepareCaptureLvFactsSingle sameText n active ready facts)) v
      (World.before initial) (fun m _ w' => Ended facts active m w') fun _ _ _ => True :=
    holds_lvmPrepareCaptureLvFactsSingle
  obtain ⟨hrestored, hdone, hkept⟩ :
      Ended facts active m ((contract facts).after (World.before initial) τ) :=
    (hsafe.along hr hanswers).2 _ ho
  refine ⟨fun hoff => ?_, fun hm hactive => ?_, fun hm hquiet => ?_⟩
  · exact (hrestored (failed_after facts hoff)).trans (initial_after facts)
  · obtain ⟨-, recorded, hfacts, -, fs, hne, hlines, hread, hstage, hperm⟩ := hdone hm hactive
    rcases report_after facts (w := World.before initial) (τ := τ) with hnone | ⟨signal, hreport⟩
    · -- a report without volumes has no records
      rw [hnone] at hperm
      exact absurd (List.map_eq_nil_iff.mp hperm.eq_nil) hne
    · refine ⟨fs, recorded, _, signal, hlines, hread, ?_, hstage.imp fun f record hf => ?_,
        hreport, hperm⟩
      · unfold World.file
        rw [hfacts]
      · obtain ⟨type, hsupported, htype, hrecord⟩ := hf
        obtain ⟨signal, hmem⟩ := (types_after facts htype).resolve_left List.not_mem_nil
        exact ⟨type, signal, hmem, hsupported, hrecord⟩
  · have hsignal := signalled_after facts (w := World.before initial) hquiet
    have hnone := (hkept hm).resolve_left fun htrue => Bool.noConfusion (htrue.symm.trans hsignal)
    unfold World.file
    rw [hnone]

lemma sampleRun_deactivated (signal : Option Signal) : Deactivated (sampleRun signal).1 := by
  intro path r hmem
  obtain ⟨seen, heq⟩ := Prog.mem_exec hmem
  have hreply : r = sampleEnv signal seen (.deactivate path) := eq_of_heq (Sigma.mk.inj heq).2
  rw [hreply]
  rfl

/-- Both volumes get their records; and after a signal they are as they were. -/
theorem lvmPrepareCaptureLvFactsSingle_frame_sample :
    (∃ v', (sampleRun none).2 = some (.ok 0, v') ∧
      Replaced sampleFacts (sampleRun none).1
        (((contract sampleFacts).after (World.before sampleInitial) (sampleRun none).1).file
          sampleFacts)) ∧
    ∃ v', (sampleRun (some .term)).2 = some (.ok 1, v') ∧
      ((contract sampleFacts).after (World.before sampleInitial)
        (sampleRun (some .term)).1).active =
        sampleInitial := by
  have hend : (sampleRun none).2 = some (.ok 0, ⟨[], [], 2⟩) := by decide +kernel
  have hterm : (sampleRun (some .term)).2 = some (.ok 1, ⟨[], [], 1⟩) := by decide +kernel
  refine ⟨⟨_, hend, ?_⟩, _, hterm, ?_⟩
  · exact (lvmPrepareCaptureLvFactsSingle_frame _ _ _ _ _ _ _ (Prog.runs_exec (sampleEnv none) _ [])
      (sampleRun_answers none) 0 _ hend).2.1 rfl rfl
  · exact (lvmPrepareCaptureLvFactsSingle_frame _ _ _ _ _ _ _
      (Prog.runs_exec (sampleEnv (some .term)) _ [])
      (sampleRun_answers _) 1 _ hterm).1 (sampleRun_deactivated _)

end Pxeos.Lvm
