import Pxeos.CloudInit.Mounted

/-!
# What is mounted is taken back

A root is processed, or probed: whatever fails on the way, the script tries to undo every mount that
it has made, and then to deactivate every group that it has activated.  The variables agree with the
ledger throughout (`Agrees`), so nothing else is undone.
-/

namespace Pxeos.CloudInit

open Pxeos.Lib
open Pxeos.Linux (Vg Candidate Row)
open Pxeos.Lib.Script (Holds)

/-- What the umounts need. -/
def Needs.Unmounts (needs : Needs) (past : Past) : Prop :=
  ∀ path past', past <+: past' → (ledger past').mounts.getLast? = some path →
    needs.umount path past'

/-- Groups may be deactivated when the mounts are those of the start. -/
def Needs.Releases (needs : Needs) (start : Past) : Prop :=
  ∀ vg past', start <+: past' → (ledger past').mounts = (ledger start).mounts → Bare vg past' →
    needs.release vg past'

/-- A umount was refused, and nothing was done behind it. -/
def Stuck (paths : List Str) (past past' : Past) : Prop :=
  ∃ between path, Within [] past between ∧ (ledger between).groups = (ledger past).groups ∧
    path ∈ paths ∧ past' = between ++ [⟨.umount path, false⟩]

/-- What the cleaning leaves: nothing, or groups that could not be deactivated, or everything from a
umount on that was refused. -/
inductive Cleaned (start : Past) (v : Vars) (past : Past) : ℕ → Vars → Past → Prop
  | done {v' : Vars} {past' : Past} (hwithin : Within [] past past')
      (hcalm : ¬ RefusedSince past past') (hagrees : Agrees start v' past')
      (hmounts : v'.ownedMounts = []) (hgroups : v'.ownedGroups = []) :
      Cleaned start v past 0 v' past'
  | refused {v' : Vars} {past' : Past} (hwithin : Within [] past past')
      (hrefused : RefusedSince past past') (hagrees : Agrees start v' past')
      (hmounts : v'.ownedMounts = []) : Cleaned start v past 1 v' past'
  | stuck {v' : Vars} {past' : Past} (hstuck : Stuck v.ownedMounts past past')
      (hagrees : Agrees start v' past') : Cleaned start v past 1 v' past'

/-- The mounts and the groups are those of the start, unless a command refused. -/
structure Settled (start past : Past) : Prop where
  mounts : (ledger past).mounts = (ledger start).mounts ∨ UnmountRefused past
  groups : (ledger past).groups = (ledger start).groups ∨ UnmountRefused past ∨
    DeactivateRefused past

section Steps

variable {needs : Needs} {start : Past} {v v' : Vars} {past past' past'' : Past}
  {E : ℕ → Vars → Past → Prop} {path : Str}

/-! ### What is taken back -/

lemma Agrees.unmounted {paths : List Str} (h : Agrees start v past)
    (hpaths : v.ownedMounts = paths ++ [path]) :
    Agrees start { v with ownedMounts := v.ownedMounts.dropLast }
      (past ++ [⟨.umount path, true⟩]) := by
  have hledger := ledger_concat past ⟨.umount path, true⟩
  have hbegin : past <+: past ++ [⟨.umount path, true⟩] := List.prefix_append _ _
  refine ⟨h.begins.trans hbegin, ?_, ?_, ?_, h.named, fun vg hvg => (h.since vg hvg).mono hbegin⟩
  · rw [hledger]
    show ((ledger past).mounts.reverse.erase path).reverse = _
    rw [h.mounts, hpaths, List.dropLast_concat, ← List.append_assoc, List.reverse_concat,
      List.erase_cons_head, List.reverse_reverse]
  · rw [hledger]
    exact h.covers
  · rw [hledger]
    exact h.groups.imp_left fun hrefused => hrefused.mono hbegin

/-- The mounts are undone from the last to the first, up to one that cannot be. -/
lemma holds_unmountAll {paths : List Str} {Q : Bool → Vars → Past → Prop} (hv : Agrees start v past)
    (hpaths : v.ownedMounts = paths.reverse) (humount : needs.Unmounts past)
    (h : ∀ v' past', Within [] past past' → ¬ RefusedSince past past' → Agrees start v' past' →
      v'.ownedGroups = v.ownedGroups → v'.ownedMounts = [] → Q true v' past')
    (he : ∀ v' past', Stuck v.ownedMounts past past' → Agrees start v' past' → Q false v' past') :
    Holds (session needs) (unmountAll paths) v past Q E := by
  induction paths generalizing v past with
  | nil => exact h v past (.refl past) (Later.refl past).calm hv rfl hpaths
  | cons path paths ih =>
    rw [List.reverse_cons] at hpaths
    have hlast : (ledger past).mounts.getLast? = some path := by
      rw [hv.mounts, hpaths, ← List.append_assoc, List.getLast?_concat]
    refine .seq (Script.holds_ask fun ok _ => ⟨humount path past (List.prefix_refl _) hlast, ?_⟩)
    have hbegin : past <+: past ++ [⟨.umount path, ok⟩] := List.prefix_append _ _
    cases ok with
    | false =>
      refine he v _ ⟨past, path, .refl past, rfl, ?_, rfl⟩ (hv.same hbegin (ledger_concat _ _))
      rw [hpaths]
      exact List.mem_concat_self
    | true =>
      have hwithin : Within [] past (past ++ [⟨.umount path, true⟩]) := within_concat trivial
      have hcalm : ¬ RefusedSince past (past ++ [⟨.umount path, true⟩]) := calm_concat nofun
      have hdrop : v.ownedMounts.dropLast = paths.reverse := by
        rw [hpaths, List.dropLast_concat]
      refine .seq (Script.holds_set (ih (hv.unmounted hpaths) hdrop
        (fun path' past' hb => humount path' past' (hbegin.trans hb))
        (fun v' past' hw hc => ?_) fun v' past' hstuck => ?_))
      · exact h v' past' (hwithin.trans hw) (calm_trans hcalm hc hbegin hw.begins)
      · obtain ⟨between, path', hw, hgroups, hmem, rfl⟩ := hstuck
        have hsame : (ledger (past ++ [⟨.umount path, true⟩])).groups = (ledger past).groups := by
          rw [ledger_concat]
          rfl
        exact he v' _ ⟨between, path', hwithin.trans hw, hgroups.trans hsame,
          List.dropLast_subset _ hmem, rfl⟩

/-- A group that is owned is deactivated, unless it cannot be. -/
lemma holds_cleanupSelectedVg {vg : Vg} {Q : Bool → Vars → Past → Prop}
    (hmem : vg ∈ (ledger past).groups) (hvg : vg.name ≠ [] ∧ vg.uuid ≠ [])
    (hrelease : needs.release vg past) (h : ∀ ok, Q ok v (past ++ [⟨.deactivate vg, ok⟩])) :
    Holds (session needs) (cleanupSelectedVg vg) v past Q E := by
  have hcall : cleanupSelectedVg vg = (Script.ask (Call.deactivate vg) : Shell (Answer _)) :=
    if_pos hvg
  rw [hcall]
  exact Script.holds_ask fun ok _ => ⟨⟨hmem, hrelease⟩, h ok⟩

lemma Agrees.mem_groups {vg : Vg} (h : Agrees start v past) (hvg : vg ∈ v.ownedGroups) :
    vg ∈ (ledger past).groups :=
  Multiset.mem_of_le h.covers (Multiset.mem_add.mpr (.inr (Multiset.mem_coe.mpr hvg)))

/-- When the mounts are those of the start again, the groups that were activated since are bare. -/
lemma Agrees.bare {vg : Vg} (h : Agrees start v past) (hmounts : v.ownedMounts = [])
    (hvg : vg ∈ v.ownedGroups) : (ledger past).mounts = (ledger start).mounts ∧ Bare vg past := by
  have hsame : (ledger past).mounts = (ledger start).mounts := by
    rw [h.mounts, hmounts, List.append_nil]
  refine ⟨hsame, ?_⟩
  unfold Bare
  rw [hsame]
  exact h.since vg hvg

/-- When nothing is mounted any more, the groups are deactivated. -/
lemma holds_releaseGroups {n : ℕ} {Q : Bool → Vars → Past → Prop} (hv : Agrees start v past)
    (hmounts : v.ownedMounts = []) (hn : n ≤ v.ownedGroups.length)
    (hrelease : needs.Releases start)
    (h : ∀ ok v' past', Within [] past past' → Agrees start v' past' → v'.ownedMounts = [] →
      (ok = true → v'.ownedGroups = v.ownedGroups.drop n ∧ ¬ RefusedSince past past') →
      (ok = false → RefusedSince past past') → Q ok v' past') :
    Holds (session needs) (releaseGroups n) v past Q E := by
  induction n generalizing v past Q with
  | zero =>
    exact h true v past (.refl past) hv hmounts (fun _ => ⟨rfl, (Later.refl past).calm⟩) nofun
  | succ n ih =>
    have hvg : v.ownedGroups[n]? = some v.ownedGroups[n] := List.getElem?_eq_getElem hn
    have hmem : v.ownedGroups[n] ∈ v.ownedGroups := List.getElem_mem hn
    obtain ⟨hsame, hbare⟩ := hv.bare hmounts hmem
    refine .seq (Script.holds_vars ?_)
    rw [hvg]
    refine .seq (holds_cleanupSelectedVg (hv.mem_groups hmem) (hv.named _ hmem)
      (hrelease _ past hv.begins hsame hbare) fun ok => ?_)
    set vg := v.ownedGroups[n]
    have hbegin : past <+: past ++ [⟨.deactivate vg, ok⟩] := List.prefix_append _ _
    have hwithin : Within [] past (past ++ [⟨.deactivate vg, ok⟩]) := within_concat trivial
    cases ok with
    | true =>
      have hperm : v.ownedGroups.Perm (vg :: v.ownedGroups.eraseIdx n) :=
        (List.getElem_cons_eraseIdx_perm hn).symm
      have hlength : n ≤ (v.ownedGroups.eraseIdx n).length := by
        rw [List.length_eraseIdx_of_lt hn]
        omega
      have hdrop : (v.ownedGroups.eraseIdx n).drop n = v.ownedGroups.drop (n + 1) := by
        rw [List.eraseIdx_eq_take_drop_succ,
          List.drop_left' (List.length_take_of_le (Nat.le_of_succ_le hn))]
      have hagrees : Agrees start { v with ownedGroups := v.ownedGroups.eraseIdx n }
          (past ++ [⟨.deactivate vg, true⟩]) := hv.deactivated hperm rfl
      refine .seq (Script.holds_set (.seq (ih hagrees hmounts hlength
        fun ok v' past' hw ha hm hok hno => ?_)))
      refine h ok v' past' (hwithin.trans hw) ha hm (fun hok' => ?_) fun hno' => ?_
      · obtain ⟨hgroups, hcalm⟩ := hok hok'
        have hnow : ¬ RefusedSince past (past ++ [⟨.deactivate vg, true⟩]) :=
          calm_concat fun vg' heq => by cases heq
        exact ⟨hgroups.trans hdrop, calm_trans hnow hcalm hbegin hw.begins⟩
      · exact (hno hno').widen hbegin
    | false =>
      have hrefused : RefusedSince past (past ++ [⟨.deactivate vg, false⟩]) :=
        refusedSince_concat vg
      refine .seq (ih (hv.same hbegin (ledger_concat _ _)) hmounts (Nat.le_of_succ_le hn)
        fun ok v' past' hw ha hm _ _ => ?_)
      exact h false v' past' (hwithin.trans hw) ha hm nofun fun _ => hrefused.mono hw.begins

/-- **The cleaning.** -/
lemma holds_ciCleanupMounts {Q : ℕ → Vars → Past → Prop} (hv : Agrees start v past)
    (humount : needs.Unmounts past) (hrelease : needs.Releases start)
    (h : ∀ n v' past', Cleaned start v past n v' past' → Q n v' past') :
    Holds (session needs) (Script.status ciCleanupMounts) v past Q E := by
  refine Script.holds_status (.seq (Script.holds_vars ?_))
  refine .seq (holds_unmountAll hv (List.reverse_reverse _).symm humount
    (fun v₁ past₁ hw₁ hc₁ ha₁ hgroups hmounts => ?_) fun v₁ past₁ hstuck ha₁ => ?_)
  · refine .seq (Script.holds_pure (.seq (holds_releaseGroups ha₁ hmounts (by rw [hgroups])
      hrelease fun ok v₂ past₂ hw₂ ha₂ hm₂ hok hno => ?_)))
    have hw := hw₁.trans hw₂
    cases ok with
    | true =>
      obtain ⟨hnone, hc₂⟩ := hok rfl
      rw [hgroups, List.drop_length] at hnone
      exact h 0 v₂ past₂ (.done hw (calm_trans hc₁ hc₂ hw₁.begins hw₂.begins) ha₂ hm₂ hnone)
    | false => exact h 1 v₂ past₂ (.refused hw ((hno rfl).widen hw₁.begins) ha₂ hm₂)
  · exact .seq (holds_orReturn nofun (h 1 v₁ past₁ (.stuck hstuck ha₁)))

lemma Cleaned.begins {n : ℕ} (h : Cleaned start v past n v' past') : past <+: past' := by
  cases h with
  | done hwithin => exact hwithin.begins
  | refused hwithin => exact hwithin.begins
  | stuck hstuck =>
    obtain ⟨between, path, hwithin, -, -, rfl⟩ := hstuck
    exact hwithin.begins.trans (List.prefix_append _ _)

lemma Cleaned.agrees {n : ℕ} (h : Cleaned start v past n v' past') : Agrees start v' past' := by
  cases h with
  | done _ _ hagrees => exact hagrees
  | refused _ _ hagrees => exact hagrees
  | stuck _ hagrees => exact hagrees

lemma Stuck.refused {paths : List Str} (h : Stuck paths past past') : UnmountRefused past' := by
  obtain ⟨between, path, -, -, -, rfl⟩ := h
  exact ⟨path, List.mem_concat_self⟩

lemma Agrees.settled (h : Agrees start v past) (hmounts : v.ownedMounts = [])
    (hgroups : v.ownedGroups = [] ∨ DeactivateRefused past) : Settled start past := by
  refine ⟨.inl ?_, ?_⟩
  · rw [h.mounts, hmounts, List.append_nil]
  · rcases hgroups with hnone | hrefused
    · refine h.groups.elim (fun hrefused => .inr (.inr hrefused.refused)) fun hsame => .inl ?_
      rw [hsame, hnone, Multiset.coe_nil, add_zero]
    · exact .inr (.inr hrefused)

/-- A past behind which nothing was owned and nothing was refused. -/
lemma Agrees.ledger_eq (h : Agrees start v past) (hmounts : v.ownedMounts = [])
    (hgroups : v.ownedGroups = []) (hcalm : ¬ RefusedSince start past) :
    ledger past = ledger start := by
  have hsame := h.groups.resolve_left hcalm
  refine Ledger.ext ?_ ?_
  · rw [h.mounts, hmounts, List.append_nil]
  · rw [hsame, hgroups, Multiset.coe_nil, add_zero]

lemma Settled.of_eq (h : ledger past = ledger start) : Settled start past :=
  ⟨.inl (congrArg Ledger.mounts h), .inl (congrArg Ledger.groups h)⟩

lemma Settled.later (h : Settled start past) (hlater : Later past past') : Settled start past' := by
  have hbegin := hlater.begins
  refine ⟨?_, ?_⟩
  · rw [hlater.ledger_eq]
    exact h.mounts.imp_right fun hu => hu.mono hbegin
  · rw [hlater.ledger_eq]
    exact h.groups.imp_right (Or.imp (fun hu => hu.mono hbegin) fun hd => hd.mono hbegin)

lemma Cleaned.settled {n : ℕ} (h : Cleaned start v past n v' past') : Settled start past' := by
  cases h with
  | done _ _ hagrees hmounts hgroups => exact hagrees.settled hmounts (.inl hgroups)
  | refused _ hrefused hagrees hmounts => exact hagrees.settled hmounts (.inr hrefused.refused)
  | stuck hstuck => exact ⟨.inr hstuck.refused, .inr (.inl hstuck.refused)⟩

/-- A cleaning with success: what was owned is taken back, and if nothing was refused before, all is
as at the start. -/
lemma Cleaned.ledger_eq (h : Cleaned start v past 0 v' past') (hbegin : start <+: past)
    (hcalm : ¬ RefusedSince start past) : ledger past' = ledger start := by
  cases h with
  | done hwithin hcalm' hagrees hmounts hgroups =>
    exact hagrees.ledger_eq hmounts hgroups (calm_trans hcalm hcalm' hbegin hwithin.begins)

lemma holds_ciWorkspaceRemove {work : Str} {Q : ℕ → Vars → Past → Prop}
    (h : ∀ n past', Later past past' → Q n v past') :
    Holds (session needs) (Script.status (ciWorkspaceRemove work)) v past Q E := by
  refine Script.holds_status (.seq (holds_orReturn (fun _ => ?_) (h 1 past (.refl past))))
  refine .seq (holds_require (fun past₁ h₁ _ => ?_) fun past₁ h₁ => h 1 past₁ h₁)
  refine .seq ((Script.holds_forEach (fun _ v' past' => v' = v ∧ Later past past') ?_ _
    ⟨rfl, h₁⟩).mono ?_ fun _ _ _ h => h)
  · rintro directory rest _ past₂ ⟨rfl, h₂⟩
    refine .seq (holds_test fun present past₃ h₃ _ => ?_)
    have h₂₃ := h₂.trans h₃
    cases present with
    | false => exact ⟨rfl, h₂₃⟩
    | true =>
      refine .seq (holds_require (fun past₄ h₄ _ => ?_) fun past₄ h₄ => h 1 past₄ (h₂₃.trans h₄))
      have h₂₄ := h₂₃.trans h₄
      refine .seq (holds_requireUnmounted (fun past₅ h₅ => ?_) fun past₅ h₅ =>
        h 1 past₅ (h₂₄.trans h₅))
      have h₂₅ := h₂₄.trans h₅
      exact holds_require (fun past₆ h₆ _ => ⟨rfl, h₂₅.trans h₆⟩) fun past₆ h₆ =>
        h 1 past₆ (h₂₅.trans h₆)
  · rintro _ _ past₂ ⟨rfl, h₂⟩
    exact holds_require (fun past₃ h₃ _ => h 0 past₃ (h₂.trans h₃)) fun past₃ h₃ =>
      h 1 past₃ (h₂.trans h₃)

lemma holds_cleaning {step : Shell Unit} {code : String} {Q : Bool → Vars → Past → Prop}
    (h : Holds (session needs) (Script.status step) v past (fun n v' past' =>
      (n = 0 → Q true v' past') ∧
        (n ≠ 0 → Q false { v' with error := code.toList } past')) E) :
    Holds (session needs) (cleaning step code) v past Q E := by
  refine h.bind fun n v' past' hn => ?_
  split
  · exact hn.1 ‹_›
  · exact hn.2 ‹_›

/-! ### A root -/

lemma holds_andThen {ok : Bool} {step : Shell Unit} {Q : Bool → Vars → Past → Prop}
    (hskip : Q false v past)
    (h : ok = true → Holds (session needs) (Script.status step) v past (fun n => Q (n == 0)) E) :
    Holds (session needs) (andThen ok step) v past Q E := by
  cases ok with
  | false => exact hskip
  | true => exact .seq (h rfl)

lemma holds_openGroup {disk : Str} {vg : Option Vg} {Q : Bool → Vars → Past → Prop}
    (hv : Agrees start v past) (hback : needs.RollsBack past)
    (h : ∀ ok v' past', Grown start v past v' past' → (ok = true → ¬ RefusedSince past past') →
      Q ok v' past') : Holds (session needs) (openGroup disk vg) v past Q E := by
  cases vg with
  | none => exact h true v past (hv.grown (.refl past)) fun _ => (Later.refl past).calm
  | some vg =>
    refine .seq (Script.holds_attempt (holds_linuxActivateVgIfNeeded hv hback
      (fun owned past₁ hwithin hcalm hagrees => ?_) fun n past₁ hwithin hagrees _ => ?_))
    · refine .seq (holds_keepGroup (h true _ past₁ ⟨hwithin, hagrees, ?_, ?_⟩ fun _ => hcalm))
      · cases owned <;> rfl
      · cases owned <;> rfl
    · exact h false v past₁ ⟨hwithin, hagrees, rfl, rfl⟩ nofun

/-- The work at a root has succeeded. -/
def Did (root : Str) : Mode → Past → Prop
  | .ro, past => ⟨.preflight root, none⟩ ∈ past
  | .rw, past => ⟨.install root, none⟩ ∈ past

lemma Did.mono {root : Str} {mode : Mode} (h : Did root mode past) (hbegin : past <+: past') :
    Did root mode past' := by
  cases mode with
  | ro => exact hbegin.subset h
  | rw => exact hbegin.subset h

lemma holds_failWith {α : Type} {code : Str} {Q : α → Vars → Past → Prop}
    (h : E 1 { v with error := code } past) :
    Holds (session needs) (failWith code) v past Q E := h

/-- Only the error is another one. -/
lemma Agrees.withError (h : Agrees start v past) (error : Str) :
    Agrees start { v with error := error } past := h.congr rfl rfl

lemma holds_workOn {mode : Mode} {Q : ℕ → Vars → Past → Prop} (hv : Agrees start v past)
    (hroot : mode = .rw → needs.install v.mountedRoot past)
    (h : ∀ n v' past', past <+: past' → Agrees start v' past' →
      (n = 0 → Did v.mountedRoot mode past' ∧ ¬ RefusedSince past past') → Q n v' past') :
    Holds (session needs) (Script.status (workOn mode)) v past Q E := by
  refine Script.holds_status (.seq (Script.holds_vars ?_))
  cases mode with
  | ro =>
    refine .seq (Script.holds_ask fun failure _ => ⟨trivial, ?_⟩)
    have hlater : Later past (past ++ [⟨.preflight v.mountedRoot, failure⟩]) := later_concat trivial
    cases failure with
    | none =>
      exact h 0 v _ hlater.begins (hv.later hlater) fun _ => ⟨List.mem_concat_self, hlater.calm⟩
    | some code =>
      exact holds_failWith (h 1 _ _ hlater.begins ((hv.later hlater).withError code) nofun)
  | rw =>
    refine .seq (Script.holds_set (.seq (Script.holds_ask fun failure _ => ⟨hroot rfl, ?_⟩)))
    have hlater : Later past (past ++ [⟨.install v.mountedRoot, failure⟩]) := later_concat trivial
    have hagrees := (hv.later hlater).withError []
    cases failure with
    | none => exact h 0 _ _ hlater.begins hagrees fun _ => ⟨List.mem_concat_self, hlater.calm⟩
    | some code => exact holds_failWith (h 1 _ _ hlater.begins (hagrees.withError code) nofun)

/-- What the work at a root may do behind a past: it mounts the root, and what is permitted where
nothing is mounted yet; the root is written to in the mode `rw`. -/
structure Needs.Works (needs : Needs) (allowed : List Str) (disk : Str) (c : Candidate)
    (mode : Mode) (start : Past) : Prop where
  root : ∀ past, start <+: past → Passed (.verifyPermit disk) past → (ledger past).mounts = [] →
    needs.MountsRoot c.device mode past
  fstab : ∀ path mode' past, start <+: past → (mode' = .rw → mode = .rw) →
    path ∉ (ledger past).mounts → needs.Mounts allowed path mode' past
  rollBack : ∀ vg past, start <+: past → JustActivated vg past → needs.release vg past
  install : mode = .rw → ∀ root past, start <+: past → MountMatches root c.device .rw past →
    needs.install root past

/-- What the processing of a root may do: the work at it, and to take back what was done. -/
structure Needs.Processes (needs : Needs) (allowed : List Str) (disk : Str) (c : Candidate)
    (mode : Mode) (start : Past) : Prop extends needs.Works allowed disk c mode start where
  umount : needs.Unmounts start
  release : needs.Releases start

lemma Needs.Works.rollsBack {allowed : List Str} {disk : Str} {c : Candidate} {mode : Mode}
    (h : needs.Works allowed disk c mode start) (hbegin : start <+: past) :
    needs.RollsBack past := fun vg past' hb _ => h.rollBack vg past' (hbegin.trans hb)

/-- The root is there, and what is mounted is mounted at some places in it. -/
structure RootReady (c : Candidate) (mode : Mode) (places : List Str) (start : Past) (ok : Bool)
    (v' : Vars) (past' : Past) : Prop where
  agrees : Agrees start v' past'
  ready : ok = true → MountMatches v'.mountedRoot c.device mode past' ∧
    ¬ RefusedSince start past' ∧
    ∀ path ∈ v'.ownedMounts, ∃ place ∈ places, path = v'.mountedRoot ++ place

/-- A filesystem of its own at one more place. -/
lemma holds_andThen_ciMountFstab {allowed places : List Str} {disk : Str} {c : Candidate}
    {mode mode' : Mode} {requested : Requested} {ok : Bool}
    (hneeds : needs.Works allowed disk c mode start) (hstart : (ledger start).mounts = [])
    (hready : RootReady c mode places start ok v' past') (hplace : requested.path ∉ places)
    (hmode : mode' = .rw → mode = .rw) :
    Holds (session needs) (andThen ok (ciMountFstab allowed v'.mountedRoot requested mode')) v'
      past'
      (RootReady c mode (requested.path :: places) start) E := by
  have hbegin := hready.agrees.begins
  refine holds_andThen ⟨hready.agrees, nofun⟩ fun hok => ?_
  obtain ⟨hmatch, hcalm, hplaces⟩ := hready.ready hok
  have hfresh : v'.mountedRoot ++ requested.path ∉ (ledger past').mounts := by
    rw [hready.agrees.mounts, hstart, List.nil_append]
    intro hmem
    obtain ⟨place, hin, heq⟩ := hplaces _ hmem
    exact hplace (by rwa [List.append_cancel_left heq])
  refine holds_ciMountFstab hready.agrees (hneeds.rollsBack hbegin)
    (hneeds.fstab _ mode' past' hbegin hmode hfresh) fun n v₁ past₁ h₁ hc₁ =>
    ⟨h₁.agrees, fun hn => ?_⟩
  rw [h₁.mountedRoot]
  refine ⟨hmatch.mono h₁.within.begins, calm_trans hcalm (hc₁ (beq_iff_eq.mp hn)) hbegin
    h₁.within.begins, fun path hpath => ?_⟩
  have hold : path ∈ v'.ownedMounts →
      ∃ place ∈ requested.path :: places, path = v'.mountedRoot ++ place := fun hmem => by
    obtain ⟨place, hin, heq⟩ := hplaces path hmem
    exact ⟨place, List.mem_cons_of_mem _ hin, heq⟩
  rcases h₁.mounts with hm | hm
  · exact hold (hm ▸ hpath)
  · rw [hm, List.mem_append, List.mem_singleton] at hpath
    exact hpath.elim hold fun heq => ⟨_, List.mem_cons_self, heq⟩

/-- What the steps between the creation of the working directory and the cleaning leave. -/
structure Worked (c : Candidate) (mode : Mode) (start : Past) (ok : Bool) (v' : Vars)
    (past' : Past) : Prop where
  agrees : Agrees start v' past'
  did : ok = true → ¬ RefusedSince start past' ∧
    ∃ root, MountMatches root c.device mode past' ∧ Did root mode past'

lemma holds_mountAndWork {allowed : List Str} {disk work : Str} {c : Candidate} {mode : Mode}
    {Q : Bool → Vars → Past → Prop} (hneeds : needs.Works allowed disk c mode start)
    (hstart : (ledger start).mounts = []) (hv : Agrees start v past)
    (hcalm : ¬ RefusedSince start past) (hmounts : v.ownedMounts = [])
    (hfs : supported c.fstype = true) (hpermit : Passed (.verifyPermit disk) past)
    (h : ∀ ok v' past', Worked c mode start ok v' past' → Q ok v' past') :
    Holds (session needs) (mountAndWork allowed disk c mode work) v past Q E := by
  have hbegin := hv.begins
  refine .seq (holds_openGroup hv (hneeds.rollsBack hbegin) fun ok v₁ past₁ h₁ hc₁ => ?_)
  have hbegin₁ := h₁.agrees.begins
  have hnone : v₁.ownedMounts = [] := h₁.mounts.trans hmounts
  -- the root
  refine .bind (Q := RootReady c mode [[]] start) (holds_andThen ⟨h₁.agrees, nofun⟩ fun hok => ?_)
    fun ok v₂ past₂ h₂ => ?_
  · have hcalm₁ := calm_trans hcalm (hc₁ hok) hbegin h₁.within.begins
    have hfree : (ledger past₁).mounts = [] := by
      rw [h₁.agrees.mounts, hstart, hnone, List.nil_append]
    refine holds_ciMountRoot h₁.agrees hfs (hneeds.root past₁ hbegin₁
      (hpermit.mono h₁.within.begins) hfree) fun n v₂ past₂ h₂ => ?_
    refine ⟨h₂.agrees, fun hn => ?_⟩
    obtain ⟨hmatch, hc₂⟩ := h₂.done (beq_iff_eq.mp hn)
    refine ⟨hmatch, calm_trans hcalm₁ hc₂ hbegin₁ h₂.begins, fun path hpath =>
      ⟨[], List.mem_cons_self, ?_⟩⟩
    rcases h₂.mounts with hm | hm | hm
    · rw [hm, hnone] at hpath
      cases hpath
    · exact absurd (beq_iff_eq.mp hn) hm
    · rw [hm, hnone] at hpath
      rw [List.append_nil]
      exact List.mem_singleton.mp hpath
  -- `/usr` and `/var`
  refine .seq (Script.holds_vars ?_)
  refine .bind (holds_andThen_ciMountFstab hneeds hstart h₂ (by decide) nofun)
    fun ok v₃ past₃ h₃ => ?_
  refine .seq (Script.holds_vars ?_)
  refine .bind (holds_andThen_ciMountFstab hneeds hstart h₃ (by decide) id)
    fun ok v₄ past₄ h₄ => ?_
  refine holds_andThen (h false v₄ past₄ ⟨h₄.agrees, nofun⟩) fun hok => ?_
  obtain ⟨hmatch, hcalm₄, -⟩ := h₄.ready hok
  refine holds_workOn h₄.agrees (fun hmode => ?_) fun n v₅ past₅ hb₅ ha₅ hdid => ?_
  · subst hmode
    exact hneeds.install rfl _ past₄ h₄.agrees.begins hmatch
  · refine h _ v₅ past₅ ⟨ha₅, fun hn => ?_⟩
    obtain ⟨hdid, hcalm₅⟩ := hdid (beq_iff_eq.mp hn)
    exact ⟨calm_trans hcalm₄ hcalm₅ h₄.agrees.begins hb₅, v₄.mountedRoot, hmatch.mono hb₅, hdid⟩

/-- What the processing of a root leaves; if it succeeds, all is as at the start, the root was the
right one, and the work at it has succeeded. -/
structure Processed (start : Past) (c : Candidate) (mode : Mode) (n : ℕ) (past' : Past) : Prop where
  begins : start <+: past'
  settled : Settled start past'
  done : n = 0 → ledger past' = ledger start ∧
    ∃ root, MountMatches root c.device mode past' ∧ Did root mode past'

/-- **A root is processed.** -/
theorem holds_processRoot {allowed : List Str} {disk : Str} {c : Candidate} {mode : Mode}
    {Q : ℕ → Vars → Past → Prop} (hneeds : needs.Processes allowed disk c mode start)
    (hstart : (ledger start).mounts = [])
    (h : ∀ n v' past', Processed start c mode n past' → Q n v' past') :
    Holds (session needs) (processRoot allowed disk c mode) v start (fun _ => Q 0) Q := by
  have hstop : ∀ {v' past'}, Later start past' → Q 1 v' past' := fun hlater =>
    h 1 _ _ ⟨hlater.begins, .of_eq hlater.ledger_eq, nofun⟩
  refine .seq (Script.holds_set (.seq (holds_orReturn (fun hc => ?_) (hstop (.refl start)))))
  have hfs : supported c.fstype = true := (Bool.and_eq_true_iff.mp hc).2
  refine .seq (holds_require (fun past₁ h₁ hpermit => ?_) fun past₁ h₁ => hstop h₁)
  refine .seq (holds_demand (fun work past₂ h₂ _ => ?_) fun past₂ h₂ => hstop (h₁.trans h₂))
  have h₁₂ := h₁.trans h₂
  have hagrees : Agrees start { v with ownedMounts := [], ownedGroups := [], mountedRoot := [] }
      past₂ := (agrees_start rfl rfl).later h₁₂
  refine .seq
    (holds_mountAndWork hneeds.toWorks hstart hagrees h₁₂.calm rfl hfs (hpermit.mono h₂.begins)
    fun ok v₃ past₃ h₃ => ?_)
  have hbegin₃ := h₃.agrees.begins
  -- the removal of the working directory, behind a cleaning
  have hremoved : ∀ cleaned n v₄ v₅ past₄, (cleaned = true → n = 0) →
      Cleaned start v₃ past₃ n v₄ past₄ →
      Holds (session needs) (cleaning (ciWorkspaceRemove work) "cloud_init_probe_cleanup_failed"
        >>= fun removed => orReturn (ok && cleaned && removed)) v₅ past₄ (fun _ => Q 0) Q := by
    intro cleaned n v₄ v₅ past₄ hn h₄
    have hbegin₄ := hbegin₃.trans h₄.begins
    have hfailed : ∀ {v' past'}, Later past₄ past' → Q 1 v' past' := fun hlater =>
      h 1 _ _ ⟨hbegin₄.trans hlater.begins, h₄.settled.later hlater, nofun⟩
    refine .seq (holds_cleaning (holds_ciWorkspaceRemove fun m past₅ h₅ =>
      ⟨fun _ => ?_, fun _ => ?_⟩))
    · refine holds_orReturn (fun hdone => ?_) (hfailed h₅)
      rw [Bool.and_true, Bool.and_eq_true_iff] at hdone
      obtain ⟨hok, hcleaned⟩ := hdone
      obtain rfl := hn hcleaned
      obtain ⟨hcalm, root, hmatch, hdid⟩ := h₃.did hok
      have hb := h₄.begins.trans h₅.begins
      refine h 0 v₅ past₅ ⟨hbegin₄.trans h₅.begins, h₄.settled.later h₅, fun _ => ⟨?_, root,
        hmatch.mono hb, hdid.mono hb⟩⟩
      exact h₅.ledger_eq.trans (h₄.ledger_eq hbegin₃ hcalm)
    · rw [Bool.and_false]
      exact hfailed h₅
  refine .seq (holds_cleaning (holds_ciCleanupMounts h₃.agrees
    (fun path past' hb => hneeds.umount path past' (hbegin₃.trans hb)) hneeds.release
    fun n v₄ past₄ h₄ => ⟨fun hn => ?_, fun _ => ?_⟩))
  · exact hremoved true n v₄ v₄ past₄ (fun _ => hn) h₄
  · exact hremoved false n v₄ _ past₄ nofun h₄

/-- What the probe of a root leaves: all is as before, up to what was refused, or a umount of `/usr`
was refused and nothing was done behind it.  If it succeeds, a root was seen. -/
structure Probed (start : Past) (root : Str) (n : ℕ) (past' : Past) : Prop where
  begins : start <+: past'
  settled : Settled start past'
  covers : (ledger start).groups ≤ (ledger past').groups
  done : n = 0 → ledger past' = ledger start ∧ ⟨.rootStructure root, (0 : ℕ)⟩ ∈ past'
  outcome :
    (Within [root ++ Requested.usr.path] start past' ∧
      (ledger past').mounts = (ledger start).mounts ∧
      (RefusedSince start past' ∨ (ledger past').groups = (ledger start).groups)) ∨
    n = 2 ∧ ∃ between, Within [root ++ Requested.usr.path] start between ∧
      past' = between ++ [⟨.umount (root ++ Requested.usr.path), false⟩]

/-- **A root is probed.** -/
theorem holds_probeRootMarker {allowed : List Str} {root : Str} {Q : ℕ → Vars → Past → Prop}
    (hmount : needs.Mounts allowed (root ++ Requested.usr.path) .ro start)
    (humount : needs.Unmounts start) (hback : needs.RollsBack start)
    (hrelease : needs.Releases start)
    (h : ∀ n v' past', Probed start root n past' → Q n v' past') :
    Holds (session needs) (Script.status (probeRootMarker allowed root)) v start Q E := by
  have hquiet : ∀ {n v' past'}, Later start past' →
      (n = 0 → ⟨.rootStructure root, (0 : ℕ)⟩ ∈ past') → Q n v' past' := by
    intro n v' past' hlater hfound
    have hsame := hlater.ledger_eq
    exact h n v' past' ⟨hlater.begins, .of_eq hsame, by rw [hsame], fun hn => ⟨hsame, hfound hn⟩,
      .inl ⟨hlater.within, congrArg Ledger.mounts hsame, .inr (congrArg Ledger.groups hsame)⟩⟩
  refine Script.holds_status (.seq (Script.holds_set ?_))
  refine .seq (holds_look (fun _ => trivial) (fun _ => trivial) fun found past₁ h₁ hfound => ?_)
  dsimp only
  split
  · rename_i hzero
    refine hquiet h₁ fun _ => ?_
    rwa [← hzero]
  · refine .seq (holds_orReturn (fun _ => ?_) (hquiet h₁ nofun))
    have hagrees : Agrees start { v with ownedMounts := [], ownedGroups := [], mountedRoot := [] }
        past₁ := (agrees_start rfl rfl).later h₁
    refine .seq (holds_ciMountFstab hagrees (hback.later h₁)
      (hmount.mono h₁.begins (congrArg Ledger.mounts h₁.ledger_eq)) fun mounted v₂ past₂ h₂ hc₂ =>
        ?_)
    have hbegin₂ := h₁.begins.trans h₂.within.begins
    have hwithin₂ : Within [root ++ Requested.usr.path] start past₂ := h₁.within.trans h₂.within
    have hown : v₂.ownedMounts ⊆ [root ++ Requested.usr.path] := by
      rcases h₂.mounts with hm | hm
      · rw [hm]
        exact List.nil_subset _
      · rw [hm]
        exact fun _ h => h
    -- the cleaning, behind the mount and the second look
    have hclean : ∀ (result : ℕ) past₃, Later past₂ past₃ →
        (result = 0 → ⟨.rootStructure root, (0 : ℕ)⟩ ∈ past₃ ∧ ¬ RefusedSince start past₃) →
        Holds (session needs) (Script.status ciCleanupMounts >>= fun n =>
          if n = 0 then if result = 0 then pure () else Script.exit result else Script.exit 2)
          v₂ past₃ (fun _ => Q 0) Q := by
      intro result past₃ h₃ hresult
      have hbegin₃ := hbegin₂.trans h₃.begins
      have hwithin₃ : Within [root ++ Requested.usr.path] start past₃ := hwithin₂.trans h₃.within
      refine .seq (holds_ciCleanupMounts (h₂.agrees.later h₃)
        (fun path past' hb => humount path past' (hbegin₃.trans hb)) hrelease
        fun n v₄ past₄ h₄ => ?_)
      have hcovers : (ledger start).groups ≤ (ledger past₄).groups :=
        (Multiset.le_add_right _ _).trans h₄.agrees.covers
      -- the umount of `/usr` was not refused
      have hout : ∀ m, Within [] past₃ past₄ → v₄.ownedMounts = [] →
          (v₄.ownedGroups = [] ∨ RefusedSince past₃ past₄) →
          (m = 0 → ledger past₄ = ledger start ∧ ⟨.rootStructure root, (0 : ℕ)⟩ ∈ past₄) →
          Q m v₄ past₄ := by
        intro m hwithin hmounts hgroups hdone
        refine h m v₄ past₄ ?_
        refine ⟨hbegin₃.trans hwithin.begins, h₄.settled, hcovers, hdone, .inl ⟨hwithin₃.trans
          (hwithin.mono (List.nil_subset _)), ?_, ?_⟩⟩
        · rw [h₄.agrees.mounts, hmounts, List.append_nil]
        · rcases hgroups with hnone | hrefused
          · refine h₄.agrees.groups.imp_right fun hsame => ?_
            rw [hsame, hnone, Multiset.coe_nil, add_zero]
          · exact .inl (hrefused.widen hbegin₃)
      cases h₄ with
      | done hwithin hcalm₄ hagrees₄ hmounts hgroups =>
        rw [if_pos rfl]
        split
        · rename_i hzero
          obtain ⟨hseen, hcalm₃⟩ := hresult hzero
          refine hout 0 hwithin hmounts (.inl hgroups) fun _ => ⟨?_, hwithin.begins.subset hseen⟩
          exact hagrees₄.ledger_eq hmounts hgroups
            (calm_trans hcalm₃ hcalm₄ hbegin₃ hwithin.begins)
        · exact hout result hwithin hmounts (.inl hgroups) fun hzero => absurd hzero ‹_›
      | refused hwithin hrefused hagrees₄ hmounts =>
        exact hout 2 hwithin hmounts (.inr hrefused) nofun
      | stuck hstuck hagrees₄ =>
        refine h 2 v₄ past₄ ⟨hbegin₃.trans ?_, ⟨.inr hstuck.refused, .inr (.inl hstuck.refused)⟩,
          hcovers, nofun, .inr ⟨rfl, ?_⟩⟩
        · exact (Cleaned.stuck hstuck hagrees₄).begins
        · obtain ⟨between, path, hwithin, -, hpath, rfl⟩ := hstuck
          rw [List.mem_singleton.mp (hown hpath)]
          exact ⟨between, hwithin₃.trans (hwithin.mono (List.nil_subset _)), rfl⟩
    split
    · rename_i hmounted
      refine .seq (holds_look (fun _ => trivial) (fun _ => trivial)
        fun (again : ℕ) past₃ h₃ hagain => ?_)
      refine hclean (if again = 0 then 0 else 1) past₃ h₃ fun hzero => ?_
      split at hzero
      · rename_i hagain₀
        refine ⟨hagain₀ ▸ hagain, ?_⟩
        have hcalm₂ := calm_trans h₁.calm (hc₂ hmounted) h₁.begins h₂.within.begins
        exact calm_trans hcalm₂ h₃.calm hbegin₂ h₃.begins
      · exact absurd hzero one_ne_zero
    · exact hclean 2 past₂ (.refl past₂) nofun

end Steps

/-! ### Runs -/

/-- What the processing of a root may do.  A group is deactivated when nothing is mounted any more,
or at once behind its own activation. -/
def processing (allowed : List Str) (disk : Str) (c : Candidate) (mode : Mode) : Needs where
  mount fs options device path past := supported fs = true ∧
    (device = c.device ∧ Passed (.verifyPermit disk) past ∨ DevicePermitted allowed device past) ∧
    path ∉ (ledger past).mounts ∧
    (linuxMountOptions .ro fs none = some options ∨
      mode = .rw ∧ linuxMountOptions .rw fs none = some options)
  umount path past := (ledger past).mounts.getLast? = some path
  release vg past := (ledger past).mounts = [] ∨ JustActivated vg past
  install root past := mode = .rw ∧ MountMatches root c.device .rw past

/-- A mount in one of the modes that are allowed. -/
lemma options_of_mode {mode mode' : Mode} (hmode : mode' = .rw → mode = .rw) {fs options : Str}
    (hoptions : linuxMountOptions mode' fs none = some options) :
    linuxMountOptions .ro fs none = some options ∨
      mode = .rw ∧ linuxMountOptions .rw fs none = some options := by
  cases mode' with
  | ro => exact .inl hoptions
  | rw => exact .inr ⟨hmode rfl, hoptions⟩

lemma processes_processing (allowed : List Str) (disk : Str) (c : Candidate) (mode : Mode) :
    (processing allowed disk c mode).Processes allowed disk c mode [] where
  root past _ hpermit hnone fs options root past' hb hmounts hfs hoptions := by
    refine ⟨hfs, .inl ⟨rfl, hpermit.mono hb⟩, ?_, options_of_mode id hoptions⟩
    rw [hmounts, hnone]
    exact List.not_mem_nil
  fstab path mode' past _ hmode hfresh fs device options past' _ hmounts hfs hdevice hoptions := by
    refine ⟨hfs, .inr hdevice, ?_, options_of_mode hmode hoptions⟩
    rwa [hmounts]
  umount _ _ _ hlast := hlast
  rollBack _ _ _ hjust := .inr hjust
  release _ _ _ hmounts _ := .inl hmounts
  install hmode _ _ _ hmatch := ⟨hmode, hmatch⟩

/-- **The processing of a root takes back what it has done.**  In every run, whatever fails: what is
mounted is the root, behind its disk's permit, or a filesystem that was shown to be permitted; the
mounts are undone from the last to the first, and then the groups that this run has activated; in
the end nothing is left, unless a command refused. -/
theorem processRoot_undone (allowed : List Str) (disk : Str) (c : Candidate) (mode : Mode)
    (v : Vars) {τ : Past} {o : Option (Except ℕ ℕ × Vars)}
    (hr : Prog.Runs (Script.status (processRoot allowed disk c mode) v) τ o) :
    (∀ pre e post, τ = pre ++ e :: post → (processing allowed disk c mode).Met pre e) ∧
      ∀ n v', o = some (.ok n, v') → Processed [] c mode n τ := by
  have hsafe : Holds (session (processing allowed disk c mode))
      (Script.status (processRoot allowed disk c mode)) v []
      (fun n _ past => Processed [] c mode n past) fun _ _ _ => True := by
    refine Script.holds_status ?_
    exact holds_processRoot (Q := fun n _ past => Processed [] c mode n past)
      (processes_processing allowed disk c mode) rfl fun _ _ _ h => h
  obtain ⟨hmet, hend, -⟩ := session_runs hsafe hr
  exact ⟨hmet, hend⟩

/-- A group has one volume, which is active when the group is. -/
def sampleRows (seen : List (Sigma Answer)) (vg : Vg) : List Row :=
  let active := vg ∈ (ledger seen.reverse).groups
  [⟨"root".toList, "/dev/mapper/vg-root".toList,
    (if active then "active" else "inactive").toList⟩]

/-- Every command does what it is asked to, and nothing is mounted before. -/
def sampleEnv (seen : List (Sigma Answer)) : (c : Call) → Answer c
  | .test t =>
    match t with
    | .isPresent _ => false
    | .isMountpoint _ => false
    | _ => true
  | .query q =>
    match q with
    | .readlink path => some path
    | .device _ => some "64512".toList
    | .rdev _ => some "64512".toList
    | .options _ => some "rw,relatime".toList
    | .mktemp => some "/tmp/rootpxe-cloud-mount.k3TqZp".toList
    | _ => none
  | .partitions _ => ["/dev/sda1".toList, "/dev/sda2".toList]
  | .lvs => none
  | .fstab _ => []
  | .mount .. => true
  | .umount _ => true
  | .pvs _ => some []
  | .groupRows vg => some (sampleRows seen vg)
  | .activate _ => true
  | .deactivate _ => true
  | .rootStructure _ => (0 : ℕ)
  | .preflight _ => none
  | .install _ => none
  | .defaultSubvolid _ => none
  | .subvolumes _ => none

/-- A root in a volume. -/
def sampleCandidate : Candidate :=
  ⟨"/dev/mapper/vg-root".toList, "xfs".toList, some ⟨"vg".toList, "kx0Qy".toList⟩, none⟩

def sampleRun : Past × Option (Except ℕ ℕ × Vars) :=
  (Script.status (processRoot ["/dev/sda".toList] "/dev/sda".toList sampleCandidate .rw)
    ⟨[], [], [], []⟩).exec sampleEnv []

/-- The root is mounted, written to and taken back. -/
theorem processRoot_undone_sample :
    (∃ e ∈ sampleRun.1, e.1 = .activate ⟨"vg".toList, "kx0Qy".toList⟩) ∧
      sampleRun.2 = some (.ok 0, ⟨[], [], "/tmp/rootpxe-cloud-mount.k3TqZp/root".toList, []⟩) ∧
      Processed [] sampleCandidate .rw 0 sampleRun.1 := by
  have hend : sampleRun.2 =
      some (.ok 0, ⟨[], [], "/tmp/rootpxe-cloud-mount.k3TqZp/root".toList, []⟩) := by decide +kernel
  refine ⟨by decide +kernel, hend, ?_⟩
  exact (processRoot_undone _ _ _ _ _ (Prog.runs_exec sampleEnv _ [])).2 0 _ hend

/-- What the probe of a root may do: nothing is mounted to be written, and nothing is installed. -/
def probing (allowed : List Str) : Needs where
  mount fs options device path past := supported fs = true ∧ DevicePermitted allowed device past ∧
    path ∉ (ledger past).mounts ∧ linuxMountOptions .ro fs none = some options
  umount path past := (ledger past).mounts.getLast? = some path
  release _ past := (ledger past).mounts = []
  install _ _ := False

/-- **A probe leaves nothing behind.**  In every run of the probe of a root nothing is mounted to be
written, and nothing is installed; a filesystem that is mounted was shown to be permitted; in the
end nothing is left, unless a command refused. -/
theorem probeRootMarker_undone (allowed : List Str) (root : Str) (v : Vars) {τ : Past}
    {o : Option (Except ℕ ℕ × Vars)}
    (hr : Prog.Runs (Script.status (probeRootMarker allowed root) v) τ o) :
    (∀ pre e post, τ = pre ++ e :: post → (probing allowed).Met pre e) ∧
      ∀ n v', o = some (.ok n, v') → Probed [] root n τ := by
  have hsafe : Holds (session (probing allowed)) (Script.status (probeRootMarker allowed root)) v []
      (fun n _ past => Probed [] root n past) fun _ _ _ => True := by
    refine holds_probeRootMarker ?_ ?_ ?_ ?_ fun _ _ _ h => h
    · intro fs device options past' _ hmounts hfs hdevice hoptions
      refine ⟨hfs, hdevice, ?_, hoptions⟩
      rw [hmounts]
      exact List.not_mem_nil
    · exact fun _ _ _ hlast => hlast
    · exact fun _ _ _ hmounts _ => hmounts
    · exact fun _ _ _ hmounts _ => hmounts
  obtain ⟨hmet, hend, -⟩ := session_runs hsafe hr
  exact ⟨hmet, hend⟩

/-- `/usr` is on a partition of its own, and `init` is there when it is mounted. -/
def usrEnv (seen : List (Sigma Answer)) : (c : Call) → Answer c
  | .rootStructure _ => if (ledger seen.reverse).mounts = [] then (2 : ℕ) else (0 : ℕ)
  | .test (.isPresent _) => true
  | .fstab _ => "/dev/sda2 /usr ext4 ro 0 2\n".toList
  | .query (.fsType _) => some "ext4".toList
  | .query (.options _) => some "ro,relatime".toList
  | c => sampleEnv seen c

def usrRun : Past × Option (Except ℕ ℕ × Vars) :=
  (Script.status (probeRootMarker ["/dev/sda".toList] "/mnt".toList) ⟨[], [], [], []⟩).exec usrEnv
    []

/-- `/usr` is mounted, and not any more when the probe ends. -/
theorem probeRootMarker_undone_usr :
    (∃ e ∈ usrRun.1,
      e.1 = .mount "ext4".toList "ro,noload".toList "/dev/sda2".toList "/mnt/usr".toList) ∧
      usrRun.2 = some (.ok 0, ⟨[], [], [], []⟩) ∧ Probed [] "/mnt".toList 0 usrRun.1 := by
  have hend : usrRun.2 = some (.ok 0, ⟨[], [], [], []⟩) := by decide +kernel
  refine ⟨by decide +kernel, hend, ?_⟩
  exact (probeRootMarker_undone _ _ _ (Prog.runs_exec usrEnv _ [])).2 0 _ hend

end Pxeos.CloudInit
