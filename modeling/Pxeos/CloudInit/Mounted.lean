import Pxeos.CloudInit.Ledger

/-!
# What is mounted and activated is remembered

The groups that are activated and the filesystems that are mounted on the way: the variables say
what has been done since the start and was not taken back (`Agrees`), up to deactivations that were
refused.  A step that succeeds has deactivated nothing.
-/

namespace Pxeos.CloudInit

open Pxeos.Lib
open Pxeos.Linux (Vg Candidate Row validateVgName safeIdentifier countStates countStates_idle)
open Pxeos.Lib.Script (Holds)

/-! ### From one past to another -/

/-- A call of a part that mounts at some paths only, and in which no umount is refused. -/
def Inner (paths : List Str) : Sigma Answer → Prop
  | ⟨.mount _ _ _ path, true⟩ => path ∈ paths
  | ⟨.umount _, false⟩ => False
  | _ => True

def Within (paths : List Str) (past past' : Past) : Prop :=
  ∃ es, past ++ es = past' ∧ ∀ e ∈ es, Inner paths e

/-- A deactivation was refused since the start. -/
def RefusedSince (start past : Past) : Prop := ∃ es, start ++ es = past ∧ DeactivateRefused es

section Pasts

variable {paths paths' : List Str} {start start' past past' past'' : Past}

lemma Quiet.inner {e : Sigma Answer} (h : Quiet e) : Inner paths e := by
  obtain ⟨c, r⟩ := e
  cases c with
  | mount fs options device path =>
    cases r with
    | true => exact h.elim
    | false => trivial
  | umount path => exact h.elim
  | _ => trivial

lemma Within.refl (past : Past) : Within paths past past := ⟨[], List.append_nil past, nofun⟩

lemma Later.within (h : Later past past') : Within paths past past' := by
  obtain ⟨es, rfl, hes⟩ := h
  exact ⟨es, rfl, fun e he => (hes e he).inner⟩

lemma within_concat {e : Sigma Answer} (h : Inner paths e) : Within paths past (past ++ [e]) :=
  ⟨[e], rfl, List.forall_mem_singleton.mpr h⟩

lemma Within.begins (h : Within paths past past') : past <+: past' := by
  obtain ⟨es, rfl, -⟩ := h
  exact List.prefix_append _ _

lemma Within.trans (h : Within paths past past') (h' : Within paths past' past'') :
    Within paths past past'' := by
  obtain ⟨es, rfl, hes⟩ := h
  obtain ⟨ds, rfl, hds⟩ := h'
  refine ⟨es ++ ds, (List.append_assoc _ _ _).symm, fun e he => ?_⟩
  exact (List.mem_append.mp he).elim (hes e) (hds e)

lemma Within.mono (h : Within paths past past') (hsub : paths ⊆ paths') :
    Within paths' past past' := by
  obtain ⟨es, rfl, hes⟩ := h
  refine ⟨es, rfl, fun e he => ?_⟩
  have hin := hes e he
  obtain ⟨c, r⟩ := e
  cases c with
  | mount fs options device path =>
    cases r with
    | true => exact hsub hin
    | false => trivial
  | umount path =>
    cases r with
    | true => trivial
    | false => exact hin.elim
  | _ => trivial

lemma RefusedSince.refused (h : RefusedSince start past) : DeactivateRefused past := by
  obtain ⟨es, rfl, vg, hvg⟩ := h
  exact ⟨vg, List.mem_append_right _ hvg⟩

lemma RefusedSince.mono (h : RefusedSince start past) (hbegin : past <+: past') :
    RefusedSince start past' := by
  obtain ⟨es, rfl, hes⟩ := h
  obtain ⟨ds, rfl⟩ := hbegin
  exact ⟨es ++ ds, (List.append_assoc _ _ _).symm, hes.mono (List.prefix_append _ _)⟩

lemma RefusedSince.widen (h : RefusedSince start' past) (hbegin : start <+: start') :
    RefusedSince start past := by
  obtain ⟨ds, rfl⟩ := hbegin
  obtain ⟨es, rfl, vg, hvg⟩ := h
  exact ⟨ds ++ es, (List.append_assoc _ _ _).symm, vg, List.mem_append_right _ hvg⟩

lemma RefusedSince.split (h : RefusedSince start past') (hbegin : start <+: past)
    (hmore : past <+: past') : RefusedSince start past ∨ RefusedSince past past' := by
  obtain ⟨ds, rfl⟩ := hbegin
  obtain ⟨es, rfl⟩ := hmore
  obtain ⟨fs, hfs, vg, hvg⟩ := h
  rw [List.append_assoc, List.append_cancel_left_eq] at hfs
  rw [hfs, List.mem_append] at hvg
  exact hvg.imp (fun h => ⟨ds, rfl, vg, h⟩) fun h => ⟨es, rfl, vg, h⟩

lemma Later.calm (h : Later past past') : ¬ RefusedSince past past' := by
  obtain ⟨es, rfl, hes⟩ := h
  rintro ⟨ds, hds, vg, hvg⟩
  rw [List.append_cancel_left_eq] at hds
  exact hes _ (hds ▸ hvg)

lemma calm_concat {e : Sigma Answer} (h : ∀ vg, e ≠ ⟨.deactivate vg, false⟩) :
    ¬ RefusedSince past (past ++ [e]) := by
  rintro ⟨es, hes, vg, hvg⟩
  rw [List.append_cancel_left_eq] at hes
  rw [hes, List.mem_singleton] at hvg
  exact h vg hvg.symm

lemma refusedSince_concat (vg : Vg) : RefusedSince past (past ++ [⟨.deactivate vg, false⟩]) :=
  ⟨_, rfl, vg, List.mem_cons_self⟩

/-- Nothing was refused on either way. -/
lemma calm_trans (h : ¬ RefusedSince past past') (h' : ¬ RefusedSince past' past'')
    (hbegin : past <+: past') (hbegin' : past' <+: past'') : ¬ RefusedSince past past'' :=
  fun hall => (hall.split hbegin hbegin').elim h h'

end Pasts

/-! ### The variables -/

/-- The variables say what was mounted and activated since the start. -/
structure Agrees (start : Past) (v : Vars) (past : Past) : Prop where
  begins : start <+: past
  mounts : (ledger past).mounts = (ledger start).mounts ++ v.ownedMounts
  covers : (ledger start).groups + (v.ownedGroups : Multiset Vg) ≤ (ledger past).groups
  groups : RefusedSince start past ∨
    (ledger past).groups = (ledger start).groups + (v.ownedGroups : Multiset Vg)
  named : ∀ vg ∈ v.ownedGroups, vg.name ≠ [] ∧ vg.uuid ≠ []
  since : ∀ vg ∈ v.ownedGroups, ActivatedOver (ledger start).mounts vg past

/-- The variables after some steps that mount nothing. -/
structure Grown (start : Past) (v : Vars) (past : Past) (v' : Vars) (past' : Past) : Prop where
  within : Within [] past past'
  agrees : Agrees start v' past'
  mounts : v'.ownedMounts = v.ownedMounts
  mountedRoot : v'.mountedRoot = v.mountedRoot

/-- The variables after some steps that mount something at one path at most. -/
structure Placed (path : Str) (start : Past) (v : Vars) (past : Past) (v' : Vars) (past' : Past) :
    Prop where
  within : Within [path] past past'
  agrees : Agrees start v' past'
  mounts : v'.ownedMounts = v.ownedMounts ∨ v'.ownedMounts = v.ownedMounts ++ [path]
  mountedRoot : v'.mountedRoot = v.mountedRoot

section Steps

variable {needs : Needs} {start : Past} {v v' v'' w : Vars} {past past' past'' : Past}
  {E : ℕ → Vars → Past → Prop} {path : Str}

/-- Nothing has been done yet. -/
lemma agrees_start (hmounts : v.ownedMounts = []) (hgroups : v.ownedGroups = []) :
    Agrees start v start := by
  refine ⟨List.prefix_refl _, ?_, ?_, .inr ?_, ?_, ?_⟩
  · rw [hmounts, List.append_nil]
  · rw [hgroups, Multiset.coe_nil, add_zero]
  · rw [hgroups, Multiset.coe_nil, add_zero]
  · rw [hgroups]
    exact nofun
  · rw [hgroups]
    exact nofun

/-- The same mounts and groups after a while. -/
lemma Agrees.same (h : Agrees start v past) (hbegin : past <+: past')
    (hledger : ledger past' = ledger past) : Agrees start v past' where
  begins := h.begins.trans hbegin
  mounts := by rw [hledger, h.mounts]
  covers := by
    rw [hledger]
    exact h.covers
  groups := by
    rw [hledger]
    exact h.groups.imp_left fun hrefused => hrefused.mono hbegin
  named := h.named
  since vg hvg := (h.since vg hvg).mono hbegin

lemma Agrees.later (h : Agrees start v past) (hlater : Later past past') : Agrees start v past' :=
  h.same hlater.begins hlater.ledger_eq

/-- Only the mounts and the groups of the variables count. -/
lemma Agrees.congr (h : Agrees start v past) (hmounts : v'.ownedMounts = v.ownedMounts)
    (hgroups : v'.ownedGroups = v.ownedGroups) : Agrees start v' past := by
  refine ⟨h.begins, ?_, ?_, ?_, ?_, ?_⟩
  · rw [hmounts, h.mounts]
  · rw [hgroups]
    exact h.covers
  · rw [hgroups]
    exact h.groups
  · rw [hgroups]
    exact h.named
  · rw [hgroups]
    exact h.since

lemma Agrees.grown (h : Agrees start v past) (hlater : Later past past') :
    Grown start v past v past' := ⟨hlater.within, h.later hlater, rfl, rfl⟩

lemma Grown.later (h : Grown start v past v' past') (hlater : Later past' past'') :
    Grown start v past v' past'' :=
  ⟨h.within.trans hlater.within, h.agrees.later hlater, h.mounts, h.mountedRoot⟩

lemma Grown.trans (h : Grown start v past v' past') (h' : Grown start v' past' v'' past'') :
    Grown start v past v'' past'' :=
  ⟨h.within.trans h'.within, h'.agrees, h'.mounts.trans h.mounts,
    h'.mountedRoot.trans h.mountedRoot⟩

lemma Grown.placed (h : Grown start v past v' past') : Placed path start v past v' past' :=
  ⟨h.within.mono (List.nil_subset _), h.agrees, .inl h.mounts, h.mountedRoot⟩

lemma Placed.later (h : Placed path start v past v' past') (hlater : Later past' past'') :
    Placed path start v past v' past'' :=
  ⟨h.within.trans hlater.within, h.agrees.later hlater, h.mounts, h.mountedRoot⟩

/-- The mounts of the ledger as long as nothing is mounted. -/
lemma Grown.ledger_mounts (h : Grown start v past v' past') (hv : Agrees start v past) :
    (ledger past').mounts = (ledger past).mounts := by
  rw [h.agrees.mounts, h.mounts, hv.mounts]

/-! ### The activation of a group -/

/-- A group may be deactivated at once when its activation fails. -/
def Needs.RollsBack (needs : Needs) (past : Past) : Prop :=
  ∀ vg past', past <+: past' → (ledger past').mounts = (ledger past).mounts →
    JustActivated vg past' → needs.release vg past'

lemma Needs.RollsBack.mono (h : needs.RollsBack past) (hbegin : past <+: past')
    (hmounts : (ledger past').mounts = (ledger past).mounts) : needs.RollsBack past' :=
  fun vg past'' hbegin' hmounts' => h vg past'' (hbegin.trans hbegin') (hmounts'.trans hmounts)

lemma Needs.RollsBack.later (h : needs.RollsBack past) (hlater : Later past past') :
    needs.RollsBack past' := h.mono hlater.begins (congrArg Ledger.mounts hlater.ledger_eq)

lemma Needs.RollsBack.grown (h : needs.RollsBack past) (hv : Agrees start v past)
    (hgrown : Grown start v past v' past') : needs.RollsBack past' :=
  h.mono hgrown.within.begins (hgrown.ledger_mounts hv)

/-- The rows of a group. -/
lemma holds_linuxLvsForVgJson {vg : Vg} {Q : List Row → Vars → Past → Prop}
    (h : ∀ rows first, Later past first → rows ≠ [] → vg.name ≠ [] ∧ vg.uuid ≠ [] →
      Q rows v (first ++ [⟨.groupRows vg, some rows⟩]))
    (he : ∀ past', Later past past' → E 1 v past') :
    Holds (session needs) (linuxLvsForVgJson vg) v past Q E := by
  refine .seq (holds_orReturn (fun hsafe => ?_) (he past (.refl past)))
  refine .seq (Script.holds_ask fun report _ => ⟨trivial, ?_⟩)
  have hlater : Later past (past ++ [⟨.groupRows vg, report⟩]) := later_concat trivial
  cases report with
  | none => exact he _ hlater
  | some rows =>
    refine .seq (holds_orReturn (fun hrows => ?_) (he _ hlater))
    refine h rows past (.refl past) (bne_iff_ne.mp hrows) ?_
    simp only [validateVgName, safeIdentifier, Bool.and_eq_true, bne_iff_ne] at hsafe
    exact ⟨hsafe.1.1.1.1.1.1, hsafe.2.1.1⟩

/-- The variables when a group is kept. -/
def kept (vg : Vg) (owned : Bool) (v : Vars) : Vars :=
  if owned then { v with ownedGroups := v.ownedGroups ++ [vg] } else v

lemma holds_keepGroup {vg : Vg} {owned : Bool} {Q : Unit → Vars → Past → Prop}
    (h : Q () (kept vg owned v) past) : Holds (session needs) (keepGroup vg owned) v past Q E := by
  cases owned with
  | true => exact Script.holds_set h
  | false => exact Script.holds_pure h

/-- A group was activated. -/
lemma Agrees.activated {vg : Vg} {ok : Bool} (h : Agrees start v past)
    (hvg : vg.name ≠ [] ∧ vg.uuid ≠ []) :
    Agrees start (kept vg true v) (past ++ [⟨.activate vg, ok⟩]) := by
  have hledger := ledger_concat past ⟨.activate vg, ok⟩
  have hbegin : past <+: past ++ [⟨.activate vg, ok⟩] := List.prefix_append _ _
  have hcons : ((v.ownedGroups ++ [vg] : List Vg) : Multiset Vg) =
      vg ::ₘ (v.ownedGroups : Multiset Vg) :=
    Multiset.coe_eq_coe.mpr (List.perm_append_singleton vg v.ownedGroups)
  refine ⟨h.begins.trans hbegin, ?_, ?_, ?_, fun g hg => ?_, fun g hg => ?_⟩
  · rw [hledger]
    exact h.mounts
  · rw [hledger]
    show (ledger start).groups + ((v.ownedGroups ++ [vg] : List Vg) : Multiset Vg) ≤
      vg ::ₘ (ledger past).groups
    rw [hcons, Multiset.add_cons]
    exact Multiset.cons_le_cons vg h.covers
  · refine h.groups.imp (fun hrefused => hrefused.mono hbegin) fun hgroups => ?_
    rw [hledger]
    show vg ::ₘ (ledger past).groups =
      (ledger start).groups + ((v.ownedGroups ++ [vg] : List Vg) : Multiset Vg)
    rw [hcons, Multiset.add_cons, hgroups]
  · rcases List.mem_append.mp hg with hg | hg
    · exact h.named g hg
    · rw [List.mem_singleton.mp hg]
      exact hvg
  · rcases List.mem_append.mp hg with hg | hg
    · exact (h.since g hg).mono hbegin
    · rw [List.mem_singleton.mp hg]
      refine ⟨past, ok, List.prefix_refl _, ?_⟩
      rw [h.mounts]
      exact List.prefix_append _ _

/-- A group that is owned is deactivated and forgotten; if this is refused, it is still
forgotten. -/
lemma Agrees.deactivated {vg : Vg} {ok : Bool} (h : Agrees start v past)
    (hperm : v.ownedGroups.Perm (vg :: v'.ownedGroups)) (hmounts : v'.ownedMounts = v.ownedMounts) :
    Agrees start v' (past ++ [⟨.deactivate vg, ok⟩]) := by
  have hledger := ledger_concat past ⟨.deactivate vg, ok⟩
  have hbegin : past <+: past ++ [⟨.deactivate vg, ok⟩] := List.prefix_append _ _
  have hcons : (v.ownedGroups : Multiset Vg) = vg ::ₘ (v'.ownedGroups : Multiset Vg) :=
    Multiset.coe_eq_coe.mpr hperm
  have hsub : ∀ g ∈ v'.ownedGroups, g ∈ v.ownedGroups := fun g hg =>
    hperm.symm.subset (List.mem_cons_of_mem _ hg)
  have hcovers := h.covers
  rw [hcons, Multiset.add_cons] at hcovers
  refine ⟨h.begins.trans hbegin, ?_, ?_, ?_, fun g hg => h.named g (hsub g hg),
    fun g hg => (h.since g (hsub g hg)).mono hbegin⟩
  · rw [hledger, hmounts]
    cases ok with
    | true => exact h.mounts
    | false => exact h.mounts
  · rw [hledger]
    cases ok with
    | true =>
      have hle := Multiset.erase_le_erase vg hcovers
      rwa [Multiset.erase_cons_head] at hle
    | false => exact (Multiset.le_cons_self _ vg).trans hcovers
  · cases ok with
    | true =>
      refine h.groups.imp (fun hrefused => hrefused.mono hbegin) fun hgroups => ?_
      rw [hledger]
      show (ledger past).groups.erase vg = _
      rw [hgroups, hcons, Multiset.add_cons, Multiset.erase_cons_head]
    | false => exact .inl ((refusedSince_concat vg).widen h.begins)

lemma kept_perm (vg : Vg) (v : Vars) : (kept vg true v).ownedGroups.Perm (vg :: v.ownedGroups) :=
  List.perm_append_singleton vg v.ownedGroups

/-- The rows behind an activation. -/
lemma holds_allReadable {rows : List Row} {Q : Bool → Vars → Past → Prop}
    (h : ∀ ok past', Later past past' → Q ok v past') :
    Holds (session needs) (allReadable rows) v past Q E := by
  induction rows generalizing past with
  | nil => exact h true past (.refl past)
  | cons row rows ih =>
    unfold allReadable
    split
    · refine .seq (holds_test fun ok past₁ h₁ _ => ?_)
      cases ok with
      | true => exact ih fun ok past₂ h₂ => h ok past₂ (h₁.trans h₂)
      | false => exact h false past₁ h₁
    · exact h false past (.refl past)

/-- The activation is undone. -/
lemma holds_rollBack {vg : Vg} {Q : Bool → Vars → Past → Prop}
    (hw : Agrees start (kept vg true w) past) (hrelease : needs.release vg past)
    (he : ∀ past', Within [] past past' → Agrees start w past' → E 1 v past') :
    Holds (session needs) (rollBack vg) v past Q E := by
  have hmem : vg ∈ (ledger past).groups := by
    refine Multiset.mem_of_le hw.covers (Multiset.mem_add.mpr (.inr ?_))
    exact Multiset.mem_coe.mpr (List.mem_append_right _ List.mem_cons_self)
  refine .seq (Script.holds_ask fun ok _ => ⟨⟨hmem, hrelease⟩, ?_⟩)
  exact he _ (within_concat trivial) (hw.deactivated (kept_perm vg w) rfl)

/-- **A group is activated if it has to be.**  Whatever fails, it is owned behind a success only;
the status 2 comes before everything that changes something. -/
lemma holds_linuxActivateVgIfNeeded {disk : Str} {vg : Vg} {Q : Bool → Vars → Past → Prop}
    (hw : Agrees start w past) (hback : needs.RollsBack past)
    (h : ∀ owned past', Within [] past past' → ¬ RefusedSince past past' →
      Agrees start (kept vg owned w) past' → Q owned v past')
    (he : ∀ n past', Within [] past past' → Agrees start w past' → (n = 2 → Later past past') →
      E n v past') : Holds (session needs) (linuxActivateVgIfNeeded disk vg) v past Q E := by
  have hstop : ∀ {n past'}, Later past past' → E n v past' := fun hlater =>
    he _ _ hlater.within (hw.later hlater) fun _ => hlater
  refine .seq (holds_test fun valid past₁ h₁ _ => ?_)
  cases valid with
  | false => exact .seq (hstop h₁)
  | true =>
  refine .seq (holds_require (fun past₂ h₂ _ => ?_) fun past₂ h₂ => hstop (h₁.trans h₂))
  have h₁₂ := h₁.trans h₂
  refine .seq (holds_linuxLvsForVgJson (fun rows first h₃ hrows hvg => ?_) fun past₃ h₃ =>
    hstop (h₁₂.trans h₃))
  have h₁₃ : Later past (first ++ [⟨.groupRows vg, some rows⟩]) :=
    (h₁₂.trans h₃).trans (later_concat trivial)
  generalize hcount : countStates rows = count
  cases count with
  | none => exact hstop h₁₃
  | some count =>
    obtain ⟨inactive, active⟩ := count
    dsimp only
    split
    · rename_i hidle
      have hreport : IdleReport vg (first ++ [⟨.groupRows vg, some rows⟩]) :=
        ⟨first, rows, rfl, hrows, countStates_idle.mp ⟨_, hcount, hidle⟩⟩
      refine .seq (Script.holds_ask fun ok _ => ⟨hreport, ?_⟩)
      set past₃ := first ++ [⟨.groupRows vg, some rows⟩]
      have hown : Agrees start (kept vg true w) (past₃ ++ [⟨.activate vg, ok⟩]) :=
        (hw.later h₁₃).activated hvg
      have hwithin : Within [] past (past₃ ++ [⟨.activate vg, ok⟩]) :=
        h₁₃.within.trans (within_concat trivial)
      -- the activation is undone behind some calls that change nothing
      have hundo : ∀ past₄, Later (past₃ ++ [⟨.activate vg, ok⟩]) past₄ →
          Holds (session needs) (rollBack vg) v past₄ Q E := by
        intro past₄ h₄
        have hmounts : (ledger past₄).mounts = (ledger past).mounts := by
          rw [(hown.later h₄).mounts, hw.mounts]
          rfl
        refine holds_rollBack (hown.later h₄) (hback vg past₄ (hwithin.begins.trans h₄.begins)
          hmounts ⟨past₃, ok, h₄⟩) fun past' h₅ hagrees => ?_
        exact he 1 past' ((hwithin.trans h₄.within).trans h₅) hagrees nofun
      cases ok with
      | false => exact hundo _ (.refl _)
      | true =>
        refine .seq (Script.holds_attempt (holds_linuxLvsForVgJson (fun rows' first' h₄ _ _ => ?_)
          fun past₄ h₄ => hundo past₄ h₄))
        have h₄' := h₄.trans (later_concat (e := ⟨.groupRows vg, some rows'⟩) trivial)
        refine .seq (holds_allReadable fun ok past₅ h₅ => ?_)
        have h₄₅ := h₄'.trans h₅
        cases ok with
        | true =>
          have hcalm : ¬ RefusedSince past₃ past₅ := calm_trans
            (calm_concat (e := ⟨.activate vg, true⟩) nofun) h₄₅.calm (List.prefix_append _ _)
            h₄₅.begins
          refine h true past₅ (hwithin.trans h₄₅.within) ?_ (hown.later h₄₅)
          exact calm_trans h₁₃.calm hcalm h₁₃.begins ((List.prefix_append _ _).trans h₄₅.begins)
        | false => exact hundo past₅ h₄₅
    · split
      · exact h false _ h₁₃.within h₁₃.calm (hw.later h₁₃)
      · exact hstop h₁₃

/-! ### Devices -/

/-- **A device that is permitted was shown to be.** -/
lemma holds_ciDevicePermitted {allowed : List Str} {device : Str} {Q : ℕ → Vars → Past → Prop}
    (hv : Agrees start v past) (hback : needs.RollsBack past)
    (h : ∀ n v' past', Grown start v past v' past' →
      (n = 0 → DevicePermitted allowed device past' ∧ ¬ RefusedSince past past') → Q n v' past') :
    Holds (session needs) (Script.status (ciDevicePermitted allowed device)) v past Q E := by
  have hstop : ∀ {past'}, Later past past' → Q 1 v past' := fun hlater =>
    h 1 v _ (hv.grown hlater) nofun
  refine Script.holds_status ?_
  refine .seq (holds_searchPartitions (fun past₁ h₁ hall => ?_) fun n past₁ h₁ hfound => ?_)
  · refine .seq (holds_look (fun _ => trivial) (fun _ => trivial) fun report past₂ h₂ hreport => ?_)
    have h₁₂ := h₁.trans h₂
    cases report with
    | none => exact hstop h₁₂
    | some rows =>
      refine .seq (holds_matchingGroup (fun selected past₃ h₃ hfrom => ?_) fun past₃ h₃ =>
        hstop (h₁₂.trans h₃))
      have h₁₃ := h₁₂.trans h₃
      split
      · rename_i vg disk rest
        obtain ⟨row, hrow, rfl, hprinted⟩ := (hfrom vg rfl).resolve_left nofun
        refine .seq (holds_require (fun past₄ h₄ hpvs => ?_) fun past₄ h₄ => hstop (h₁₃.trans h₄))
        have h₁₄ := h₁₃.trans h₄
        refine .seq (Script.holds_attempt (holds_linuxActivateVgIfNeeded (hv.later h₁₄)
          (hback.later h₁₄) (fun owned past₅ hwithin hcalm hagrees => ?_)
          fun n past₅ hwithin hagrees _ => ?_))
        · have hbegin := hwithin.begins
          refine holds_keepGroup (h 0 _ past₅ ⟨h₁₄.within.trans hwithin, hagrees, ?_, ?_⟩
            fun _ => ⟨.inr ⟨?_, disk, List.mem_cons_self, rows, row, hrow, ?_, ?_, ?_⟩, ?_⟩)
          · cases owned <;> rfl
          · cases owned <;> rfl
          · exact fun d hd => (hall d hd).mono (((h₂.trans h₃).trans h₄).begins.trans hbegin)
          · exact ((h₃.trans h₄).begins.trans hbegin).subset hreport
          · exact hprinted.mono (h₄.begins.trans hbegin)
          · exact hpvs.mono hbegin
          · exact calm_trans h₁₄.calm hcalm h₁₄.begins hbegin
        · exact h 1 v past₅ ⟨h₁₄.within.trans hwithin, hagrees, rfl, rfl⟩ nofun
      · exact hstop h₁₃
  · exact h n v past₁ (hv.grown h₁) fun hn => ⟨.inl (hfound hn), h₁.calm⟩

/-- The groups that are tried. -/
lemma holds_tryGroups {disk source : Str} {rows : List LvRow} {attempted : List Str}
    {Q : Option Str → Vars → Past → Prop} (hv : Agrees start v past)
    (hback : needs.RollsBack past)
    (h : ∀ o v' past', Grown start v past v' past' → ¬ RefusedSince past past' → Q o v' past')
    (he : ∀ v' past', Grown start v past v' past' → E 1 v' past') :
    Holds (session needs) (tryGroups disk source rows attempted) v past Q E := by
  induction rows generalizing attempted v past with
  | nil => exact h none v past (hv.grown (.refl past)) (Later.refl past).calm
  | cons row rows ih =>
    unfold tryGroups
    split
    · exact ih hv hback h he
    · refine .seq (Script.holds_attempt (holds_linuxActivateVgIfNeeded hv hback
        (fun owned past₁ hwithin hcalm hagrees => ?_) fun n past₁ hwithin hagrees hlater => ?_))
      · have hgrown : Grown start v past (kept row.vg owned v) past₁ := by
          refine ⟨hwithin, hagrees, ?_, ?_⟩
          · cases owned <;> rfl
          · cases owned <;> rfl
        refine .seq (holds_keepGroup ?_)
        refine .seq (Script.holds_attempt (holds_ciFstabDevice (fun device past₂ h₂ => ?_)
          fun n past₂ h₂ => ?_))
        · refine h (some device) _ past₂ (hgrown.later h₂) ?_
          exact calm_trans hcalm h₂.calm hwithin.begins h₂.begins
        · have hgrown₂ := hgrown.later h₂
          have hcalm₂ := calm_trans hcalm h₂.calm hwithin.begins h₂.begins
          refine ih hgrown₂.agrees (hback.grown hv hgrown₂) (fun o v' past' hg hc => ?_)
            fun v' past' hg => he v' past' (hgrown₂.trans hg)
          exact h o v' past' (hgrown₂.trans hg)
            (calm_trans hcalm₂ hc hgrown₂.within.begins hg.within.begins)
      · have hgrown : Grown start v past v past₁ := ⟨hwithin, hagrees, rfl, rfl⟩
        split
        · rename_i htwo
          have h₁ := hlater (Except.error.inj htwo)
          refine ih hagrees (hback.later h₁) (fun o v' past' hg hc => ?_)
            fun v' past' hg => he v' past' (hgrown.trans hg)
          exact h o v' past' (hgrown.trans hg) (calm_trans h₁.calm hc h₁.begins hg.within.begins)
        · exact he v past₁ hgrown
        · rename_i hok
          cases hok

lemma holds_deviceOf {allowed : List Str} {source : Str} {Q : Str → Vars → Past → Prop}
    (hv : Agrees start v past) (hback : needs.RollsBack past)
    (h : ∀ device v' past', Grown start v past v' past' → ¬ RefusedSince past past' →
      Q device v' past')
    (he : ∀ v' past', Grown start v past v' past' → E 1 v' past') :
    Holds (session needs) (deviceOf allowed source) v past Q E := by
  have hstop : ∀ {past'}, Later past past' → E 1 v past' := fun hlater =>
    he v _ (hv.grown hlater)
  refine .seq (Script.holds_attempt (holds_ciFstabDevice (fun device past₁ h₁ => ?_)
    fun rc past₁ h₁ => ?_))
  · exact h device v past₁ (hv.grown h₁) h₁.calm
  · dsimp only
    split
    · exact hstop h₁
    · refine .seq (holds_orReturn (fun _ => ?_) (hstop h₁))
      refine .seq (holds_look (fun _ => trivial) (fun _ => trivial) fun report past₂ h₂ _ => ?_)
      have h₁₂ := h₁.trans h₂
      have hgrown := hv.grown h₁₂
      refine .seq (holds_orReturn (fun _ => ?_) (hstop h₁₂))
      refine .seq (holds_tryGroups hgrown.agrees (hback.later h₁₂) (fun o v' past' hg hc => ?_)
        fun v' past' hg => he v' past' (hgrown.trans hg))
      cases o with
      | none => exact he v' past' (hgrown.trans hg)
      | some device =>
        exact h device v' past' (hgrown.trans hg)
          (calm_trans h₁₂.calm hc h₁₂.begins hg.within.begins)

/-! ### Mounts -/

/-- A filesystem of a permitted device may be mounted at a path, as long as the mounts are what
they are now. -/
def Needs.Mounts (needs : Needs) (allowed : List Str) (path : Str) (mode : Mode) (past : Past) :
    Prop :=
  ∀ fs device options past', past <+: past' → (ledger past').mounts = (ledger past).mounts →
    supported fs = true → DevicePermitted allowed device past' →
    linuxMountOptions mode fs none = some options → needs.mount fs options device path past'

lemma Needs.Mounts.mono {allowed : List Str} {mode : Mode} (h : needs.Mounts allowed path mode past)
    (hbegin : past <+: past') (hmounts : (ledger past').mounts = (ledger past).mounts) :
    needs.Mounts allowed path mode past' := fun fs device options past'' hbegin' hmounts' =>
  h fs device options past'' (hbegin.trans hbegin') (hmounts'.trans hmounts)

/-- The variables when something is mounted. -/
def mountedAt (path : Str) (v : Vars) : Vars := { v with ownedMounts := v.ownedMounts ++ [path] }

lemma Agrees.mounted {fs options device : Str} (h : Agrees start v past) :
    Agrees start (mountedAt path v) (past ++ [⟨.mount fs options device path, true⟩]) := by
  have hledger := ledger_concat past ⟨.mount fs options device path, true⟩
  have hbegin : past <+: past ++ [⟨.mount fs options device path, true⟩] := List.prefix_append _ _
  refine ⟨h.begins.trans hbegin, ?_, ?_, ?_, h.named, fun vg hvg => (h.since vg hvg).mono hbegin⟩
  · rw [hledger]
    show (ledger past).mounts ++ [path] = (ledger start).mounts ++ (v.ownedMounts ++ [path])
    rw [h.mounts, List.append_assoc]
  · rw [hledger]
    exact h.covers
  · rw [hledger]
    exact h.groups.imp_left fun hrefused => hrefused.mono hbegin

/-- What a mount leaves. -/
lemma holds_mountAt {fs device : Str} {mode : Mode} {Q : Unit → Vars → Past → Prop}
    (hv : Agrees start v past)
    (hmount : ∀ options, linuxMountOptions mode fs none = some options →
      needs.mount fs options device path past)
    (h : ∀ past', Within [path] past past' → ¬ RefusedSince past past' →
      Agrees start (mountedAt path v) past' → Q () (mountedAt path v) past')
    (he : ∀ past', Later past past' → E 1 v past') :
    Holds (session needs) (mountAt fs device path mode) v past Q E := by
  unfold mountAt
  split
  · exact he past (.refl past)
  · rename_i options hoptions
    refine .seq (Script.holds_ask fun ok _ => ⟨hmount options hoptions, ?_⟩)
    cases ok with
    | false => exact he _ (later_concat trivial)
    | true =>
      refine .seq (Script.holds_pure (Script.holds_set (h _ (within_concat ?_) ?_ hv.mounted)))
      · exact List.mem_cons_self
      · exact calm_concat nofun

lemma holds_mountEntry {allowed : List Str} {mode : Mode} {entry : Option (Str × Str)}
    {Q : Unit → Vars → Past → Prop} (hv : Agrees start v past) (hback : needs.RollsBack past)
    (hmount : needs.Mounts allowed path mode past)
    (h : ∀ v' past', Placed path start v past v' past' → ¬ RefusedSince past past' → Q () v' past')
    (he : ∀ v' past', Placed path start v past v' past' → E 1 v' past') :
    Holds (session needs) (mountEntry allowed path mode entry) v past Q E := by
  cases entry with
  | none =>
    exact holds_requireUnmounted (fun past₁ h₁ => h v past₁ (hv.grown h₁).placed h₁.calm)
      fun past₁ h₁ => he v past₁ (hv.grown h₁).placed
  | some entry =>
    obtain ⟨source, declared⟩ := entry
    refine .seq (holds_deviceOf hv hback (fun device v₁ past₁ h₁ hc₁ => ?_)
      fun v₁ past₁ h₁ => he v₁ past₁ h₁.placed)
    refine .seq (holds_ciDevicePermitted h₁.agrees (hback.grown hv h₁)
      fun n v₂ past₂ h₂ hpermitted => ?_)
    have h₁₂ := h₁.trans h₂
    refine .seq (holds_orReturn (fun hn => ?_) (he v₂ past₂ h₁₂.placed))
    obtain ⟨hdevice, hc₂⟩ := hpermitted (beq_iff_eq.mp hn)
    refine .seq (holds_demand (fun fs past₃ h₃ _ => ?_) fun past₃ h₃ =>
      he v₂ past₃ (h₁₂.later h₃).placed)
    have h₁₃ := h₁₂.later h₃
    refine .seq (holds_orReturn (fun hfs => ?_) (he v₂ past₃ h₁₃.placed))
    refine .seq (holds_test fun busy past₄ h₄ _ => ?_)
    have h₁₄ := h₁₃.later h₄
    have hcalm : ¬ RefusedSince past past₄ := by
      have h₃₄ := h₃.trans h₄
      refine calm_trans hc₁ ?_ h₁.within.begins (h₂.within.begins.trans h₃₄.begins)
      exact calm_trans hc₂ h₃₄.calm h₂.within.begins h₃₄.begins
    -- in the end the mount is looked at
    have hlook : ∀ v' past', Placed path start v past v' past' → ¬ RefusedSince past past' →
        Holds (session needs) (ciMountMatches path device mode) v' past' Q E := by
      intro v' past' hplaced hc
      refine holds_ciMountMatches (fun past₅ h₅ _ => ?_) fun past₅ h₅ =>
        he v' past₅ (hplaced.later h₅)
      exact h v' past₅ (hplaced.later h₅) (calm_trans hc h₅.calm hplaced.within.begins h₅.begins)
    cases busy with
    | true => exact hlook v₂ past₄ h₁₄.placed hcalm
    | false =>
      refine .seq (holds_mountAt h₁₄.agrees (fun options hoptions => ?_)
        (fun past₅ hwithin hc hagrees => ?_) fun past₅ h₅ => he v₂ past₅ (h₁₄.later h₅).placed)
      · exact hmount fs device options past₄ h₁₄.within.begins (h₁₄.ledger_mounts hv)
          (Bool.and_eq_true_iff.mp hfs).2 (hdevice.mono (h₃.trans h₄).begins) hoptions
      · have hbegin := h₁₄.within.begins
        refine hlook _ past₅ ⟨(h₁₄.within.mono (List.nil_subset _)).trans hwithin, hagrees, .inr ?_,
          h₁₄.mountedRoot⟩ (calm_trans hcalm hc hbegin hwithin.begins)
        exact congrArg (· ++ [path]) h₁₄.mounts

/-- **A filesystem of the target is mounted at its place, or nothing is.** -/
lemma holds_ciMountFstab {allowed : List Str} {root : Str} {requested : Requested} {mode : Mode}
    {Q : ℕ → Vars → Past → Prop} (hv : Agrees start v past) (hback : needs.RollsBack past)
    (hmount : needs.Mounts allowed (root ++ requested.path) mode past)
    (h : ∀ n v' past', Placed (root ++ requested.path) start v past v' past' →
      (n = 0 → ¬ RefusedSince past past') → Q n v' past') :
    Holds (session needs) (Script.status (ciMountFstab allowed root requested mode))
      v past Q E := by
  have hstop : ∀ {n past'}, Later past past' → Q n v past' := fun hlater =>
    h _ v _ (hv.grown hlater).placed fun _ => hlater.calm
  refine Script.holds_status (.seq (holds_require (fun past₁ h₁ _ => ?_) fun past₁ h₁ => hstop h₁))
  -- what comes behind the checks of the directories below `/var`
  have hentry : ∀ past₂, Later past past₂ → Holds (session needs)
      (fstabEntry root requested >>= mountEntry allowed (root ++ requested.path) mode) v past₂
      (fun _ => Q 0) Q := by
    intro past₂ h₂
    refine .seq (holds_fstabEntry (fun entry past₃ h₃ => ?_) fun past₃ h₃ => hstop (h₂.trans h₃))
    have h₂₃ := h₂.trans h₃
    have hplaced : ∀ {v' past'}, Placed (root ++ requested.path) start v past₃ v' past' →
        Placed (root ++ requested.path) start v past v' past' := fun hp =>
      ⟨h₂₃.within.trans hp.within, hp.agrees, hp.mounts, hp.mountedRoot⟩
    have hmounts : (ledger past₃).mounts = (ledger past).mounts :=
      congrArg Ledger.mounts h₂₃.ledger_eq
    refine holds_mountEntry (hv.later h₂₃) (hback.later h₂₃) (hmount.mono h₂₃.begins hmounts)
      (fun v' past' hp hc => h 0 v' past' (hplaced hp) fun _ => ?_) fun v' past' hp =>
      h 1 v' past' (hplaced hp) nofun
    exact calm_trans h₂₃.calm hc h₂₃.begins hp.within.begins
  split
  · refine .seq ((Script.holds_forEach (fun _ v' past' => v' = v ∧ Later past past') ?_ varPaths
      ⟨rfl, h₁⟩).mono ?_ fun _ _ _ h => h)
    · rintro path rest _ past₂ ⟨rfl, h₂⟩
      exact holds_requireUnmounted (fun past₃ h₃ => ⟨rfl, h₂.trans h₃⟩) fun past₃ h₃ =>
        hstop (h₂.trans h₃)
    · rintro _ _ past₂ ⟨rfl, h₂⟩
      exact hentry past₂ h₂
  · exact hentry past₁ h₁

/-- What the mount of the root leaves: a root that matches its device, or a failure. -/
structure RootPlaced (device : Str) (mode : Mode) (start : Past) (v : Vars) (past : Past) (n : ℕ)
    (v' : Vars) (past' : Past) : Prop where
  begins : past <+: past'
  agrees : Agrees start v' past'
  mounts : v'.ownedMounts = v.ownedMounts ∨ n ≠ 0 ∨
    v'.ownedMounts = v.ownedMounts ++ [v'.mountedRoot]
  done : n = 0 → MountMatches v'.mountedRoot device mode past' ∧ ¬ RefusedSince past past'

/-- A root may be mounted, as long as the mounts are what they are now. -/
def Needs.MountsRoot (needs : Needs) (device : Str) (mode : Mode) (past : Past) : Prop :=
  ∀ fs options root past', past <+: past' → (ledger past').mounts = (ledger past).mounts →
    supported fs = true → linuxMountOptions mode fs none = some options →
    needs.mount fs options device root past'

lemma holds_ciMountRoot {device fs work : Str} {mode : Mode} {Q : ℕ → Vars → Past → Prop}
    (hv : Agrees start v past) (hfs : supported fs = true)
    (hmount : needs.MountsRoot device mode past)
    (h : ∀ n v' past', RootPlaced device mode start v past n v' past' → Q n v' past') :
    Holds (session needs) (Script.status (ciMountRoot device fs work mode)) v past Q E := by
  have hstop : ∀ {past'}, Later past past' → Q 1 v past' := fun hlater =>
    h 1 v _ ⟨hlater.begins, hv.later hlater, .inl rfl, nofun⟩
  refine Script.holds_status (.seq (holds_query fun borrowed past₁ h₁ _ => ?_))
  dsimp only
  split
  · refine .seq (holds_orReturn (fun _ => ?_) (hstop h₁))
    refine .seq (holds_require (fun past₂ h₂ _ => ?_) fun past₂ h₂ => hstop (h₁.trans h₂))
    have h₁₂ := h₁.trans h₂
    refine .seq (Script.holds_status (holds_ciMountMatches (fun past₃ h₃ hmatch => ?_)
      fun past₃ h₃ => ?_))
    · have h₁₃ := h₁₂.trans h₃
      refine .seq (holds_orReturn (fun _ => Script.holds_set (h 0 _ past₃ ?_)) (hstop h₁₃))
      exact ⟨h₁₃.begins, (hv.later h₁₃).congr rfl rfl, .inl rfl, fun _ => ⟨hmatch, h₁₃.calm⟩⟩
    · exact .seq (holds_orReturn nofun (hstop (h₁₂.trans h₃)))
  · refine .seq (holds_test fun present past₂ h₂ _ => ?_)
    have h₁₂ := h₁.trans h₂
    cases present with
    | true => exact hstop h₁₂
    | false =>
      refine .seq (holds_require (fun past₃ h₃ _ => ?_) fun past₃ h₃ => hstop (h₁₂.trans h₃))
      have h₁₃ := h₁₂.trans h₃
      refine .seq (holds_mountAt (hv.later h₁₃) (fun options hoptions => ?_)
        (fun past₄ hwithin hc hagrees => ?_) fun past₄ h₄ => hstop (h₁₃.trans h₄))
      · exact hmount fs options _ past₃ h₁₃.begins (congrArg Ledger.mounts h₁₃.ledger_eq) hfs
          hoptions
      · have hbegin := h₁₃.begins.trans hwithin.begins
        have hcalm := calm_trans h₁₃.calm hc h₁₃.begins hwithin.begins
        refine .seq (Script.holds_set (holds_ciMountMatches (fun past₅ h₅ hmatch => ?_)
          fun past₅ h₅ => ?_))
        · exact h 0 _ past₅ ⟨hbegin.trans h₅.begins, (hagrees.later h₅).congr rfl rfl,
            .inr (.inr rfl), fun _ => ⟨hmatch, calm_trans hcalm h₅.calm hbegin h₅.begins⟩⟩
        · exact h 1 _ past₅ ⟨hbegin.trans h₅.begins, (hagrees.later h₅).congr rfl rfl,
            .inr (.inl one_ne_zero), nofun⟩

end Steps

end Pxeos.CloudInit
