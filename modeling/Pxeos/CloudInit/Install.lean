import Pxeos.CloudInit.Searched

/-!
# The installation on the disks of a task

`rootpxe_cloud_init_install_for_targets` of `cloud-init.sh`: all the disks are searched for a root,
and if they have a single one, it is processed twice, first to be read and then to be written.
Nothing is written before the first processing has succeeded and the permits of all the disks were
verified once more.
-/

namespace Pxeos.CloudInit

open Pxeos.Lib
open Pxeos.Linux (Vg Candidate Row lvmMember supportedFstype)
open Pxeos.Lib.Script (Holds)

/-! ### The search -/

/-- `canonical|rdev|fs|vg|uuid|subvol`. -/
def identityText (canonical rdev : Str) (c : Candidate) : Str :=
  List.intercalate ['|'] [canonical, rdev, c.fstype, (c.vg.map Vg.name).getD [],
    (c.vg.map Vg.uuid).getD [], []]

/-- `rootpxe_ci_candidate_identity`. -/
def ciCandidateIdentity (c : Candidate) : Shell Str := do
  orReturn (isSupportedRoot c)
  let canonical ← demand (.readlink c.device)
  orReturn (← ciDeviceIsBlock canonical)
  let rdev ← demand (.rdev canonical)
  orReturn (isPositive rdev)
  pure (identityText canonical rdev c)

/-- `identity_device|identity_rdev`, read from the first line of the identity. -/
def identityKey (identity : Str) : Str :=
  let fields := (identity.takeWhile (· ≠ '\n')).splitOn '|'
  fields.getD 0 [] ++ '|' :: fields.getD 1 []

/-- An entry of `candidates_seen`, with the disk and the candidate that it was made for. -/
structure Found where
  key : Str
  identity : Str
  disk : Str
  candidate : Candidate
  deriving DecidableEq, Repr

/-- `selected_vg_names` with `selected_vg_uuids`, and `candidates_seen`. -/
structure Search where
  groups : List Vg
  found : List Found
  deriving DecidableEq, Repr

/-- `rootpxe_cloud_init_error=…; result=1; break`. -/
def broken (code : String) (s : Search) : Shell (Bool × Search) := do
  Script.set fun v => { v with error := code.toList }
  pure (false, s)

/-- The same root can be found on several disks. -/
def record (disk : Str) (c : Candidate) (identity : Str) (s : Search) : Option Search :=
  match s.found.find? fun f => f.key == identityKey identity with
  | some f => if f.identity = identity then some s else none
  | none => some { s with found := s.found ++ [⟨identityKey identity, identity, disk, c⟩] }

/-- The group of a candidate is activated, if it has one; the answer is the group, if it was not
active. -/
def openCandidate (disk : Str) : Option Vg → Shell (Option (List Vg))
  | none => pure (some [])
  | some vg => do
    match ← Script.attempt (linuxActivateVgIfNeeded disk vg) with
    | .ok owned => pure (some (if owned then [vg] else []))
    | .error _ => pure none

/-- A candidate whose group is active. -/
def identifyCandidate (disk : Str) (c : Candidate) (s : Search) : Shell (Bool × Search) := do
  match ← Script.attempt (ciCandidateIdentity c) with
  | .error _ => broken "cloud_init_root_identity_unverified" s
  | .ok identity =>
    match record disk c identity s with
    | none => broken "cloud_init_root_identity_conflict" s
    | some s' => pure (true, s')

/-- What is done with a candidate. -/
def takeCandidate (disk : Str) (c : Candidate) (s : Search) : Shell (Bool × Search) :=
  if isSupportedRoot c then do
    match ← openCandidate disk c.vg with
    | none => broken "cloud_init_root_probe_failed" s
    | some owned => identifyCandidate disk c { s with groups := s.groups ++ owned }
  else broken "cloud_init_root_identity_unverified" s

/-- What follows the search of a disk. -/
def endTurn (disk work : Str) (s : Search) (found : Except ℕ Candidate) : Shell (Bool × Search) :=
  do
  if (← Script.status (ciWorkspaceRemove work)) = 0 then
    match found with
    | .ok c => takeCandidate disk c s
    | .error 20 => pure (true, s)
    | .error _ => broken "cloud_init_root_probe_failed" s
  else broken "cloud_init_probe_cleanup_failed" s

/-- Where the disks are searched. -/
def probePlace (disks : List Str) (work : Str) : Place :=
  ⟨work ++ "/probe".toList, true, some disks⟩

/-- The body of the loop over the disks. -/
def searchTurn (disks : List Str) (disk : Str) (s : Search) : Shell (Bool × Search) := do
  match ← query .mktemp with
  | none => broken "cloud_init_root_probe_failed" s
  | some work => do
    let found ← Script.subshell (findLinuxRootFilesystem (probePlace disks work) disk)
    endTurn disk work s found

/-- The loop over the disks, up to a `break`. -/
def searchTargets (disks : List Str) : List Str → Search → Shell (Bool × Search)
  | [], s => pure (true, s)
  | disk :: rest, s => do
    let turn ← searchTurn disks disk s
    if turn.1 then searchTargets disks rest turn.2 else pure turn

/-- The root, if it is the only one. -/
def chooseRoot (ok : Bool) (s : Search) : Shell (Option Found) :=
  if ok then
    match s.found with
    | [f] => pure (some f)
    | _ => do
      Script.set fun v => { v with error := "cloud_init_roots_not_unique".toList }
      pure none
  else pure none

/-- The last loop: all groups are deactivated that can be. -/
def releaseSelected : List Vg → Shell Bool
  | [] => pure true
  | vg :: vgs => do
    let ok ← cleanupSelectedVg vg
    if ok then pure () else Script.set fun v =>
      { v with error := "cloud_init_mount_cleanup_failed".toList }
    let others ← releaseSelected vgs
    pure (ok && others)

/-- `rootpxe_linux_select_unique_root_for_targets`, for the deployment of a Linux system or
something else. -/
def linuxSelectUniqueRootForTargets (deploying : Bool) (disks : List Str) : Shell Found := do
  orReturn (disks != [] && deploying)
  Script.forEach disks fun disk => do
    if ← test (.verifyPermit disk) then pure ()
    else failWith "cloud_init_disk_permit_invalid".toList
  let search ← searchTargets disks disks ⟨[], []⟩
  let root ← chooseRoot search.1 search.2
  let released ← releaseSelected search.2.groups.reverse
  match root, released with
  | some f, true => pure f
  | _, _ => Script.exit 1

/-- `rootpxe_cloud_init_install_for_targets`. -/
def cloudInitInstallForTargets (deploying : Bool) (disks : List Str) : Shell Unit := do
  let root ← linuxSelectUniqueRootForTargets deploying disks
  if (← Script.status (processRoot disks root.disk root.candidate .ro)) = 0 then pure ()
  else do
    Script.set fun v => if v.error = [] then
      { v with error := "cloud_init_readonly_preflight_failed".toList } else v
    Script.exit 1
  Script.forEach disks fun disk => require (.verifyPermit disk)
  processRoot disks root.disk root.candidate .rw

/-! ### What the search has shown -/

/-- A candidate was seen to have an identity. -/
def IdentifiedAs (c : Candidate) (identity : Str) (past : Past) : Prop :=
  isSupportedRoot c = true ∧ ∃ canonical rdev, Printed (.readlink c.device) canonical past ∧
    Printed (.rdev canonical) rdev past ∧ identity = identityText canonical rdev c

/-- A disk was searched, with a result. -/
def Searched (disks : List Str) (disk : Str) (r : Except ℕ Candidate) (past : Past) : Prop :=
  ∃ first τ work v v', first ++ τ <+: past ∧ Printed .mktemp work first ∧
    Prog.Runs (findLinuxRootFilesystem (probePlace disks work) disk v) τ (some (r, v'))

/-- **The root is the only one**: the permits of all the disks were verified, and on each disk there
is no root, or this one. -/
structure Unique (disks : List Str) (disk : Str) (c : Candidate) (past : Past) : Prop where
  mem : disk ∈ disks
  permitted : ∀ d ∈ disks, Passed (.verifyPermit d) past
  found : Searched disks disk (.ok c) past
  only : ∃ identity, IdentifiedAs c identity past ∧ ∀ d ∈ disks,
    Searched disks d (.error 20) past ∨
      ∃ c', Searched disks d (.ok c') past ∧ IdentifiedAs c' identity past

/-- Nothing is mounted, and no group is held but where a deactivation was refused. -/
def LetGo (past : Past) : Prop :=
  (ledger past).mounts = [] ∧ ((ledger past).groups = 0 ∨ DeactivateRefused past)

/-- What the search of the disks holds: its groups, and nothing else unless something was refused; a
umount that was refused has broken it off. -/
structure Carried (vgs : List Vg) (broke : Prop) (past : Past) : Prop where
  named : ∀ vg ∈ vgs, vg.name ≠ [] ∧ vg.uuid ≠ []
  since : ∀ vg ∈ vgs, ActivatedOver [] vg past
  covers : (vgs : Multiset Vg) ≤ (ledger past).groups
  mounts : (ledger past).mounts = [] ∨ UnmountRefused past ∧ broke
  groups : (ledger past).groups = (vgs : Multiset Vg) ∨ DeactivateRefused past ∨
    UnmountRefused past ∧ broke

/-- What is known when some disks have been searched. -/
structure Known (disks searched : List Str) (s : Search) (past : Past) : Prop where
  found : ∀ f ∈ s.found, f.disk ∈ searched ∧ f.key = identityKey f.identity ∧
    Searched disks f.disk (.ok f.candidate) past ∧ IdentifiedAs f.candidate f.identity past
  covered : ∀ d ∈ searched, Searched disks d (.error 20) past ∨
    ∃ c, Searched disks d (.ok c) past ∧ ∃ f ∈ s.found, IdentifiedAs c f.identity past

section Evidence

variable {disks searched : List Str} {disk : Str} {c : Candidate} {identity : Str}
  {past past' start : Past} {s s' : Search} {vgs : List Vg} {broke goal : Prop}
  {r : Except ℕ Candidate}

lemma IdentifiedAs.mono (h : IdentifiedAs c identity past) (hbegin : past <+: past') :
    IdentifiedAs c identity past' := by
  obtain ⟨hroot, canonical, rdev, h1, h2, h3⟩ := h
  exact ⟨hroot, canonical, rdev, h1.mono hbegin, h2.mono hbegin, h3⟩

lemma Searched.mono (h : Searched disks disk r past) (hbegin : past <+: past') :
    Searched disks disk r past' := by
  obtain ⟨first, τ, work, v, v', hfirst, hwork, hr⟩ := h
  exact ⟨first, τ, work, v, v', hfirst.trans hbegin, hwork, hr⟩

lemma Unique.mono (h : Unique disks disk c past) (hbegin : past <+: past') :
    Unique disks disk c past' := by
  obtain ⟨identity, hc, honly⟩ := h.only
  refine ⟨h.mem, fun d hd => (h.permitted d hd).mono hbegin, h.found.mono hbegin, identity,
    hc.mono hbegin, fun d hd => ?_⟩
  refine (honly d hd).imp (fun hnone => hnone.mono hbegin) fun hsome => ?_
  obtain ⟨c', hfound, hc'⟩ := hsome
  exact ⟨c', hfound.mono hbegin, hc'.mono hbegin⟩

lemma Known.mono (h : Known disks searched s past) (hbegin : past <+: past')
    (hs : s'.found = s.found) : Known disks searched s' past' := by
  refine ⟨fun f hf => ?_, fun d hd => ?_⟩
  · obtain ⟨hdisk, hkey, hfound, hid⟩ := h.found f (hs ▸ hf)
    exact ⟨hdisk, hkey, hfound.mono hbegin, hid.mono hbegin⟩
  · refine (h.covered d hd).imp (fun hnone => hnone.mono hbegin) fun hsome => ?_
    obtain ⟨c, hfound, f, hf, hid⟩ := hsome
    exact ⟨c, hfound.mono hbegin, f, hs ▸ hf, hid.mono hbegin⟩

/-- A disk without a root. -/
lemma Known.none (h : Known disks searched s past) (hnone : Searched disks disk (.error 20) past) :
    Known disks (disk :: searched) s past := by
  refine ⟨fun f hf => ?_, List.forall_mem_cons.mpr ⟨.inl hnone, h.covered⟩⟩
  obtain ⟨hdisk, hrest⟩ := h.found f hf
  exact ⟨List.mem_cons_of_mem _ hdisk, hrest⟩

/-- A disk with a root: the root is recorded, or it is recorded already. -/
lemma Known.record (h : Known disks searched s past) (hfound : Searched disks disk (.ok c) past)
    (hid : IdentifiedAs c identity past) (hs : record disk c identity s = some s') :
    s'.groups = s.groups ∧ Known disks (disk :: searched) s' past := by
  unfold CloudInit.record at hs
  split at hs
  · rename_i f hf
    split at hs
    · rename_i hsame
      obtain rfl := Option.some.inj hs
      subst hsame
      refine ⟨rfl, fun g hg => ?_, List.forall_mem_cons.mpr ⟨.inr ⟨c, hfound, f, ?_, hid⟩,
        h.covered⟩⟩
      · obtain ⟨hdisk, hrest⟩ := h.found g hg
        exact ⟨List.mem_cons_of_mem _ hdisk, hrest⟩
      · exact List.mem_of_find?_eq_some hf
    · cases hs
  · obtain rfl := Option.some.inj hs
    refine ⟨rfl, fun g hg => ?_, List.forall_mem_cons.mpr ⟨.inr ⟨c, hfound, _,
      List.mem_concat_self, hid⟩, fun d hd => ?_⟩⟩
    · rcases List.mem_append.mp hg with hg | hg
      · obtain ⟨hdisk, hrest⟩ := h.found g hg
        exact ⟨List.mem_cons_of_mem _ hdisk, hrest⟩
      · rw [List.mem_singleton.mp hg]
        exact ⟨List.mem_cons_self, rfl, hfound, hid⟩
    · refine (h.covered d hd).imp_right fun hsome => ?_
      obtain ⟨c', hfound', f, hf, hid'⟩ := hsome
      exact ⟨c', hfound', f, List.mem_append_left _ hf, hid'⟩

/-! ### What is held -/

lemma Carried.mono (h : Carried vgs broke past) (hgoal : broke → goal) : Carried vgs goal past :=
  ⟨h.named, h.since, h.covers, h.mounts.imp_right fun hr => ⟨hr.1, hgoal hr.2⟩,
    h.groups.imp_right (Or.imp_right fun hr => ⟨hr.1, hgoal hr.2⟩)⟩

lemma Carried.later (h : Carried vgs broke past) (hlater : Later past past') :
    Carried vgs broke past' := by
  have hbegin := hlater.begins
  refine ⟨h.named, fun vg hvg => (h.since vg hvg).mono hbegin, ?_, ?_, ?_⟩
  · rw [hlater.ledger_eq]
    exact h.covers
  · rw [hlater.ledger_eq]
    exact h.mounts.imp_right fun hr => ⟨hr.1.mono hbegin, hr.2⟩
  · rw [hlater.ledger_eq]
    exact h.groups.imp_right (Or.imp (fun hd => hd.mono hbegin) fun hr => ⟨hr.1.mono hbegin, hr.2⟩)

lemma Carried.free (h : Carried vgs False past) : (ledger past).mounts = [] :=
  h.mounts.resolve_right And.right

/-- If no umount was refused, no group is lost. -/
lemma noLeak_of_calm {dir : Str} (h : ¬ UnmountRefused past') : NoLeak dir past past' := by
  rintro pre ⟨c, ok⟩ post rfl hleak
  cases c with
  | umount path =>
    cases ok with
    | true => exact hleak
    | false => exact h ⟨path, List.mem_append_right _ List.mem_cons_self⟩
  | _ => exact hleak

/-- A disk is searched. -/
lemma Carried.hunted {p : Place} (h : Carried vgs False past)
    (hpart : Hunted p past [] [] broke past') : Carried vgs broke past' where
  named := h.named
  since vg hvg := (h.since vg hvg).mono hpart.begins
  covers := by
    have hcovers := hpart.covers
    rw [Multiset.coe_nil, add_zero] at hcovers
    exact h.covers.trans hcovers
  mounts := by
    refine hpart.tidy.imp_left fun hsame => ?_
    rw [hsame.1, h.free, List.append_nil]
  groups := by
    rcases hpart.groups with hrefused | ⟨lost, hgroups, hleak, hlost⟩
    · exact .inr (.inl hrefused.refused)
    by_cases hzero : lost = 0
    · refine h.groups.imp (fun hsame => ?_) fun hr => ?_
      · rw [hgroups, hsame, hzero, Multiset.coe_nil, add_zero, add_zero]
      · exact .inl ((hr.resolve_right And.right).mono hpart.begins)
    · refine .inr (.inr ⟨?_, hlost hzero⟩)
      by_contra hcalm
      exact hzero (hleak.mp (noLeak_of_calm hcalm))

/-- A group is activated, or not. -/
lemma Carried.activated {w : Vars} (h : Carried vgs False past) (hbegin : past <+: past')
    (hpart : Agrees past w past') (hmounts : w.ownedMounts = []) :
    Carried (vgs ++ w.ownedGroups) False past' where
  named vg hvg := (List.mem_append.mp hvg).elim (h.named vg) (hpart.named vg)
  since vg hvg := by
    rcases List.mem_append.mp hvg with hvg | hvg
    · exact (h.since vg hvg).mono hbegin
    · have hover := hpart.since vg hvg
      rwa [h.free] at hover
  covers := by
    rw [← Multiset.coe_add]
    exact (add_le_add_left h.covers _).trans hpart.covers
  mounts := .inl (by rw [hpart.mounts, h.free, hmounts, List.nil_append])
  groups := by
    rcases hpart.groups with hrefused | hgroups
    · exact .inr (.inl hrefused.refused)
    · refine h.groups.imp (fun hsame => ?_) fun hr => ?_
      · rw [hgroups, hsame, Multiset.coe_add]
      · exact .inl ((hr.resolve_right And.right).mono hbegin)

/-- A group is let go, or this is refused. -/
lemma Carried.released {vg : Vg} {ok : Bool} (h : Carried (vg :: vgs) broke past) :
    Carried vgs broke (past ++ [⟨.deactivate vg, ok⟩]) := by
  have hbegin : past <+: past ++ [⟨.deactivate vg, ok⟩] := List.prefix_append _ _
  have hmounts : (ledger (past ++ [⟨.deactivate vg, ok⟩])).mounts = (ledger past).mounts := by
    rw [ledger_concat]
    cases ok with
    | true => rfl
    | false => rfl
  have hcovers := h.covers
  rw [← Multiset.cons_coe] at hcovers
  refine ⟨fun g hg => h.named g (List.mem_cons_of_mem _ hg),
    fun g hg => (h.since g (List.mem_cons_of_mem _ hg)).mono hbegin, ?_, ?_, ?_⟩
  · rw [ledger_concat]
    cases ok with
    | true =>
      have hle := Multiset.erase_le_erase vg hcovers
      rwa [Multiset.erase_cons_head] at hle
    | false => exact (Multiset.le_cons_self _ vg).trans hcovers
  · rw [hmounts]
    exact h.mounts.imp_right fun hr => ⟨hr.1.mono hbegin, hr.2⟩
  · cases ok with
    | false => exact .inr (.inl ⟨vg, List.mem_concat_self⟩)
    | true =>
      refine h.groups.imp (fun hsame => ?_)
        (Or.imp (fun hd => hd.mono hbegin) fun hr => ⟨hr.1.mono hbegin, hr.2⟩)
      rw [ledger_concat]
      show (ledger past).groups.erase vg = _
      rw [hsame, ← Multiset.cons_coe, Multiset.erase_cons_head]

lemma Carried.letGo (h : Carried [] False past) : LetGo past :=
  ⟨h.free, h.groups.imp_right fun hr => hr.resolve_right And.right⟩

lemma Carried.settled (h : Carried [] broke past) : Settled [] past :=
  ⟨h.mounts.imp_right And.left, h.groups.imp_right fun hr => hr.symm.imp_left And.left⟩

lemma LetGo.later (h : LetGo past) (hlater : Later past past') : LetGo past' := by
  unfold LetGo
  rw [hlater.ledger_eq]
  exact ⟨h.1, h.2.imp_right fun hd => hd.mono hlater.begins⟩

lemma LetGo.settled (h : LetGo past) : Settled [] past := ⟨.inl h.1, h.2.imp_right .inr⟩

/-- Something that leaves all as it was lets everything go behind something that did. -/
lemma LetGo.of_eq (h : LetGo past) (hbegin : past <+: past')
    (hledger : ledger past' = ledger past) :
    LetGo past' := by
  unfold LetGo
  rw [hledger]
  exact ⟨h.1, h.2.imp_right fun hd => hd.mono hbegin⟩

/-- The processing of a root behind that. -/
lemma LetGo.processed {n : ℕ} {mode : Mode} (h : LetGo start)
    (hp : Processed start c mode n past') :
    Settled [] past' where
  mounts := hp.settled.mounts.imp_left fun hsame => hsame.trans h.1
  groups := by
    rcases hp.settled.groups with hsame | hrefused
    · rw [hsame]
      exact h.2.imp_right fun hd => .inr (hd.mono hp.begins)
    · exact .inr hrefused

end Evidence

section Steps

variable {needs : Needs} {v v' : Vars} {past past' : Past} {E : ℕ → Vars → Past → Prop}
  {s s' : Search} {disks searched : List Str} {disk : Str} {c : Candidate}

/-! ### The search, step by step -/

/-- What the search of the disks may do. -/
structure Needs.Selects (needs : Needs) (disks : List Str) : Prop where
  search : ∀ work past, (∀ d ∈ disks, Passed (.verifyPermit d) past) → Printed .mktemp work past →
    (ledger past).mounts = [] → needs.Searches (probePlace disks work) past
  release : ∀ vg past, Bare vg past ∨ UnmountRefused past → needs.release vg past

lemma holds_ciCandidateIdentity {Q : Str → Vars → Past → Prop}
    (h : ∀ identity past', Later past past' → IdentifiedAs c identity past' → Q identity v past')
    (he : ∀ past', Later past past' → E 1 v past') :
    Holds (session needs) (ciCandidateIdentity c) v past Q E := by
  refine .seq (holds_orReturn (fun hroot => ?_) (he past (.refl past)))
  refine .seq (holds_demand (fun canonical past₁ h₁ hcanonical => ?_) he)
  refine .seq (holds_ciDeviceIsBlock fun ok past₂ h₂ => ?_)
  have h₁₂ := h₁.trans h₂
  refine .seq (holds_orReturn (fun _ => ?_) (he past₂ h₁₂))
  refine .seq (holds_demand (fun rdev past₃ h₃ hrdev => ?_) fun past₃ h₃ => he past₃ (h₁₂.trans h₃))
  have h₁₃ := h₁₂.trans h₃
  refine .seq (holds_orReturn (fun _ => ?_) (he past₃ h₁₃))
  exact h _ past₃ h₁₃ ⟨hroot, canonical, rdev, hcanonical.mono (h₂.trans h₃).begins, hrdev, rfl⟩

/-- When the search goes on, the disks so far are searched; when it does not, the groups are still
held. -/
structure Turned (disks searched : List Str) (past : Past) (turn : Bool × Search) (past' : Past) :
    Prop where
  begins : past <+: past'
  carried : Carried turn.2.groups (turn.1 = false) past'
  known : turn.1 = true → Known disks searched turn.2 past'

lemma holds_broken {code : String} {broke : Prop} {start : Past}
    {Q : Bool × Search → Vars → Past → Prop} (hs : Carried s.groups broke past)
    (hbegin : start <+: past)
    (h : ∀ turn v' past', Turned disks searched start turn past' → Q turn v' past') :
    Holds (session needs) (broken code s) v past Q E :=
  h (false, s) _ past ⟨hbegin, hs.mono fun _ => rfl, nofun⟩

lemma holds_identifyCandidate {Q : Bool × Search → Vars → Past → Prop}
    (hs : Carried s.groups False past) (hknown : Known disks searched s past)
    (hfound : Searched disks disk (.ok c) past)
    (h : ∀ turn v' past', Turned disks (disk :: searched) past turn past' → Q turn v' past') :
    Holds (session needs) (identifyCandidate disk c s) v past Q E := by
  refine .seq (Script.holds_attempt (holds_ciCandidateIdentity (fun identity past₁ h₁ hid => ?_)
    fun past₁ h₁ => holds_broken (hs.later h₁) h₁.begins h))
  dsimp only
  split
  · exact holds_broken (hs.later h₁) h₁.begins h
  · rename_i s' hrecord
    obtain ⟨hgroups, hnew⟩ :=
      (hknown.mono h₁.begins rfl).record (hfound.mono h₁.begins) hid hrecord
    refine h (true, s') v past₁ ⟨h₁.begins, ?_, fun _ => hnew⟩
    show Carried s'.groups _ past₁
    rw [hgroups]
    exact (hs.later h₁).mono False.elim

lemma holds_openCandidate {vg : Option Vg} {Q : Option (List Vg) → Vars → Past → Prop}
    (hneeds : needs.Selects disks) (hs : Carried s.groups False past)
    (h : ∀ owned past', past <+: past' → Carried (s.groups ++ owned) False past' →
      Q (some owned) v past')
    (he : ∀ past', past <+: past' → Carried s.groups False past' → Q none v past') :
    Holds (session needs) (openCandidate disk vg) v past Q E := by
  cases vg with
  | none =>
    refine h [] past (List.prefix_refl _) ?_
    rwa [List.append_nil]
  | some vg =>
    have hback : needs.RollsBack past := fun vg past' _ _ hjust =>
      hneeds.release vg past' (.inl hjust.bare)
    have hstart : Agrees past ⟨[], [], [], []⟩ past := agrees_start rfl rfl
    refine .seq (Script.holds_attempt (holds_linuxActivateVgIfNeeded hstart hback
      (fun owned past₁ hwithin _ hagrees => ?_) fun n past₁ hwithin hagrees _ => ?_))
    · have hcarried := hs.activated hwithin.begins hagrees (by cases owned <;> rfl)
      cases owned with
      | true => exact h [vg] past₁ hwithin.begins hcarried
      | false => exact h [] past₁ hwithin.begins hcarried
    · have hcarried := hs.activated hwithin.begins hagrees rfl
      rw [List.append_nil] at hcarried
      exact he past₁ hwithin.begins hcarried

lemma holds_takeCandidate {Q : Bool × Search → Vars → Past → Prop} (hneeds : needs.Selects disks)
    (hs : Carried s.groups False past) (hknown : Known disks searched s past)
    (hfound : Searched disks disk (.ok c) past)
    (h : ∀ turn v' past', Turned disks (disk :: searched) past turn past' → Q turn v' past') :
    Holds (session needs) (takeCandidate disk c s) v past Q E := by
  unfold takeCandidate
  split
  · refine .seq (holds_openCandidate hneeds hs (fun owned past₁ hb₁ hs₁ => ?_) fun past₁ hb₁ hs₁ =>
      holds_broken hs₁ hb₁ h)
    refine holds_identifyCandidate hs₁ (hknown.mono hb₁ rfl) (hfound.mono hb₁)
      fun turn v' past' hturn => ?_
    exact h turn v' past' ⟨hb₁.trans hturn.begins, hturn.carried, hturn.known⟩
  · exact holds_broken hs (List.prefix_refl _) h

/-- Behind the search of a disk. -/
lemma holds_endTurn {work : Str} {r : Except ℕ Candidate} {Q : Bool × Search → Vars → Past → Prop}
    (hneeds : needs.Selects disks) (hs : Carried s.groups (Broke r) past)
    (hknown : Known disks searched s past) (hr : Searched disks disk r past)
    (h : ∀ turn v' past', Turned disks (disk :: searched) past turn past' → Q turn v' past') :
    Holds (session needs) (endTurn disk work s r) v past Q E := by
  refine .seq (holds_ciWorkspaceRemove fun n past₁ h₁ => ?_)
  have hb₁ := h₁.begins
  split
  · split
    · rename_i c
      have hcarried : Carried s.groups False past₁ :=
        (hs.later h₁).mono fun hbroke => hbroke.1 c rfl
      refine holds_takeCandidate hneeds hcarried (hknown.mono hb₁ rfl) (hr.mono hb₁)
        fun turn v' past' hturn => ?_
      exact h turn v' past' ⟨hb₁.trans hturn.begins, hturn.carried, hturn.known⟩
    · refine h (true, s) v past₁ ⟨hb₁, (hs.later h₁).mono fun hbroke => absurd rfl hbroke.2,
        fun _ => ?_⟩
      exact (hknown.mono hb₁ rfl).none (hr.mono hb₁)
    · exact holds_broken (hs.later h₁) hb₁ h
  · exact holds_broken (hs.later h₁) hb₁ h

lemma holds_searchTurn {Q : Bool × Search → Vars → Past → Prop} (hneeds : needs.Selects disks)
    (hpermits : ∀ d ∈ disks, Passed (.verifyPermit d) past) (hs : Carried s.groups False past)
    (hknown : Known disks searched s past)
    (h : ∀ turn v' past', Turned disks (disk :: searched) past turn past' → Q turn v' past') :
    Holds (session needs) (searchTurn disks disk s) v past Q E := by
  refine .seq (holds_query fun work past₁ h₁ hwork => ?_)
  have hb₁ := h₁.begins
  cases work with
  | none => exact holds_broken (hs.later h₁) hb₁ h
  | some work =>
    have hs₁ := hs.later h₁
    have hsearches := hneeds.search work past₁ (fun d hd => (hpermits d hd).mono hb₁)
      (hwork work rfl) hs₁.free
    have hsearch :
        Holds (session needs) (findLinuxRootFilesystem (probePlace disks work) disk) v past₁
        (fun c _ past' => Hunted (probePlace disks work) past₁ [] [] (Broke (.ok c)) past')
        fun n _ past' => Hunted (probePlace disks work) past₁ [] [] (Broke (.error n)) past' :=
      holds_findLinuxRootFilesystem hsearches (Q := fun r _ past' =>
        Hunted (probePlace disks work) past₁ [] [] (Broke r) past') fun _ _ h => h
    -- whatever the search has given
    have hgo : ∀ r past₂, Hunted (probePlace disks work) past₁ [] [] (Broke r) past₂ →
        (∃ τ v', past₂ = past₁ ++ τ ∧
          Prog.Runs (findLinuxRootFilesystem (probePlace disks work) disk v)
          τ (some (r, v'))) →
        Holds (session needs) (endTurn disk work s r) v past₂ Q E := by
      rintro r past₂ h₂ ⟨τ, v', rfl, hr⟩
      have hb₂ : past₁ <+: past₁ ++ τ := List.prefix_append _ _
      refine holds_endTurn hneeds (hs₁.hunted h₂) (hknown.mono (hb₁.trans hb₂) rfl)
        ⟨past₁, τ, work, v, v', List.prefix_refl _, hwork work rfl, hr⟩ fun turn v' past' hturn =>
          ?_
      exact h turn v' past' ⟨(hb₁.trans hb₂).trans hturn.begins, hturn.carried, hturn.known⟩
    refine .seq (Script.holds_subshell ((hsearch.runs fun _ _ => rfl).mono
      (fun c v' past₂ hc => ?_) fun n v' past₂ hn => ?_))
    · obtain ⟨h₂, τ, hτ, hr⟩ := hc
      exact hgo (.ok c) past₂ h₂ ⟨τ, v', hτ, hr⟩
    · obtain ⟨h₂, τ, hτ, hr⟩ := hn
      exact hgo (.error n) past₂ h₂ ⟨τ, v', hτ, hr⟩

/-- **The search**: when it was not broken off, all the disks are searched. -/
lemma holds_searchTargets {rest : List Str} {Q : Bool × Search → Vars → Past → Prop}
    (hneeds : needs.Selects disks) (hpermits : ∀ d ∈ disks, Passed (.verifyPermit d) past)
    (hs : Carried s.groups False past) (hknown : Known disks searched s past)
    (h : ∀ turn v' past', Turned disks (rest.reverse ++ searched) past turn past' →
      Q turn v' past') :
    Holds (session needs) (searchTargets disks rest s) v past Q E := by
  induction rest generalizing searched s v past with
  | nil => exact h (true, s) v past ⟨List.prefix_refl _, hs.mono False.elim, fun _ => hknown⟩
  | cons disk rest ih =>
    refine .seq (holds_searchTurn hneeds hpermits hs hknown fun turn v₁ past₁ h₁ => ?_)
    split
    · rename_i hgo
      refine ih (fun d hd => (hpermits d hd).mono h₁.begins)
        (h₁.carried.mono fun hno => by rw [hgo] at hno; cases hno) (h₁.known hgo)
        fun turn' v' past' h₂ =>
          h turn' v' past' ⟨h₁.begins.trans h₂.begins, h₂.carried, fun hgo => ?_⟩
      rw [List.reverse_cons, List.append_assoc]
      exact h₂.known hgo
    · exact h turn v₁ past₁ ⟨h₁.begins, h₁.carried, fun hgo => absurd hgo ‹_›⟩

lemma holds_chooseRoot {ok : Bool} {Q : Option Found → Vars → Past → Prop}
    (h : ∀ f, ok = true → s.found = [f] → Q (some f) v past) (he : ∀ v', Q none v' past) :
    Holds (session needs) (chooseRoot ok s) v past Q E := by
  unfold chooseRoot
  split
  · split
    · exact h _ ‹_› ‹_›
    · exact he _
  · exact he v

/-- The groups are released, but for those that refuse. -/
lemma holds_releaseSelected {vgs : List Vg} {broke : Prop} {Q : Bool → Vars → Past → Prop}
    (hneeds : needs.Selects disks) (hs : Carried vgs broke past)
    (h : ∀ ok v' past', past <+: past' → Carried [] broke past' → Q ok v' past') :
    Holds (session needs) (releaseSelected vgs) v past Q E := by
  induction vgs generalizing v past Q with
  | nil => exact h true v past (List.prefix_refl _) hs
  | cons vg vgs ih =>
    have hmem : vg ∈ (ledger past).groups :=
      Multiset.mem_of_le hs.covers (Multiset.mem_coe.mpr List.mem_cons_self)
    have hrelease : needs.release vg past := by
      refine hneeds.release vg past (hs.mounts.imp (fun hfree => ?_) And.left)
      unfold Bare
      rw [hfree]
      exact hs.since vg List.mem_cons_self
    refine .seq
      (holds_cleanupSelectedVg hmem (hs.named vg List.mem_cons_self) hrelease fun ok => ?_)
    have hbegin : past <+: past ++ [⟨.deactivate vg, ok⟩] := List.prefix_append _ _
    have hrest : ∀ v₁, Holds (session needs) (do
        let others ← releaseSelected vgs
        pure (ok && others)) v₁ (past ++ [⟨.deactivate vg, ok⟩]) Q E := fun v₁ =>
      .seq (ih hs.released fun others v' past' hb => h (ok && others) v' past' (hbegin.trans hb))
    cases ok with
    | true => exact hrest v
    | false => exact .seq (Script.holds_set (hrest _))

/-- One permit is verified: behind it the script goes on, or it exits. -/
def VerifiesPermit (needs : Needs) (E : ℕ → Vars → Past → Prop) (turn : Str → Shell Unit) : Prop :=
  ∀ disk v past (Q : Unit → Vars → Past → Prop),
    Q () v (past ++ [⟨.test (.verifyPermit disk), true⟩]) →
    (∀ v', E 1 v' (past ++ [⟨.test (.verifyPermit disk), false⟩])) →
    Holds (session needs) (turn disk) v past Q E

lemma verifiesPermit_require : VerifiesPermit needs E fun disk => require (.verifyPermit disk) := by
  intro disk v past Q h he
  refine .seq (Script.holds_ask fun ok _ => ⟨trivial, ?_⟩)
  cases ok with
  | true => exact h
  | false => exact he v

lemma verifiesPermit_failWith (code : Str) : VerifiesPermit needs E fun disk => (do
    if ← test (.verifyPermit disk) then pure () else failWith code) := by
  intro disk v past Q h he
  refine .seq (Script.holds_ask fun ok _ => ⟨trivial, ?_⟩)
  cases ok with
  | true => exact h
  | false => exact holds_failWith (he _)

/-- All permits are verified, one after another. -/
lemma holds_permits {turn : Str → Shell Unit} (hturn : VerifiesPermit needs E turn)
    {rest : List Str} {Q : Unit → Vars → Past → Prop}
    (h : ∀ es, Later past (past ++ es) → (∀ d ∈ rest, Passed (.verifyPermit d) es) →
      Q () v (past ++ es))
    (he : ∀ v' past', Later past past' → E 1 v' past') :
    Holds (session needs) (Script.forEach rest turn) v past Q E := by
  induction rest generalizing past with
  | nil =>
    have hnow := h [] (by rw [List.append_nil]; exact .refl past) nofun
    rwa [List.append_nil] at hnow
  | cons disk rest ih =>
    have hlater : ∀ ok : Bool, Later past (past ++ [⟨.test (.verifyPermit disk), ok⟩]) := fun ok =>
      later_concat trivial
    refine .seq (hturn disk v past _ (ih (fun es h₁ hall => ?_) fun v' past' h₁ =>
      he v' past' ((hlater true).trans h₁)) fun v' => he v' _ (hlater false))
    rw [List.append_assoc] at h₁ ⊢
    refine h _ ((hlater true).trans h₁)
      (List.forall_mem_cons.mpr ⟨List.mem_cons_self, fun d hd => ?_⟩)
    exact List.mem_cons_of_mem _ (hall d hd)

/-- **The selection of the root.** -/
lemma holds_linuxSelectUniqueRootForTargets {deploying : Bool} {Q : Found → Vars → Past → Prop}
    (hneeds : needs.Selects disks)
    (h : ∀ f v' past', LetGo past' → Unique disks f.disk f.candidate past' → Q f v' past')
    (he : ∀ v' past', Settled [] past' → E 1 v' past') :
    Holds (session needs) (linuxSelectUniqueRootForTargets deploying disks) v [] Q E := by
  have hstop : ∀ {v' past'}, Later [] past' → E 1 v' past' := fun hlater =>
    he _ _ (.of_eq hlater.ledger_eq)
  refine .seq (holds_orReturn (fun _ => ?_) (hstop (.refl [])))
  refine .seq (holds_permits (verifiesPermit_failWith _) (fun permits h₁ hpermits => ?_)
    fun v' past' hlater => hstop hlater)
  rw [List.nil_append] at h₁ ⊢
  have hs₁ : Carried [] False permits :=
    Carried.later ⟨nofun, nofun, le_refl _, .inl rfl, .inl rfl⟩ h₁
  have hknown : Known disks [] ⟨[], []⟩ permits := ⟨nofun, nofun⟩
  refine .seq (holds_searchTargets hneeds hpermits (s := ⟨[], []⟩) hs₁ hknown
    fun turn v₂ past₂ h₂ => ?_)
  obtain ⟨go, s₂⟩ := turn
  have hreverse : Carried s₂.groups.reverse (go = false) past₂ := by
    obtain ⟨-, ⟨hnamed, hsince, hcovers, hmounts, hgroups⟩, -⟩ := h₂
    rw [← Multiset.coe_reverse] at hcovers hgroups
    exact ⟨fun vg hvg => hnamed vg (List.mem_reverse.mp hvg),
      fun vg hvg => hsince vg (List.mem_reverse.mp hvg), hcovers, hmounts, hgroups⟩
  -- the groups are released, whatever was chosen
  have hreleased : ∀ (root : Option Found) v₃,
      (∀ f, root = some f → go = true ∧ Unique disks f.disk f.candidate past₂) →
      Holds (session needs) (do
        let released ← releaseSelected s₂.groups.reverse
        match root, released with
        | some f, true => pure f
        | _, _ => Script.exit 1) v₃ past₂ Q E := by
    intro root v₃ hroot
    refine .seq (holds_releaseSelected hneeds hreverse fun ok v₄ past₄ hb hs₄ => ?_)
    have hfailed : E 1 v₄ past₄ := he v₄ past₄ hs₄.settled
    cases root with
    | none => exact hfailed
    | some f =>
      cases ok with
      | false => exact hfailed
      | true =>
        obtain ⟨hgo, hunique⟩ := hroot f rfl
        have hletGo : Carried [] False past₄ := hs₄.mono fun hno => by rw [hgo] at hno; cases hno
        exact h f v₄ past₄ hletGo.letGo (hunique.mono hb)
  refine .seq (holds_chooseRoot (fun f hgo hfound => hreleased (some f) v₂ fun f' hf' => ⟨hgo, ?_⟩)
    fun v₃ => hreleased none v₃ nofun)
  obtain rfl := Option.some.inj hf'
  obtain ⟨hall, hcovered⟩ := h₂.known hgo
  have hsearched : ∀ d, d ∈ disks.reverse ++ [] ↔ d ∈ disks := fun d => by
    rw [List.append_nil, List.mem_reverse]
  rw [hfound] at hall hcovered
  obtain ⟨hdisk, -, hfoundOn, hid⟩ := hall f List.mem_cons_self
  refine ⟨(hsearched _).mp hdisk, fun d hd => (hpermits d hd).mono h₂.begins, hfoundOn, f.identity,
    hid, fun d hd => ?_⟩
  refine (hcovered d ((hsearched d).mpr hd)).imp_right fun hsome => ?_
  obtain ⟨c, hc, g, hg, hidc⟩ := hsome
  rw [List.mem_singleton.mp hg] at hidc
  exact ⟨c, hc, hidc⟩

/-! ### The installation -/

/-- The root was chosen, looked at and let go without a complaint, and then all the permits were
verified once more. -/
def Confirmed (disks : List Str) (disk : Str) (c : Candidate) (past : Past) : Prop :=
  ∃ first second, first ++ second <+: past ∧ Unique disks disk c first ∧ LetGo first ∧
    (∃ root, MountMatches root c.device .ro first ∧ Did root .ro first) ∧
      ∀ d ∈ disks, Passed (.verifyPermit d) second

lemma Confirmed.mono (h : Confirmed disks disk c past) (hbegin : past <+: past') :
    Confirmed disks disk c past' := by
  obtain ⟨first, second, hfirst, hrest⟩ := h
  exact ⟨first, second, hfirst.trans hbegin, hrest⟩

/-- A mount of the search: behind all permits, only to be read. -/
structure ProbeMount (disks : List Str) (fs options device path : Str) (past : Past) : Prop where
  permitted : ∀ d ∈ disks, Passed (.verifyPermit d) past
  place : ∃ work, Printed .mktemp work past ∧ path = work ++ "/probe".toList
  type : supportedFstype fs = true ∧ Printed (.probedType device) fs past
  options : ∃ subvolid, linuxMountOptions .ro fs subvolid = some options

/-- A mount of a root, or of a filesystem of its own in it: to be written only when the root is
confirmed. -/
structure RootMount (disks : List Str) (fs options device : Str) (past : Past) : Prop where
  type : supported fs = true
  device : (∃ disk c, Unique disks disk c past ∧ device = c.device) ∨
    DevicePermitted disks device past
  options : linuxMountOptions .ro fs none = some options ∨
    (∃ disk c, Confirmed disks disk c past) ∧ linuxMountOptions .rw fs none = some options

/-- What an installation may do. -/
def installing (disks : List Str) : Needs where
  mount fs options device path past := (path ∉ (ledger past).mounts ∨ UnmountRefused past) ∧
    (ProbeMount disks fs options device path past ∨ RootMount disks fs options device past)
  umount path past := (ledger past).mounts.getLast? = some path ∨ UnmountRefused past
  release vg past := Bare vg past ∨ UnmountRefused past
  install root past := ∃ disk c, Confirmed disks disk c past ∧ MountMatches root c.device .rw past

lemma selects_installing (disks : List Str) : (installing disks).Selects disks where
  search work base hpermits hwork hfree :=
    { free := by
        rw [hfree]
        exact List.not_mem_nil
      mount := by
        intro fs device options subvolid past hb htidy hfs htype hoptions
        refine ⟨htidy.imp_left fun hsame => ?_, .inl ⟨fun d hd => (hpermits d hd).mono hb,
          ⟨work, hwork.mono hb, rfl⟩, ⟨hfs, htype⟩, subvolid, hoptions⟩⟩
        rw [hsame, hfree]
        exact List.not_mem_nil
      usr := by
        intro allowed past _ hallowed hb htidy fs device options past' hb' hmounts hfs hdevice
          hoptions
        obtain rfl := Option.some.inj hallowed
        refine ⟨htidy.imp (fun hsame => ?_) fun hu => hu.mono hb', .inr ⟨hfs, .inr hdevice,
          .inl hoptions⟩⟩
        rw [hmounts, hsame, hfree]
        exact fun hmem => ne_usrOf _ (List.mem_singleton.mp hmem).symm
      umount := fun path past _ h => h.imp_right fun h => h.resolve_right nofun
      release := fun vg past _ h => h }
  release vg past h := h

lemma processes_installing {mode : Mode} {start : Past} (hunique : Unique disks disk c start)
    (hconfirmed : mode = .rw → Confirmed disks disk c start) :
    (installing disks).Processes disks disk c mode start := by
  have hmode : ∀ {mode' fs options past}, start <+: past → (mode' = .rw → mode = .rw) →
      linuxMountOptions mode' fs none = some options →
        linuxMountOptions .ro fs none = some options ∨
        (∃ disk c, Confirmed disks disk c past) ∧ linuxMountOptions .rw fs none = some options := by
    intro mode' fs options past hb hwrite hoptions
    cases mode' with
    | ro => exact .inl hoptions
    | rw => exact .inr ⟨⟨disk, c, (hconfirmed (hwrite rfl)).mono hb⟩, hoptions⟩
  refine ⟨⟨?_, ?_, fun _ _ _ hjust => .inl hjust.bare, ?_⟩, fun _ _ _ hlast => .inl hlast,
    fun _ _ _ _ hbare => .inl hbare⟩
  · intro past hb _ hfree fs options root past' hb' hmounts hfs hoptions
    have hbegin := hb.trans hb'
    refine ⟨.inl ?_, .inr ⟨hfs, .inl ⟨disk, c, hunique.mono hbegin, rfl⟩, hmode hbegin id hoptions⟩⟩
    rw [hmounts, hfree]
    exact List.not_mem_nil
  · intro path mode' past hb hwrite hfresh fs device options past' hb' hmounts hfs hdevice hoptions
    refine ⟨.inl ?_, .inr ⟨hfs, .inr hdevice, hmode (hb.trans hb') hwrite hoptions⟩⟩
    rwa [hmounts]
  · exact fun hrw root past hb hmatch => ⟨disk, c, (hconfirmed hrw).mono hb, hmatch⟩

/-- What an installation leaves; if it succeeds, the only root was written to. -/
structure Installed (disks : List Str) (n : ℕ) (past' : Past) : Prop where
  settled : Settled [] past'
  done : n = 0 → LetGo past' ∧ ∃ disk c root, Confirmed disks disk c past' ∧
    MountMatches root c.device .rw past' ∧ Did root .rw past'

/-- **An installation.** -/
theorem holds_cloudInitInstallForTargets {deploying : Bool} {Q : ℕ → Vars → Past → Prop}
    (h : ∀ n v' past', Installed disks n past' → Q n v' past') :
    Holds (session (installing disks))
      (Script.status (cloudInitInstallForTargets deploying disks)) v [] Q E := by
  have hfailed : ∀ {v' past'}, Settled [] past' → Q 1 v' past' := fun hsettled =>
    h 1 _ _ ⟨hsettled, nofun⟩
  refine Script.holds_status (.seq (holds_linuxSelectUniqueRootForTargets (selects_installing disks)
    (fun f v₁ past₁ hletGo hunique => ?_) fun v' past' hsettled => hfailed hsettled))
  -- first to be read
  have hread : Holds (session (installing disks))
      (Script.status (processRoot disks f.disk f.candidate .ro)) v₁ past₁
      (fun n _ past' => Processed past₁ f.candidate .ro n past') Q :=
    Script.holds_status (holds_processRoot (processes_installing hunique fun hrw => by cases hrw)
      hletGo.1 fun _ _ _ h => h)
  refine .bind hread fun n v₂ past₂ hprocessed => ?_
  have hb₂ := hprocessed.begins
  split
  · rename_i hn
    obtain ⟨hsame, hlooked⟩ := hprocessed.done hn
    have hletGo₂ := hletGo.of_eq hb₂ hsame
    refine .seq (holds_permits verifiesPermit_require (fun permits h₃ hpermits => ?_)
      fun v' past' h₃ => hfailed (hletGo₂.later h₃).settled)
    have hletGo₃ := hletGo₂.later h₃
    have hconfirmed : Confirmed disks f.disk f.candidate (past₂ ++ permits) :=
      ⟨past₂, permits, List.prefix_refl _, hunique.mono hb₂, hletGo₂, hlooked, hpermits⟩
    -- and then to be written
    refine holds_processRoot (processes_installing (hunique.mono (hb₂.trans h₃.begins))
      fun _ => hconfirmed) hletGo₃.1 fun m v' past' hwritten => ?_
    refine h m v' past' ⟨hletGo₃.processed hwritten, fun hm => ?_⟩
    obtain ⟨hsame', root, hmatch, hdid⟩ := hwritten.done hm
    exact ⟨hletGo₃.of_eq hwritten.begins hsame', f.disk, f.candidate, root,
      hconfirmed.mono hwritten.begins, hmatch, hdid⟩
  · exact .seq (Script.holds_set (hfailed (hletGo.processed hprocessed)))

end Steps

/-! ### Runs -/

/-- **Nothing is written before the only root was confirmed.**  In every run of an installation,
whatever fails: a filesystem is mounted to be written, and something is installed, only when each
disk of the task was searched and has this root or none, the root could be processed to be read and
was let go, and the permits of all the disks were verified behind that.  In the end nothing is left,
unless a command refused. -/
theorem cloudInitInstallForTargets_confirmed (deploying : Bool) (disks : List Str) (v : Vars)
    {τ : Past} {o : Option (Except ℕ ℕ × Vars)}
    (hr : Prog.Runs (Script.status (cloudInitInstallForTargets deploying disks) v) τ o) :
    (∀ pre e post, τ = pre ++ e :: post → (installing disks).Met pre e) ∧
      ∀ n v', o = some (.ok n, v') → Installed disks n τ := by
  have hsafe : Holds (session (installing disks))
      (Script.status (cloudInitInstallForTargets deploying disks)) v []
      (fun n _ past => Installed disks n past) fun _ _ _ => True :=
    holds_cloudInitInstallForTargets fun _ _ _ h => h
  obtain ⟨hmet, hend, -⟩ := session_runs hsafe hr
  exact ⟨hmet, hend⟩

/-- The root of the sample is in a volume of the group on the second partition; what is mounted can
be written when it was read before. -/
def installEnv (seen : List (Sigma Answer)) : (c : Call) → Answer c
  | .query (.probedType device) =>
    if device = "/dev/sda2".toList then some lvmMember
    else if device = sampleCandidate.device then some sampleCandidate.fstype
    else none
  | .pvs _ => some sampleCandidate.vg.toList
  | .query (.options _) =>
    let processed :=
      seen.any fun e => e.1 = .preflight "/tmp/rootpxe-cloud-mount.k3TqZp/root".toList
    some (if processed then "rw".toList else "ro".toList)
  | c => sampleEnv seen c

def installRun : Past × Option (Except ℕ ℕ × Vars) :=
  (Script.status (cloudInitInstallForTargets true ["/dev/sda".toList]) ⟨[], [], [], []⟩).exec
    installEnv []

/-- The installation succeeds. -/
theorem cloudInitInstallForTargets_confirmed_sample :
    (∃ e ∈ installRun.1, e.1 = .install "/tmp/rootpxe-cloud-mount.k3TqZp/root".toList) ∧
      installRun.2 = some (.ok 0, ⟨[], [], "/tmp/rootpxe-cloud-mount.k3TqZp/root".toList, []⟩) ∧
      Installed ["/dev/sda".toList] 0 installRun.1 := by
  have hend : installRun.2 =
      some (.ok 0, ⟨[], [], "/tmp/rootpxe-cloud-mount.k3TqZp/root".toList, []⟩) := by decide +kernel
  refine ⟨by decide +kernel, hend, ?_⟩
  exact (cloudInitInstallForTargets_confirmed _ _ _ (Prog.runs_exec installEnv _ [])).2 0 _ hend

end Pxeos.CloudInit
