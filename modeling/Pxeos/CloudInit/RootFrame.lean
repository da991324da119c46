import Pxeos.CloudInit.Undone
import Pxeos.CloudInit.GroupFrame

/-!
# The frame of the processing of a root

A run of `rootpxe_cloud_init_process_root` first works at the root, where a group is deactivated
only when its own activation is rolled back; then it undoes the mounts; then, if none was refused,
it deactivates the groups.  So the table of mounts is what it was, the mounts were undone in the
reverse order, and the volumes are in the state that they were in.
-/

namespace Pxeos.CloudInit

open Pxeos.Lib
open Pxeos.Linux (Vg Lv Candidate)
open Pxeos.Lib.Script (Holds)

/-! ### The mounts of a run -/

/-- The path of a mount that is made. -/
def mountedPath : Sigma Answer → Option Str
  | ⟨.mount _ _ _ path, true⟩ => some path
  | _ => none

/-- The path of a mount that is undone. -/
def unmountedPath : Sigma Answer → Option Str
  | ⟨.umount path, true⟩ => some path
  | _ => none

def mounted (past : Past) : List Str := past.filterMap mountedPath

def unmounted (past : Past) : List Str := past.filterMap unmountedPath

/-- The table of mounts behind a run, by the paths, from the table before it. -/
def mountTable (base : List Str) (past : Past) : List Str :=
  (past.foldl Ledger.next ⟨base, 0⟩).mounts

/-- Every umount undoes the last mount that is left. -/
def LastFirst (past : Past) : Prop :=
  ∀ pre path ok post, past = pre ++ ⟨.umount path, ok⟩ :: post →
    (ledger pre).mounts.getLast? = some path

/-- Every deactivation takes back an activation that has failed, at once. -/
def RolledBack (past : Past) : Prop :=
  ∀ pre vg ok post, past = pre ++ ⟨.deactivate vg, ok⟩ :: post → JustActivated vg pre

section Cuts

variable {past past' : Past} {e : Sigma Answer}

lemma mounted_concat : mounted (past ++ [e]) = mounted past ++ (mountedPath e).toList := by
  unfold mounted
  rw [List.filterMap_append]
  cases h : mountedPath e with
  | none => simp [h]
  | some path => simp [h]

lemma unmounted_concat : unmounted (past ++ [e]) = unmounted past ++ (unmountedPath e).toList := by
  unfold unmounted
  rw [List.filterMap_append]
  cases h : unmountedPath e with
  | none => simp [h]
  | some path => simp [h]

/-- A cut of a past with one more call. -/
lemma cut_concat {pre post : Past} {d : Sigma Answer} (h : past ++ [e] = pre ++ d :: post) :
    (∃ post', past = pre ++ d :: post') ∨ past = pre ∧ e = d := by
  rcases List.eq_nil_or_concat' post with rfl | ⟨post', c, rfl⟩
  · obtain ⟨hpre, he⟩ := List.append_inj' h rfl
    exact .inr ⟨hpre, List.head_eq_of_cons_eq he⟩
  · rw [← List.cons_append, ← List.append_assoc] at h
    exact .inl ⟨post', (List.append_inj' h rfl).1⟩

lemma RolledBack.concat (h : RolledBack past)
    (he : ∀ vg ok, e = ⟨.deactivate vg, ok⟩ → JustActivated vg past) :
    RolledBack (past ++ [e]) := by
  intro pre vg ok post hcut
  rcases cut_concat hcut with ⟨post', hpast⟩ | ⟨rfl, rfl⟩
  · exact h pre vg ok post' hpast
  · exact he vg ok rfl

lemma unmountRefused_concat : UnmountRefused (past ++ [e]) ↔
    UnmountRefused past ∨ ∃ path, e = ⟨.umount path, false⟩ := by
  unfold UnmountRefused
  simp only [List.mem_append, List.mem_singleton, exists_or, eq_comm]

/-- The table is the one before with what the run has mounted and not undone. -/
lemma LastFirst.mountTable (h : LastFirst past) (base : List Str) :
    mountTable base past = base ++ (ledger past).mounts := by
  unfold CloudInit.mountTable
  induction past using List.reverseRecOn with
  | nil => exact (List.append_nil base).symm
  | append_singleton past e ih =>
    have hpast : LastFirst past := fun pre path ok post hcut => by
      refine h pre path ok (post ++ [e]) ?_
      rw [hcut, List.append_assoc]
      rfl
    have hsame := ih hpast
    rw [List.foldl_append, ledger_concat]
    obtain ⟨c, r⟩ := e
    cases c with
    | mount fs options device path =>
      cases r with
      | true =>
        show (past.foldl Ledger.next ⟨base, 0⟩).mounts ++ [path] =
          base ++ ((ledger past).mounts ++ [path])
        rw [hsame, List.append_assoc]
      | false => exact hsame
    | umount path =>
      cases r with
      | true =>
        obtain ⟨init, hinit⟩ := List.getLast?_eq_some_iff.mp (h past path true [] rfl)
        show ((past.foldl Ledger.next ⟨base, 0⟩).mounts.reverse.erase path).reverse =
          base ++ ((ledger past).mounts.reverse.erase path).reverse
        rw [hsame, hinit, ← List.append_assoc, List.reverse_concat, List.reverse_concat,
          List.erase_cons_head, List.erase_cons_head, List.reverse_reverse, List.reverse_reverse]
      | false => exact hsame
    | deactivate vg =>
      cases r with
      | true => exact hsame
      | false => exact hsame
    | _ => exact hsame

end Cuts

/-! ### The parts of a run -/

/-- The steps that meet some needs. -/
def Reaches (needs : Needs) : Past → Past → Prop :=
  Relation.ReflTransGen ((session needs).Step needs.Met)

/-- What may be done at the root: nothing is taken back but an activation that fails. -/
def working (allowed : List Str) (disk : Str) (c : Candidate) (mode : Mode) : Needs where
  mount := (processing allowed disk c mode).mount
  umount _ _ := False
  release := JustActivated
  install := (processing allowed disk c mode).install

/-- The mounts are undone. -/
def unmounting : Needs where
  mount _ _ _ _ _ := False
  umount path past := (ledger past).mounts.getLast? = some path
  release _ _ := False
  install _ _ := False

/-- The groups are deactivated. -/
def releasing : Needs where
  mount _ _ _ _ _ := False
  umount _ _ := False
  release _ past := (ledger past).mounts = []
  install _ _ := False

/-- The mounts are undone, and then, if no umount was refused, the groups are deactivated. -/
def TakenBack (worked released : Past) : Prop :=
  ∃ undone, Reaches unmounting worked undone ∧ Reaches releasing undone released ∧
    (UnmountRefused undone → released = undone)

/-- A run that works at the root, and takes back what it has done. -/
def Course (allowed : List Str) (disk : Str) (c : Candidate) (mode : Mode) (past : Past) : Prop :=
  ∃ begun worked released, Later [] begun ∧ Reaches (working allowed disk c mode) begun worked ∧
    TakenBack worked released ∧ Later released past

section Parts

variable {allowed : List Str} {disk : Str} {c : Candidate} {mode : Mode} {needs needs' : Needs}
  {v : Vars} {past past' : Past}

/-- What holds for some needs holds for looser ones, by steps that meet the first ones. -/
lemma holds_reaches {α : Type} {p : Shell α} {Q : α → Vars → Past → Prop}
    {E : ℕ → Vars → Past → Prop} (hloose : ∀ past e, needs.Met past e → needs'.Met past e)
    (h : Holds (session needs) p v past Q E) :
    Holds (session needs') p v past (fun a v' past' => Q a v' past' ∧ Reaches needs past past')
      fun n v' past' => E n v' past' ∧ Reaches needs past past' :=
  h.traced rfl (fun _ _ _ => trivial) hloose

lemma works_working (allowed : List Str) (disk : Str) (c : Candidate) (mode : Mode) :
    (working allowed disk c mode).Works allowed disk c mode [] where
  root := (processes_processing allowed disk c mode).root
  fstab := (processes_processing allowed disk c mode).fstab
  rollBack _ _ _ hjust := hjust
  install := (processes_processing allowed disk c mode).install

lemma met_of_working {e : Sigma Answer} (h : (working allowed disk c mode).Met past e) :
    (processing allowed disk c mode).Met past e := by
  obtain ⟨call, r⟩ := e
  cases call with
  | umount path => exact h.elim
  | deactivate vg => exact ⟨h.1, .inr h.2⟩
  | _ => exact h

lemma met_of_unmounting {e : Sigma Answer} (h : unmounting.Met past e) :
    (processing allowed disk c mode).Met past e := by
  obtain ⟨call, r⟩ := e
  cases call with
  | mount fs options device path => exact h.elim
  | deactivate vg => exact h.2.elim
  | install root => exact h.elim
  | _ => exact h

lemma met_of_releasing {e : Sigma Answer} (h : releasing.Met past e) :
    (processing allowed disk c mode).Met past e := by
  obtain ⟨call, r⟩ := e
  cases call with
  | mount fs options device path => exact h.elim
  | umount path => exact h.elim
  | deactivate vg => exact ⟨h.1, .inl h.2⟩
  | install root => exact h.elim
  | _ => exact h

/-- What every step keeps holds at the end. -/
lemma Reaches.keeps {I : Past → Prop} (h : Reaches needs past past')
    (hstep : ∀ past e, needs.Met past e → I past → I (past ++ [e])) (hI : I past) : I past' := by
  induction h with
  | refl => exact hI
  | tail _ hlast ih =>
    obtain ⟨e, hmet, rfl⟩ := hlast
    exact hstep _ e hmet ih

lemma Later.keeps {I : Past → Prop} (h : Later past past')
    (hstep : ∀ past e, Quiet e → I past → I (past ++ [e])) (hI : I past) : I past' := by
  obtain ⟨es, rfl, hes⟩ := h
  induction es using List.reverseRecOn with
  | nil => rwa [List.append_nil]
  | append_singleton es e ih =>
    obtain ⟨hes, he⟩ := List.forall_mem_append.mp hes
    rw [← List.append_assoc]
    exact hstep _ e (he e List.mem_cons_self) (ih hes)

lemma notRefused_concat {e : Sigma Answer} (h : ¬ UnmountRefused past)
    (he : ∀ path, e ≠ ⟨.umount path, false⟩) :
    ¬ UnmountRefused (past ++ [e]) := fun hrefused =>
  (unmountRefused_concat.mp hrefused).elim h fun ⟨path, hpath⟩ => he path hpath

lemma Later.notRefused (h : Later past past') (hcalm : ¬ UnmountRefused past) :
    ¬ UnmountRefused past' := by
  refine h.keeps (I := fun past => ¬ UnmountRefused past) (fun past e hquiet hI => ?_) hcalm
  refine notRefused_concat hI fun path he => ?_
  subst he
  exact hquiet

lemma Reaches.notRefused (h : Reaches (working allowed disk c mode) past past')
    (hcalm : ¬ UnmountRefused past) : ¬ UnmountRefused past' := by
  refine h.keeps (I := fun past => ¬ UnmountRefused past) (fun past e hmet hI => ?_) hcalm
  refine notRefused_concat hI fun path he => ?_
  subst he
  exact hmet

lemma Within.notRefused {paths : List Str} (h : Within paths past past')
    (hcalm : ¬ UnmountRefused past) :
    ¬ UnmountRefused past' := by
  obtain ⟨es, rfl, hes⟩ := h
  rintro ⟨path, hpath⟩
  rcases List.mem_append.mp hpath with hmem | hmem
  · exact hcalm ⟨path, hmem⟩
  · exact hes _ hmem

/-- The cleaning has its parts. -/
lemma holds_ciCleanupMounts_parts {E : ℕ → Vars → Past → Prop} (hv : Agrees [] v past)
    (hcalm : ¬ UnmountRefused past) :
    Holds (session (processing allowed disk c mode)) (Script.status ciCleanupMounts) v past
      (fun _ _ past' => TakenBack past past') E := by
  refine Script.holds_status (.seq (Script.holds_vars ?_))
  have hundo : Holds (session unmounting) (unmountAll v.ownedMounts.reverse) v past
      (fun ok v' past' => ok = true → Agrees [] v' past' ∧ v'.ownedGroups = v.ownedGroups ∧
        v'.ownedMounts = [] ∧ ¬ UnmountRefused past') fun _ _ _ => False :=
    holds_unmountAll hv (List.reverse_reverse _).symm (fun _ _ _ hlast => hlast)
      (fun v' past' hwithin _ ha hgroups hmounts _ => ⟨ha, hgroups, hmounts,
        hwithin.notRefused hcalm⟩)
      fun _ _ _ _ => nofun
  refine .bind ((holds_reaches (fun _ _ => met_of_unmounting) hundo).mono (fun _ _ _ h => h)
    fun _ _ _ h => h.1.elim) fun ok v₁ past₁ h₁ => ?_
  obtain ⟨hok, hreach⟩ := h₁
  cases ok with
  | false => exact .seq (holds_orReturn nofun ⟨past₁, hreach, .refl, fun _ => rfl⟩)
  | true =>
    obtain ⟨ha, hgroups, hmounts, hcalm₁⟩ := hok rfl
    have hrelease : Holds (session releasing) (releaseGroups v.ownedGroups.length) v₁ past₁
        (fun _ _ _ => True) fun _ _ _ => False :=
      holds_releaseGroups ha hmounts (by rw [hgroups]) (fun _ _ _ hsame _ => hsame)
        fun _ _ _ _ _ _ _ _ => trivial
    refine .seq (Script.holds_pure ?_)
    refine .bind ((holds_reaches (fun _ _ => met_of_releasing) hrelease).mono (fun _ _ _ h => h)
      fun _ _ _ h => h.1.elim) fun ok v₂ past₂ h₂ => ?_
    have hback : TakenBack past past₂ :=
      ⟨past₁, hreach, h₂.2, fun hrefused => absurd hrefused hcalm₁⟩
    exact holds_orReturn (fun _ => hback) hback

/-- **The run has its parts.** -/
lemma holds_course :
    Holds (session (processing allowed disk c mode))
      (Script.status (processRoot allowed disk c mode)) v []
      (fun _ _ past => Course allowed disk c mode past) fun _ _ _ => False := by
  have hstop : ∀ {past}, Later [] past → Course allowed disk c mode past := fun hlater =>
    ⟨[], [], [], .refl [], .refl, ⟨[], .refl, .refl, fun _ => rfl⟩, hlater⟩
  refine Script.holds_status ?_
  refine .seq (Script.holds_set (.seq (holds_orReturn (fun hc => ?_) (hstop (.refl [])))))
  have hfs : supported c.fstype = true := (Bool.and_eq_true_iff.mp hc).2
  refine .seq (holds_require (fun past₁ h₁ hpermit => ?_) fun past₁ h₁ => hstop h₁)
  refine .seq (holds_demand (fun work past₂ h₂ _ => ?_) fun past₂ h₂ => hstop (h₁.trans h₂))
  have h₁₂ := h₁.trans h₂
  have hagrees : Agrees [] { v with
      ownedMounts := [], ownedGroups := [], mountedRoot := [] } past₂ :=
    (agrees_start rfl rfl).later h₁₂
  have hwork : Holds (session (working allowed disk c mode)) (mountAndWork allowed disk c mode work)
      { v with ownedMounts := [], ownedGroups := [], mountedRoot := [] } past₂
      (fun _ v' past' => Agrees [] v' past') fun _ _ _ => False :=
    holds_mountAndWork (works_working allowed disk c mode) rfl hagrees h₁₂.calm rfl hfs
      (hpermit.mono h₂.begins) fun _ _ _ h => h.agrees
  refine .bind ((holds_reaches (fun _ _ => met_of_working) hwork).mono (fun _ _ _ h => h)
    fun _ _ _ h => h.1.elim) fun ok v₃ past₃ h₃ => ?_
  have hcalm : ¬ UnmountRefused past₃ := h₃.2.notRefused (h₁₂.notRefused nofun)
  have hend : ∀ {past₄ past₅}, TakenBack past₃ past₄ → Later past₄ past₅ →
      Course allowed disk c mode past₅ := fun hback hlater =>
    ⟨past₂, past₃, _, h₁₂, h₃.2, hback, hlater⟩
  -- the removal of the working directory
  have hremoved : ∀ cleaned v₄ past₄, TakenBack past₃ past₄ →
      Holds (session (processing allowed disk c mode))
        (cleaning (ciWorkspaceRemove work) "cloud_init_probe_cleanup_failed" >>= fun removed =>
          orReturn (ok && cleaned && removed)) v₄ past₄
        (fun _ _ past => Course allowed disk c mode past) fun _ _ past =>
          Course allowed disk c mode past := by
    intro cleaned v₄ past₄ hback
    refine .seq (holds_cleaning (holds_ciWorkspaceRemove fun _ past₅ h₅ => ?_))
    exact ⟨fun _ => holds_orReturn (fun _ => hend hback h₅) (hend hback h₅),
      fun _ => holds_orReturn (fun _ => hend hback h₅) (hend hback h₅)⟩
  refine .seq (holds_cleaning ((holds_ciCleanupMounts_parts h₃.1 hcalm).mono
    (fun n v₄ past₄ hback => ?_) fun _ _ _ h => h))
  exact ⟨fun _ => hremoved true v₄ past₄ hback, fun _ => hremoved false _ past₄ hback⟩

end Parts

/-! ### What the parts leave -/

/-- The mounts that are left, and those that were undone, the last one first, are those that were
made. -/
def Balanced (past : Past) : Prop := (ledger past).mounts ++ (unmounted past).reverse = mounted past

/-- Before the first umount. -/
structure Working (past : Past) : Prop where
  balanced : Balanced past
  unmounted : unmounted past = []
  rolledBack : RolledBack past
  calm : ¬ UnmountRefused past

section Left

variable {allowed : List Str} {disk : Str} {c : Candidate} {mode : Mode} {past past' : Past}
  {e : Sigma Answer}

lemma Balanced.concat (h : Balanced past)
    (hlast : ∀ path, e = ⟨.umount path, true⟩ → (ledger past).mounts.getLast? = some path)
    (hmount : ∀ path, mountedPath e = some path → unmounted past = []) :
    Balanced (past ++ [e]) := by
  unfold Balanced at h ⊢
  rw [ledger_concat, mounted_concat, unmounted_concat]
  obtain ⟨call, r⟩ := e
  cases call with
  | mount fs options device path =>
    cases r with
    | true =>
      have hnone := hmount path rfl
      rw [hnone, List.reverse_nil, List.append_nil] at h
      show ((ledger past).mounts ++ [path]) ++ (unmounted past ++ []).reverse =
        mounted past ++ [path]
      rw [hnone, h, List.append_nil, List.reverse_nil, List.append_nil]
    | false => simpa [mountedPath, unmountedPath, Ledger.next] using h
  | umount path =>
    cases r with
    | true =>
      obtain ⟨init, hinit⟩ := List.getLast?_eq_some_iff.mp (hlast path rfl)
      show ((ledger past).mounts.reverse.erase path).reverse ++ (unmounted past ++ [path]).reverse =
        mounted past ++ []
      rw [← h, hinit, List.reverse_concat, List.erase_cons_head, List.reverse_reverse,
        List.reverse_concat,
        List.append_nil, List.append_assoc]
      rfl
    | false => simpa [mountedPath, unmountedPath, Ledger.next] using h
  | deactivate vg =>
    cases r with
    | true => simpa [mountedPath, unmountedPath, Ledger.next] using h
    | false => simpa [mountedPath, unmountedPath, Ledger.next] using h
  | _ => simpa [mountedPath, unmountedPath, Ledger.next] using h

lemma Quiet.balanced (hquiet : Quiet e) (h : Balanced past) : Balanced (past ++ [e]) := by
  refine h.concat (fun path he => ?_) fun path he => ?_
  · subst he
    exact hquiet.elim
  · obtain ⟨call, r⟩ := e
    cases call with
    | mount fs options device path =>
      cases r with
      | true => exact hquiet.elim
      | false => cases he
    | _ => cases he

lemma Quiet.rolledBack (hquiet : Quiet e) (h : RolledBack past) : RolledBack (past ++ [e]) := by
  refine h.concat fun vg ok he => ?_
  subst he
  exact hquiet.elim

lemma working_nil : Working [] :=
  ⟨rfl, rfl, fun pre _ _ _ h => absurd h.symm (List.append_ne_nil_of_right_ne_nil pre nofun), nofun⟩

lemma Working.concat (h : Working past) (humount : ∀ path ok, e ≠ ⟨.umount path, ok⟩)
    (hrelease : ∀ vg ok, e = ⟨.deactivate vg, ok⟩ → JustActivated vg past) :
    Working (past ++ [e]) where
  balanced := h.balanced.concat (fun path he => absurd he (humount path true))
    fun _ _ => h.unmounted
  unmounted := by
    rw [unmounted_concat, h.unmounted]
    obtain ⟨call, r⟩ := e
    cases call with
    | umount path => exact absurd rfl (humount path r)
    | _ => rfl
  rolledBack := h.rolledBack.concat hrelease
  calm := notRefused_concat h.calm fun path => humount path false

/-- What every run leaves: the mounts balance, and behind a umount that was refused no group was
deactivated but to roll its activation back. -/
lemma Course.left (h : Course allowed disk c mode past) :
    Balanced past ∧ (UnmountRefused past → RolledBack past) := by
  obtain ⟨begun, worked, released, hbegun, hworked, ⟨undone, hundone, hreleased, hnone⟩, hlater⟩ :=
    h
  have h₁ : Working begun := by
    refine hbegun.keeps (fun past e hquiet hI => hI.concat (fun path ok he => ?_)
      fun vg ok he => ?_) working_nil
    · subst he
      exact hquiet
    · subst he
      exact hquiet.elim
  have h₂ : Working worked := by
    refine hworked.keeps (fun past e hmet hI => hI.concat (fun path ok he => ?_) fun vg ok he => ?_)
      h₁
    · subst he
      exact hmet
    · subst he
      exact hmet.2
  have h₃ : Balanced undone ∧ RolledBack undone := by
    refine hundone.keeps (I := fun past => Balanced past ∧ RolledBack past)
      (fun past e hmet hI => ?_)
      ⟨h₂.balanced, h₂.rolledBack⟩
    refine ⟨hI.1.concat (fun path he => ?_) fun path he => ?_, hI.2.concat fun vg ok he => ?_⟩
    · subst he
      exact hmet
    · obtain ⟨call, r⟩ := e
      cases call with
      | mount fs options device path => exact hmet.elim
      | _ => cases he
    · subst he
      exact hmet.2.elim
  have h₄ : Balanced released ∧ (UnmountRefused released → UnmountRefused undone) := by
    refine hreleased.keeps (I := fun past => Balanced past ∧
      (UnmountRefused past → UnmountRefused undone))
      (fun past e hmet hI => ?_) ⟨h₃.1, id⟩
    refine ⟨hI.1.concat (fun path he => ?_) fun path he => ?_, fun hrefused => ?_⟩
    · subst he
      exact hmet.elim
    · obtain ⟨call, r⟩ := e
      cases call with
      | mount fs options device path => exact hmet.elim
      | _ => cases he
    · refine (unmountRefused_concat.mp hrefused).elim hI.2 ?_
      rintro ⟨path, rfl⟩
      exact hmet.elim
  refine ⟨hlater.keeps (fun _ _ hquiet hI => hquiet.balanced hI) h₄.1, fun hrefused => ?_⟩
  have hrefused' : UnmountRefused released := by
    by_contra hcalm
    exact hlater.notRefused hcalm hrefused
  rw [hnone (h₄.2 hrefused')] at hlater
  exact hlater.keeps (fun _ _ hquiet hI => hquiet.rolledBack hI) h₃.2

end Left

/-! ### Runs -/

section Runs

variable {allowed : List Str} {disk : Str} {c : Candidate} {mode : Mode} {v v' : Vars}
  {τ : Past} {n : ℕ}

/-- What a run of the processing has done. -/
lemma processRoot_left
    (hr : Prog.Runs (Script.status (processRoot allowed disk c mode) v) τ (some (.ok n, v'))) :
    (∀ pre e post, τ = pre ++ e :: post → (processing allowed disk c mode).Met pre e) ∧
      Settled [] τ ∧ Course allowed disk c mode τ := by
  have hsafe : Holds (session (processing allowed disk c mode))
      (Script.status (processRoot allowed disk c mode)) v []
      (fun n _ past => Processed [] c mode n past) fun _ _ _ => True :=
    Script.holds_status (holds_processRoot (Q := fun n _ past => Processed [] c mode n past)
      (processes_processing allowed disk c mode) rfl fun _ _ _ h => h)
  obtain ⟨hmet, hend, -⟩ := session_runs hsafe hr
  obtain ⟨-, hcourse, -⟩ := session_runs (holds_course (v := v)) hr
  exact ⟨hmet, (hend n v' rfl).settled, hcourse n v' rfl⟩

end Runs

/-- **The frame of the processing of a root.**  If no umount is refused, the table of mounts is what
it was, and each mount was undone once, in the reverse order; if no deactivation is refused either,
the volumes are in the state that they were in, as long as the reports are right and no group is
activated with an active volume that has no path.  While something is mounted, and in a run in which
a umount is refused, a group is deactivated only to roll back its own activation, at once. -/
theorem processRoot_frame (l : Lvm) (base : List Str) (allowed : List Str) (disk : Str)
    (c : Candidate) (mode : Mode) (v : Vars) {τ : Past} {n : ℕ} {v' : Vars}
    (hr : Prog.Runs (Script.status (processRoot allowed disk c mode) v) τ (some (.ok n, v'))) :
    (¬ UnmountRefused τ → mountTable base τ = base ∧ unmounted τ = (mounted τ).reverse) ∧
      (¬ UnmountRefused τ → ¬ DeactivateRefused τ → l.Truthful τ →
        (∀ pre vg ok post, τ = pre ++ ⟨.activate vg, ok⟩ :: post → ∀ lv ∈ l.volumes vg.uuid,
          lv.path = [] → l.activity pre vg.uuid lv.name = false) → l.Restored τ) ∧
      (∀ pre vg ok post, τ = pre ++ ⟨.deactivate vg, ok⟩ :: post →
        (ledger pre).mounts = [] ∨ JustActivated vg pre) ∧
      (UnmountRefused τ → RolledBack τ) := by
  obtain ⟨hmet, hsettled, hcourse⟩ := processRoot_left hr
  obtain ⟨hbalanced, hrolledBack⟩ := hcourse.left
  refine ⟨fun hu => ?_, fun hu hd htruthful hpaths => ?_,
    fun pre vg ok post hτ => (hmet _ _ _ hτ).2,
    hrolledBack⟩
  · have hnone : (ledger τ).mounts = [] := hsettled.mounts.resolve_right hu
    have hlast : LastFirst τ := fun pre path ok post hτ => hmet _ _ _ hτ
    unfold Balanced at hbalanced
    rw [hnone, List.nil_append] at hbalanced
    constructor
    · rw [hlast.mountTable, hnone, List.append_nil]
    · rw [← hbalanced, List.reverse_reverse]
  · have hzero : (ledger τ).groups = 0 := (hsettled.groups.resolve_right fun h => h.elim hu hd)
    have horderly : Orderly τ :=
      ⟨fun pre vg ok post hτ => (hmet _ _ _ hτ).1, fun vg hvg => hd ⟨vg, hvg⟩⟩
    refine Lvm.restored_of_frame horderly
      (Lvm.frame_of_inactive horderly fun pre e post hτ vg hvg => .inl ?_) hzero
    obtain ⟨call, ok⟩ := e
    cases call with
    | activate g =>
      obtain rfl := Option.some.inj hvg
      refine Lvm.inactive_of_paths (hmet _ _ _ hτ) (fun first d rest hpre => ?_) (hpaths _ _ _ _ hτ)
      refine htruthful first d (rest ++ ⟨.activate g, ok⟩ :: post) ?_
      rw [hτ, hpre, List.append_assoc]
      rfl
    | _ => cases hvg

/-! ### An activation that fails -/

/-- The volume of a separate `/usr`. -/
def usrVolume : Lv := ⟨"usr".toList, "/dev/vg1/usr".toList, true, false, by decide⟩

def usrGroup : Lvm := oneVolume usrVolume false

/-- `/usr` lies in a group that cannot be activated, although its volume becomes active. -/
def brokenEnv (seen : List (Sigma Answer)) : (c : Call) → Answer c
  | .test (.isPresent path) => decide ("/etc/fstab".toList <:+ path)
  | .fstab _ => "/dev/vg1/usr /usr ext4 ro 0 2\n".toList
  | .query (.readlink path) => if path = "/dev/vg1/usr".toList then none else some path
  | .query (.options _) => some "ro,noload".toList
  | .lvs => some [⟨"/dev/vg1/usr".toList, "usr".toList, ⟨"vg1".toList, "uuid-1".toList⟩⟩]
  | .groupRows vg => some (usrGroup.rows seen.reverse vg)
  | .activate _ => false
  | c => sampleEnv seen c

/-- A root on a partition. -/
def plainRoot : Candidate := ⟨"/dev/sda2".toList, "ext4".toList, none, none⟩

def brokenRun : Past × Option (Except ℕ ℕ × Vars) :=
  (Script.status (processRoot ["/dev/sda".toList] "/dev/sda".toList plainRoot .ro) ⟨[],
    [], [], []⟩).exec
    brokenEnv []

lemma brokenRun_unmounts : ¬ UnmountRefused brokenRun.1 := by
  rintro ⟨path, h⟩
  obtain ⟨seen, heq⟩ := Prog.mem_exec h
  cases heq

lemma brokenRun_deactivates : ¬ DeactivateRefused brokenRun.1 := by
  rintro ⟨vg, h⟩
  obtain ⟨seen, heq⟩ := Prog.mem_exec h
  cases heq

lemma brokenRun_truthful : usrGroup.Truthful brokenRun.1 :=
  Lvm.truthful_exec usrGroup (fun _ _ => rfl) _

lemma brokenRun_runs :
    Prog.Runs (Script.status (processRoot ["/dev/sda".toList] "/dev/sda".toList plainRoot .ro)
      ⟨[], [], [], []⟩)
      brokenRun.1 (some (.ok 1, ⟨[], [], "/tmp/rootpxe-cloud-mount.k3TqZp/root".toList, []⟩)) := by
  have hend : brokenRun.2 =
      some (.ok 1, ⟨[], [], "/tmp/rootpxe-cloud-mount.k3TqZp/root".toList, []⟩) := by
    decide +kernel
  rw [← hend]
  exact Prog.runs_exec brokenEnv _ []

/-- The root is mounted and undone, and the volume is inactive again. -/
theorem processRoot_frame_broken :
    mountTable ["/".toList] brokenRun.1 = ["/".toList] ∧
      unmounted brokenRun.1 = (mounted brokenRun.1).reverse ∧
      mounted brokenRun.1 = ["/tmp/rootpxe-cloud-mount.k3TqZp/root".toList] ∧
      (∃ e ∈ brokenRun.1, e.1 = .activate ⟨"vg1".toList, "uuid-1".toList⟩) ∧
      usrGroup.Restored brokenRun.1 := by
  obtain ⟨htable, hvolumes, -, -⟩ :=
    processRoot_frame usrGroup ["/".toList] _ _ _ _ _ brokenRun_runs
  obtain ⟨hsame, hreverse⟩ := htable brokenRun_unmounts
  refine ⟨hsame, hreverse, by decide +kernel, by decide +kernel, ?_⟩
  refine hvolumes brokenRun_unmounts brokenRun_deactivates brokenRun_truthful
    fun _ _ _ _ _ lv hlv hnil => ?_
  rw [List.mem_singleton.mp hlv] at hnil
  cases hnil

/-- A group is deactivated while the root is mounted, when its activation is rolled back. -/
theorem processRoot_frame_rollBack :
    ¬ ∀ (l : Lvm) (base allowed : List Str) (disk : Str) (c : Candidate)
    (mode : Mode) (v : Vars) (τ : Past) (n : ℕ) (v' : Vars),
    Prog.Runs (Script.status (processRoot allowed disk c mode) v) τ (some (.ok n, v')) →
    l.Truthful τ →
      (¬ UnmountRefused τ → ¬ DeactivateRefused τ → mountTable base τ = base ∧
        (∀ uuid, ∀ lv ∈ l.volumes uuid, l.activity τ uuid lv.name = l.active uuid lv.name) ∧
        unmounted τ = (mounted τ).reverse ∧
        ∀ pre vg ok post, τ = pre ++ ⟨.deactivate vg, ok⟩ :: post → (ledger pre).mounts = []) ∧
      (UnmountRefused τ → ∀ vg ok, ⟨.deactivate vg, ok⟩ ∉ τ) := by
  intro hall
  obtain ⟨-, -, -, hdown⟩ :=
    (hall usrGroup [] _ _ _ _ _ _ _ _ brokenRun_runs brokenRun_truthful).1 brokenRun_unmounts
    brokenRun_deactivates
  -- the call that takes the activation back
  have hcall : (brokenRun.1[22]?).map Sigma.fst =
      some (.deactivate ⟨"vg1".toList, "uuid-1".toList⟩) := by
    decide +kernel
  obtain ⟨⟨call, ok⟩, hget, rfl⟩ := Option.map_eq_some_iff.mp hcall
  obtain ⟨hlength, hget⟩ := List.getElem?_eq_some_iff.mp hget
  have hcut := (List.take_append_drop 22 brokenRun.1).symm
  rw [List.drop_eq_getElem_cons hlength, hget] at hcut
  exact absurd (hdown _ _ _ _ hcut) (by decide +kernel)

end Pxeos.CloudInit
