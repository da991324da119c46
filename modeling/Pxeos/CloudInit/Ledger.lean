import Pxeos.CloudInit.Mounts
import Mathlib.Data.Multiset.AddSub
import Mathlib.Algebra.Order.Group.Multiset

/-!
# The ledger of an installation

What a run has mounted and activated and not taken back, by its calls alone, and what a call needs.
Most calls are quiet and leave the ledger as it is (`Later`); what a test or a command has shown
stays known.
-/

namespace Pxeos.CloudInit

open Pxeos.Lib
open Pxeos.Linux (Vg Candidate Row)
open Pxeos.Lib.Script (Holds)

/-! ### What has happened -/

abbrev Past := List (Sigma Answer)

@[ext]
structure Ledger where
  mounts : List Str
  groups : Multiset Vg

/-- What a call changes.  `umount` undoes the last mount at its path; `vgchange -ay` can have
activated something even if it fails. -/
def Ledger.next (l : Ledger) : Sigma Answer → Ledger
  | ⟨.mount _ _ _ path, true⟩ => { l with mounts := l.mounts ++ [path] }
  | ⟨.umount path, true⟩ => { l with mounts := (l.mounts.reverse.erase path).reverse }
  | ⟨.activate vg, _⟩ => { l with groups := vg ::ₘ l.groups }
  | ⟨.deactivate vg, true⟩ => { l with groups := l.groups.erase vg }
  | _ => l

def ledger (past : Past) : Ledger := past.foldl Ledger.next ⟨[], 0⟩

lemma ledger_concat (past : Past) (e : Sigma Answer) :
    ledger (past ++ [e]) = (ledger past).next e := by
  unfold ledger
  rw [List.foldl_append]
  rfl

/-- A call that mounts nothing, and takes nothing back. -/
def Quiet : Sigma Answer → Prop
  | ⟨.mount .., true⟩ => False
  | ⟨.umount _, _⟩ => False
  | ⟨.activate _, _⟩ => False
  | ⟨.deactivate _, _⟩ => False
  | _ => True

lemma Quiet.next {e : Sigma Answer} (h : Quiet e) (l : Ledger) : l.next e = l := by
  obtain ⟨c, r⟩ := e
  cases c with
  | mount fs options device path =>
    cases r with
    | true => exact h.elim
    | false => rfl
  | umount path => exact h.elim
  | activate vg => exact h.elim
  | deactivate vg => exact h.elim
  | _ => rfl

/-- A umount was refused. -/
def UnmountRefused (past : Past) : Prop := ∃ path, ⟨.umount path, false⟩ ∈ past

/-- A deactivation was refused. -/
def DeactivateRefused (past : Past) : Prop := ∃ vg, ⟨.deactivate vg, false⟩ ∈ past

lemma UnmountRefused.mono {past past' : Past} (h : UnmountRefused past) (hbegin : past <+: past') :
    UnmountRefused past' := by
  obtain ⟨path, hpath⟩ := h
  exact ⟨path, hbegin.subset hpath⟩

lemma DeactivateRefused.mono {past past' : Past} (h : DeactivateRefused past)
    (hbegin : past <+: past') : DeactivateRefused past' := by
  obtain ⟨vg, hvg⟩ := h
  exact ⟨vg, hbegin.subset hvg⟩

/-- More has happened, and all of it was quiet. -/
def Later (past past' : Past) : Prop := ∃ es, past ++ es = past' ∧ ∀ e ∈ es, Quiet e

lemma Later.refl (past : Past) : Later past past := ⟨[], List.append_nil past, nofun⟩

lemma Later.trans {past past' past'' : Past} (h : Later past past') (h' : Later past' past'') :
    Later past past'' := by
  obtain ⟨es, rfl, hes⟩ := h
  obtain ⟨ds, rfl, hds⟩ := h'
  refine ⟨es ++ ds, (List.append_assoc _ _ _).symm, fun e he => ?_⟩
  exact (List.mem_append.mp he).elim (hes e) (hds e)

lemma later_concat {past : Past} {e : Sigma Answer} (h : Quiet e) : Later past (past ++ [e]) :=
  ⟨[e], rfl, List.forall_mem_singleton.mpr h⟩

lemma Later.begins {past past' : Past} (h : Later past past') : past <+: past' := by
  obtain ⟨es, rfl, -⟩ := h
  exact List.prefix_append _ _

lemma Later.ledger_eq {past past' : Past} (h : Later past past') : ledger past' = ledger past := by
  obtain ⟨es, rfl, hes⟩ := h
  induction es using List.reverseRecOn with
  | nil => rw [List.append_nil]
  | append_singleton es e ih =>
    obtain ⟨hes, he⟩ := List.forall_mem_append.mp hes
    rw [← List.append_assoc, ledger_concat, (he e List.mem_cons_self).next]
    exact ih hes

/-! ### What was shown -/

/-- A test was passed. -/
def Passed (t : Test) (past : Past) : Prop := ⟨.test t, true⟩ ∈ past

/-- A command has printed a text. -/
def Printed (q : Query) (text : Str) (past : Past) : Prop := ⟨.query q, some text⟩ ∈ past

/-- A device is a partition of one of the disks, whose permit was verified. -/
def OnPartition (allowed : List Str) (device : Str) (past : Past) : Prop :=
  ∃ disk ∈ allowed, ∃ parts : List Str, ∃ part ∈ parts, Passed (.verifyPermit disk) past ∧
    ⟨.partitions disk, parts⟩ ∈ past ∧
    Printed (.readlink part) device past

/-- A device is a volume of a group that has its physical volumes on one of the disks, whose permits
were all verified. -/
def InGroup (allowed : List Str) (device : Str) (past : Past) : Prop :=
  (∀ disk ∈ allowed, Passed (.verifyPermit disk) past) ∧
    ∃ disk ∈ allowed, ∃ rows : List LvRow, ∃ row ∈ rows, ⟨.lvs, some rows⟩ ∈ past ∧
      Printed (.readlink row.path) device past ∧
      Passed (.validatePvs disk row.vg.uuid) past

def DevicePermitted (allowed : List Str) (device : Str) (past : Past) : Prop :=
  OnPartition allowed device past ∨ InGroup allowed device past

/-- The mount at a path was seen to be that of a device, in a mode. -/
def MountMatches (path device : Str) (mode : Mode) (past : Past) : Prop :=
  ∃ resolved number options, Printed (.readlink device) resolved past ∧
    Printed (.device path) number past ∧
    Printed (.rdev resolved) number past ∧ Printed (.options path) options past ∧
      (afterFirst (',' :: mode.text ++ [',']) (',' :: options ++ [','])).isSome = true

lemma Passed.mono {t : Test} {past past' : Past} (h : Passed t past) (hbegin : past <+: past') :
    Passed t past' := hbegin.subset h

lemma Printed.mono {q : Query} {text : Str} {past past' : Past} (h : Printed q text past)
    (hbegin : past <+: past') :
    Printed q text past' := hbegin.subset h

lemma DevicePermitted.mono {allowed : List Str} {device : Str} {past past' : Past}
    (h : DevicePermitted allowed device past) (hbegin : past <+: past') :
    DevicePermitted allowed device past' := by
  rcases h with ⟨disk, hdisk, parts, part, hpart, hp, hl, hr⟩ | ⟨hall, disk, hdisk, rows, row,
    hrow, hl, hr, hv⟩
  · exact .inl ⟨disk, hdisk, parts, part, hpart, hp.mono hbegin, hbegin.subset hl, hr.mono hbegin⟩
  · exact .inr ⟨fun d hd => (hall d hd).mono hbegin, disk, hdisk, rows, row, hrow, hbegin.subset hl,
      hr.mono hbegin, hv.mono hbegin⟩

lemma MountMatches.mono {path device : Str} {mode : Mode} {past past' : Past}
    (h : MountMatches path device mode past) (hbegin : past <+: past') :
    MountMatches path device mode past' := by
  obtain ⟨resolved, number, options, h1, h2, h3, h4, h5⟩ := h
  exact ⟨resolved, number, options, h1.mono hbegin, h2.mono hbegin, h3.mono hbegin,
    h4.mono hbegin, h5⟩

/-! ### What a call needs -/

/-- The last report shows all volumes of a group as inactive. -/
def IdleReport (vg : Vg) (past : Past) : Prop :=
  ∃ first rows, past = first ++ [⟨.groupRows vg, some rows⟩] ∧ rows ≠ [] ∧ ∀ row ∈ rows, row.Idle

/-- A group was activated, and nothing has been changed since. -/
def JustActivated (vg : Vg) (past : Past) : Prop :=
  ∃ first ok, Later (first ++ [⟨.activate vg, ok⟩]) past

/-- A group was activated when at least some mounts were in place. -/
def ActivatedOver (mounts : List Str) (vg : Vg) (past : Past) : Prop :=
  ∃ first ok, first ++ [⟨.activate vg, ok⟩] <+: past ∧ mounts <+: (ledger first).mounts

lemma ActivatedOver.mono {mounts : List Str} {vg : Vg} {past past' : Past}
    (h : ActivatedOver mounts vg past) (hbegin : past <+: past') :
    ActivatedOver mounts vg past' := by
  obtain ⟨first, ok, hfirst, hmounts⟩ := h
  exact ⟨first, ok, hfirst.trans hbegin, hmounts⟩

/-- Every mount that was made since the activation of a group is undone. -/
def Bare (vg : Vg) (past : Past) : Prop := ActivatedOver (ledger past).mounts vg past

lemma JustActivated.bare {vg : Vg} {past : Past} (h : JustActivated vg past) : Bare vg past := by
  obtain ⟨first, ok, hlater⟩ := h
  refine ⟨first, ok, hlater.begins, ?_⟩
  rw [hlater.ledger_eq, ledger_concat]
  exact List.prefix_refl _

/-- What may be mounted, undone, deactivated and installed after a past. -/
structure Needs where
  mount : (fs options device path : Str) → Past → Prop
  umount : Str → Past → Prop
  release : Vg → Past → Prop
  install : Str → Past → Prop

/-- A group is activated when it was shown to be inactive, and deactivated when it was activated
before. -/
def Needs.Met (needs : Needs) (past : Past) : Sigma Answer → Prop
  | ⟨.mount fs options device path, _⟩ => needs.mount fs options device path past
  | ⟨.umount path, _⟩ => needs.umount path past
  | ⟨.activate vg, _⟩ => IdleReport vg past
  | ⟨.deactivate vg, _⟩ => vg ∈ (ledger past).groups ∧ needs.release vg past
  | ⟨.install root, _⟩ => needs.install root past
  | _ => True

/-- The runs in which every call is met. -/
def session (needs : Needs) : Contract Answer Past where
  rely _ _ := True
  guard := needs.Met
  next past e := past ++ [e]

/-- What every run of a script that keeps to its needs has done, and how it ends. -/
lemma session_runs {needs : Needs} {α : Type} {p : Shell α} {v : Vars} {Q : α → Vars → Past → Prop}
    {E : ℕ → Vars → Past → Prop} (h : Holds (session needs) p v [] Q E) {τ : Past}
    {o : Option (Except ℕ α × Vars)} (hr : Prog.Runs (p v) τ o) :
    (∀ pre e post, τ = pre ++ e :: post → needs.Met pre e) ∧
      (∀ a v', o = some (.ok a, v') → Q a v' τ) ∧ ∀ n v', o = some (.error n, v') → E n v' τ := by
  obtain ⟨hmet, hend⟩ :=
    Contract.Safe.along h hr (Contract.along_of_forall _ (fun _ _ => trivial) _ _)
  have hafter : (session needs).after [] τ = τ := Contract.after_of_next (fun _ _ => rfl) [] τ
  rw [hafter] at hend
  refine ⟨fun pre e post hτ => ?_, fun a v' ho => hend _ ho, fun n v' ho => hend _ ho⟩
  subst hτ
  exact hmet.at_cut fun _ _ => rfl

/-! ### Quiet calls -/

section Reading

variable {needs : Needs} {v : Vars} {past : Past} {E : ℕ → Vars → Past → Prop}

/-- A call that needs nothing and changes nothing. -/
lemma holds_look {c : Call} {Q : Answer c → Vars → Past → Prop}
    (hneeds : ∀ r, needs.Met past ⟨c, r⟩) (hquiet : ∀ r, Quiet ⟨c, r⟩)
    (h : ∀ r past', Later past past' → ⟨c, r⟩ ∈ past' → Q r v past') :
    Holds (session needs) (Script.ask c) v past Q E :=
  Script.holds_ask fun r _ => ⟨hneeds r, h r _ (later_concat (hquiet r)) List.mem_concat_self⟩

lemma holds_test {t : Test} {Q : Bool → Vars → Past → Prop}
    (h : ∀ ok past', Later past past' → (ok = true → Passed t past') → Q ok v past') :
    Holds (session needs) (test t) v past Q E :=
  holds_look (fun _ => trivial) (fun _ => trivial) fun ok past' hlater hmem =>
    h ok past' hlater fun hok => by
    subst hok
    exact hmem

lemma holds_query {q : Query} {Q : Option Str → Vars → Past → Prop}
    (h : ∀ o past', Later past past' → (∀ text, o = some text → Printed q text past') →
      Q o v past') :
    Holds (session needs) (query q) v past Q E :=
  holds_look (fun _ => trivial) (fun _ => trivial) fun o past' hlater hmem =>
    h o past' hlater fun text htext => by
    subst htext
    exact hmem

lemma holds_require {t : Test} {Q : Unit → Vars → Past → Prop}
    (h : ∀ past', Later past past' → Passed t past' → Q () v past')
    (he : ∀ past', Later past past' → E 1 v past') :
    Holds (session needs) (require t) v past Q E := by
  refine .seq (holds_test fun ok past' hlater hok => ?_)
  cases ok with
  | true => exact h past' hlater (hok rfl)
  | false => exact he past' hlater

lemma holds_demand {q : Query} {Q : Str → Vars → Past → Prop}
    (h : ∀ text past', Later past past' → Printed q text past' → Q text v past')
    (he : ∀ past', Later past past' → E 1 v past') :
    Holds (session needs) (demand q) v past Q E := by
  refine .seq (holds_query fun o past' hlater ho => ?_)
  cases o with
  | some text => exact h text past' hlater (ho text rfl)
  | none => exact he past' hlater

lemma holds_orReturn {ok : Bool} {Q : Unit → Vars → Past → Prop} (h : ok = true → Q () v past)
    (he : E 1 v past) :
    Holds (session needs) (orReturn ok) v past Q E := by
  cases ok with
  | true => exact h rfl
  | false => exact he

lemma holds_requireUnmounted {path : Str} {Q : Unit → Vars → Past → Prop}
    (h : ∀ past', Later past past' → Q () v past') (he : ∀ past', Later past past' → E 1 v past') :
    Holds (session needs) (requireUnmounted path) v past Q E := by
  refine .seq (holds_test fun ok past' hlater _ => ?_)
  cases ok with
  | true => exact he past' hlater
  | false => exact h past' hlater

lemma holds_ciDeviceIsBlock {path : Str} {Q : Bool → Vars → Past → Prop}
    (h : ∀ ok past', Later past past' → Q ok v past') :
    Holds (session needs) (ciDeviceIsBlock path) v past Q E := by
  unfold ciDeviceIsBlock
  split
  · exact holds_test fun ok past' hlater _ => h ok past' hlater
  · exact h false past (.refl past)

lemma holds_sourceDevice {source : Str} {Q : Str → Vars → Past → Prop}
    (h : ∀ device past', Later past past' → Q device v past')
    (he : ∀ n past', Later past past' → E n v past') :
    Holds (session needs) (sourceDevice source) v past Q E := by
  unfold sourceDevice
  split
  · refine .seq (holds_orReturn (fun _ => ?_) (he 1 past (.refl past)))
    refine .seq (holds_query fun o past' hlater _ => ?_)
    cases o with
    | some device => exact h device past' hlater
    | none => exact he 2 past' hlater
  · refine .seq (holds_orReturn (fun _ => ?_) (he 1 past (.refl past)))
    exact h source past (.refl past)

lemma holds_ciFstabDevice {source : Str} {Q : Str → Vars → Past → Prop}
    (h : ∀ device past', Later past past' → Q device v past')
    (he : ∀ n past', Later past past' → E n v past') :
    Holds (session needs) (ciFstabDevice source) v past Q E := by
  refine .seq (holds_sourceDevice (fun device past₁ h₁ => ?_) he)
  refine .seq (holds_orReturn (fun _ => ?_) (he 1 past₁ h₁))
  refine .seq (holds_query fun o past₂ h₂ _ => ?_)
  cases o with
  | none => exact he 2 past₂ (h₁.trans h₂)
  | some resolved =>
    refine .seq (holds_ciDeviceIsBlock fun ok past₃ h₃ => ?_)
    have hlater := (h₁.trans h₂).trans h₃
    cases ok with
    | true => exact h resolved past₃ hlater
    | false => exact he 2 past₃ hlater

/-- The loop over the rows: the group that is found is that of a row whose volume is the device. -/
lemma holds_matchingGroup {device : Str} {rows : List LvRow} {selected : Option Vg}
    {Q : Option Vg → Vars → Past → Prop}
    (h : ∀ o past', Later past past' → (∀ vg, o = some vg → selected = some vg ∨ ∃ row ∈ rows,
      row.vg = vg ∧ Printed (.readlink row.path) device past') → Q o v past')
    (he : ∀ past', Later past past' → E 1 v past') :
    Holds (session needs) (matchingGroup device rows selected) v past Q E := by
  induction rows generalizing selected past with
  | nil => exact h selected past (.refl past) fun vg hvg => .inl hvg
  | cons row rows ih =>
    refine .seq (holds_orReturn (fun _ => ?_) (he past (.refl past)))
    refine .seq (holds_query fun o past₁ h₁ ho => ?_)
    have hskip : Holds (session needs) (matchingGroup device rows selected) v past₁ Q E := by
      refine ih (fun o' past₂ h₂ hfrom => h o' past₂ (h₁.trans h₂) fun vg hvg => ?_) fun past₂ h₂ =>
        he past₂ (h₁.trans h₂)
      rcases hfrom vg hvg with hsel | ⟨row', hrow', hfound⟩
      · exact .inl hsel
      · exact .inr ⟨row', List.mem_cons_of_mem _ hrow', hfound⟩
    cases o with
    | none => exact hskip
    | some resolved =>
      dsimp only
      split
      · exact hskip
      · rename_i hdevice
        obtain rfl : resolved = device := not_not.mp hdevice
        refine .seq (holds_orReturn (fun _ => ?_) (he past₁ h₁))
        refine ih (fun o' past₂ h₂ hfrom => h o' past₂ (h₁.trans h₂) fun vg hvg => .inr ?_)
          fun past₂ h₂ => he past₂ (h₁.trans h₂)
        rcases hfrom vg hvg with hsel | ⟨row', hrow', hfound⟩
        · exact ⟨row, List.mem_cons_self, Option.some.inj hsel, (ho resolved rfl).mono h₂.begins⟩
        · exact ⟨row', List.mem_cons_of_mem _ hrow', hfound⟩

lemma holds_comparePartitions {device : Str} {parts : List Str} {Q : Unit → Vars → Past → Prop}
    (h : ∀ past', Later past past' → Q () v past')
    (he : ∀ n past', Later past past' →
      (n = 0 → ∃ part ∈ parts, Printed (.readlink part) device past') → E n v past') :
    Holds (session needs) (comparePartitions device parts) v past Q E := by
  induction parts generalizing past with
  | nil => exact h past (.refl past)
  | cons part parts ih =>
    refine .seq
      (.seq (holds_demand (fun resolved past₁ h₁ hprinted => ?_)
        fun past₁ h₁ => he 1 past₁ h₁ nofun))
    split
    · rename_i hdevice
      refine he 0 past₁ h₁ fun _ => ⟨part, List.mem_cons_self, ?_⟩
      rwa [← hdevice]
    · refine ih (fun past₂ h₂ => h past₂ (h₁.trans h₂)) fun n past₂ h₂ hfound =>
        he n past₂ (h₁.trans h₂) fun hn => ?_
      obtain ⟨part', hpart', hprinted'⟩ := hfound hn
      exact ⟨part', List.mem_cons_of_mem _ hpart', hprinted'⟩

/-- The search among the partitions: it ends when all permits are verified, or returns at a
partition that is the device. -/
lemma holds_searchPartitions {allowed : List Str} {device : Str} {Q : Unit → Vars → Past → Prop}
    (h : ∀ past', Later past past' → (∀ disk ∈ allowed, Passed (.verifyPermit disk) past') →
      Q () v past')
    (he : ∀ n past', Later past past' → (n = 0 → OnPartition allowed device past') → E n v past') :
    Holds (session needs) (searchPartitions allowed device) v past Q E := by
  induction allowed generalizing past with
  | nil => exact h past (.refl past) nofun
  | cons disk allowed ih =>
    refine .seq
      (.seq (holds_require (fun past₁ h₁ hpermit => ?_) fun past₁ h₁ => he 1 past₁ h₁ nofun))
    refine .seq (holds_look (fun _ => trivial) (fun _ => trivial) fun parts past₂ h₂ hparts => ?_)
    have h₁₂ := h₁.trans h₂
    refine holds_comparePartitions (fun past₃ h₃ => ?_) fun n past₃ h₃ hfound =>
      he n past₃ (h₁₂.trans h₃) fun hn => ?_
    · have h₁₃ := h₁₂.trans h₃
      refine ih (fun past₄ h₄ hall => h past₄ (h₁₃.trans h₄) ?_) fun n past₄ h₄ hfound =>
        he n past₄ (h₁₃.trans h₄) fun hn => ?_
      · exact List.forall_mem_cons.mpr ⟨hpermit.mono ((h₂.trans h₃).trans h₄).begins, hall⟩
      · obtain ⟨disk', hdisk', hfound'⟩ := hfound hn
        exact ⟨disk', List.mem_cons_of_mem _ hdisk', hfound'⟩
    · obtain ⟨part, hpart, hprinted⟩ := hfound hn
      exact ⟨disk, List.mem_cons_self, parts, part, hpart, hpermit.mono (h₂.trans h₃).begins,
        h₃.begins.subset hparts, hprinted⟩

/-- The evidence of a mount that matches. -/
lemma holds_ciMountMatches {path device : Str} {mode : Mode} {Q : Unit → Vars → Past → Prop}
    (h : ∀ past', Later past past' → MountMatches path device mode past' → Q () v past')
    (he : ∀ past', Later past past' → E 1 v past') :
    Holds (session needs) (ciMountMatches path device mode) v past Q E := by
  refine .seq (holds_demand (fun resolved past₁ h₁ hresolved => ?_) he)
  refine .seq (holds_ciDeviceIsBlock fun ok past₂ h₂ => ?_)
  have h₁₂ := h₁.trans h₂
  refine .seq (holds_orReturn (fun _ => ?_) (he past₂ h₁₂))
  refine .seq (holds_demand (fun actual past₃ h₃ hactual => ?_)
    fun past₃ h₃ => he past₃ (h₁₂.trans h₃))
  have h₁₃ := h₁₂.trans h₃
  refine .seq (holds_demand (fun expected past₄ h₄ hexpected => ?_)
    fun past₄ h₄ => he past₄ (h₁₃.trans h₄))
  have h₁₄ := h₁₃.trans h₄
  refine .seq (holds_orReturn (fun hsame => ?_) (he past₄ h₁₄))
  obtain rfl : actual = expected := beq_iff_eq.mp hsame
  refine .seq (holds_demand (fun options past₅ h₅ hoptions => ?_)
    fun past₅ h₅ => he past₅ (h₁₄.trans h₅))
  have h₁₅ := h₁₄.trans h₅
  refine holds_orReturn (fun hmode => ?_) (he past₅ h₁₅)
  exact h past₅ h₁₅ ⟨resolved, actual, options,
    hresolved.mono (((h₂.trans h₃).trans h₄).trans h₅).begins,
    hactual.mono (h₄.trans h₅).begins, hexpected.mono h₅.begins, hoptions, hmode⟩

/-- The line of `/etc/fstab`. -/
lemma holds_fstabEntry {root : Str} {requested : Requested}
    {Q : Option (Str × Str) → Vars → Past → Prop} (h : ∀ o past', Later past past' → Q o v past')
    (he : ∀ past', Later past past' → E 1 v past') :
    Holds (session needs) (fstabEntry root requested) v past Q E := by
  refine .seq (holds_test fun ok past₁ h₁ _ => ?_)
  cases ok with
  | false => exact h none past₁ h₁
  | true =>
    refine .seq (holds_require (fun past₂ h₂ _ => ?_) fun past₂ h₂ => he past₂ (h₁.trans h₂))
    have h₁₂ := h₁.trans h₂
    refine .seq (holds_require (fun past₃ h₃ _ => ?_) fun past₃ h₃ => he past₃ (h₁₂.trans h₃))
    have h₁₃ := h₁₂.trans h₃
    refine .seq (holds_look (fun _ => trivial) (fun _ => trivial) fun text past₄ h₄ _ => ?_)
    have h₁₄ := h₁₃.trans h₄
    split
    · exact h _ past₄ h₁₄
    · exact he past₄ h₁₄

end Reading

end Pxeos.CloudInit
