import Mathlib.Data.List.Perm.Subperm
import Pxeos.Lib.Checks
import Pxeos.Lvm.Prepare

/-!
# The volumes are as before

Whatever fails and whatever signals arrive: a volume that was active is never deactivated, and the
others are inactive again in the end if `lvchange -an` did not fail.  The invariant is `Held`: what
is not as before is in the list of the cleanup.  The facts are replaced only when the volumes are as
before, and by records for all volumes of the group.
-/

namespace Pxeos.Lvm

open Pxeos.Lib
open Pxeos.Lib.Script (Holds)

/-! ### The facts -/

lemma Fact.path_ne_nil {f : Fact} (h : f.sound = true) : f.path ≠ [] := by
  intro hnil
  unfold Fact.sound at h
  rw [hnil] at h
  simp at h

/-- A record that `awk` accepts is read as it was written. -/
lemma readFact_of_awkFact {record : Str} {f : Fact} (h : awkFact record = some f) :
    readFact record = some f ∧ record = f.line ∧ f.sound = true := by
  unfold awkFact at h
  split at h
  · rename_i name uuid path size hsplit
    split at h
    · rename_i hsound
      obtain rfl := Option.some.inj h
      constructor
      · unfold readFact
        rw [hsplit]
        exact if_pos (Bool.and_eq_true_iff.mpr ⟨hsound, rfl⟩)
      · exact ⟨(List.intercalate_splitOn '|').symm.trans (by rw [hsplit]; rfl), hsound⟩
    · cases h
  · cases h

/-- The lines of facts that are accepted. -/
lemma acceptFacts_spec {facts : Str} (h : acceptFacts facts = true) :
    ∃ fs : List Fact, endedLines facts = fs.map Fact.line ∧
    (∀ f ∈ fs, readFact f.line = some f ∧ f.sound = true) ∧ (fs.map Fact.uuid).Nodup ∧
    (fs.map Fact.path).Nodup := by
  unfold acceptFacts at h
  cases hall : (records facts).mapM awkFact with
  | none =>
    rw [hall] at h
    cases h
  | some all =>
    rw [hall] at h
    simp only [Bool.and_eq_true, decide_eq_true_eq] at h
    obtain ⟨⟨-, huuid⟩, hpath⟩ := h
    have htake : (records facts).take (endedLines facts).length = endedLines facts :=
      (List.prefix_iff_eq_take.mp (endedLines_prefix_records facts)).symm
    have hread : List.Forall₂ (fun line f => awkFact line = some f) (endedLines facts)
        (all.take (endedLines facts).length) := by
      have := List.forall₂_take (endedLines facts).length (mapM_some hall)
      rwa [htake] at this
    have hline : endedLines facts = (all.take (endedLines facts).length).map Fact.line := by
      rw [← List.forall₂_eq_eq_eq, List.forall₂_map_right_iff]
      exact hread.imp fun line f hf => (readFact_of_awkFact hf).2.1
    refine ⟨all.take (endedLines facts).length, hline, fun f hf => ?_, ?_, ?_⟩
    · obtain ⟨line, -, hf⟩ := exists_left_of_forall₂ hread hf
      obtain ⟨h1, h2, h3⟩ := readFact_of_awkFact hf
      rw [h2] at h1
      exact ⟨h1, h3⟩
    · rw [List.map_take]
      exact huuid.sublist (List.take_sublist _ _)
    · rw [List.map_take]
      exact hpath.sublist (List.take_sublist _ _)

/-! ### The world -/

/-- Which volumes were active and which are; the list of the cleanup; what was reported and looked
up; the facts, if they were replaced; and whether a deactivation has failed or a signal has
arrived. -/
structure World where
  initial : Str → Bool
  active : Str → Bool
  intended : List Str
  report : List StateRow
  types : List (Str × Str)
  facts : Option (List Str)
  failed : Bool
  signalled : Bool

def World.before (initial : Str → Bool) : World :=
  ⟨initial, initial, [], [], [], none, false, false⟩

def World.set (w : World) (path : Str) (active : Bool) : World :=
  { w with active := fun p => if p = path then active else w.active p }

def World.look (w : World) (path fs : Str) : World := { w with types := w.types ++ [(path, fs)] }

/-- What a command does. -/
def World.act (w : World) : (c : Call) → c.Value → World
  | .lvs, some rows => { w with report := rows }
  | .intend path, true => { w with intended := w.intended ++ [path] }
  | .activate path, change => w.set path change.active
  | .deactivate path, change => { w.set path change.active with failed := w.failed || !change.ok }
  | .fsType path, fs => w.look path fs
  | .publish facts, true => { w with facts := some facts }
  | _, _ => w

def World.next (w : World) (e : Sigma Answer) : World :=
  { w.act e.1 e.2.value with signalled := w.signalled || e.2.signal.isSome }

/-- What LVM answers: the report is right, and a command that succeeds has had its effect. -/
def World.Answers (w : World) : Sigma Answer → Prop
  | ⟨.lvs, r⟩ =>
    ∀ rows, r.value = some rows → ∀ row ∈ rows, row.active = activeWord ↔ w.active row.path = true
  | ⟨.activate _, r⟩ => r.value.ok = true → r.value.active = true
  | ⟨.deactivate _, r⟩ => r.value.ok = true → r.value.active = false
  | _ => True

/-- The record of a volume with its filesystem, as it was looked up. -/
def Recorded (w : World) (f : Fact) (record : Str) : Prop :=
  ∃ fs, supported fs = true ∧ (f.path, fs) ∈ w.types ∧
    record = List.intercalate ['|'] [f.name, f.uuid, f.path, f.size, fs]

/-- Records for all the facts, which were accepted and are about the volumes of the report, and each
volume of it. -/
def Covered (facts : Str) (w : World) (recorded : List Str) : Prop :=
  acceptFacts facts = true ∧ ∃ fs : List Fact, fs ≠ [] ∧ endedLines facts = fs.map Fact.line ∧
    (∀ f ∈ fs, readFact f.line = some f) ∧
    List.Forall₂ (Recorded w) fs recorded ∧
      (fs.map fun f => (f.uuid, f.path)).Perm (w.report.map fun row => (row.uuid, row.path))

/-- What the commands need: only a volume that was not active is touched, when it is in the list of
the cleanup; a volume is looked at when it is active; the facts are replaced when the volumes are as
before, and by records of them all. -/
def World.Met (facts : Str) (w : World) : Sigma Answer → Prop
  | ⟨.activate path, _⟩ => path ∈ w.intended ∧ w.initial path = false
  | ⟨.deactivate path, _⟩ => path ∈ w.intended ∧ w.initial path = false
  | ⟨.fsType path, _⟩ => w.active path = true
  | ⟨.publish recorded, _⟩ => w.active = w.initial ∧ Covered facts w recorded
  | _ => True

def contract (facts : Str) : Contract Answer World where
  rely := World.Answers
  guard := World.Met facts
  next := World.next

/-! ### The invariant -/

/-- What is not as before is in the list of the cleanup; when the list is gone, all is as before
unless a deactivation has failed. -/
structure Held (v : Vars) (w : World) : Prop where
  intended : ∀ p ∈ v.activated, p ∈ w.intended
  inactive : ∀ p ∈ v.activated, w.initial p = false
  nonempty : ∀ p ∈ v.activated, p ≠ []
  others : w.failed = false → ∀ p, p ∉ v.activated → w.active p = w.initial p

/-- The volumes are as before, unless a deactivation has failed. -/
def Restored (w : World) : Prop := w.failed = false → w.active = w.initial

/-- How the subshell ends when it fails. -/
def Failed (n : ℕ) (_ : Vars) (w : World) : Prop :=
  n ≠ 0 ∧ Restored w ∧ (w.signalled = true ∨ w.facts = none)

/-- A handler that ends the subshell, whatever it finds. -/
def Handles (facts : Str) (handler : Shell Empty) : Prop :=
  ∀ v w, Held v w → w.signalled = true → ∀ Q : Empty → Vars → World → Prop,
    Holds (contract facts) handler v w Q Failed

section Steps

variable {facts : Str} {handler : Shell Empty} {v : Vars} {w : World}

lemma Held.signal (h : Held v w) (signalled : Bool) : Held v { w with signalled := signalled } :=
  ⟨h.intended, h.inactive, h.nonempty, h.others⟩

/-- Of the variables, only the list of the cleanup counts. -/
lemma Held.vars {v' : Vars} (h : Held v w) (hsame : v'.activated = v.activated) : Held v' w := by
  refine ⟨?_, ?_, ?_, ?_⟩
  · rw [hsame]
    exact h.intended
  · rw [hsame]
    exact h.inactive
  · rw [hsame]
    exact h.nonempty
  · rw [hsame]
    exact h.others

/-- A command, behind which the invariant holds. -/
lemma holds_command {c : Call} {f : c.Value → Vars → Vars} {Q : c.Value → Vars → World → Prop}
    (hh : Handles facts handler) (hmet : ∀ r, w.Met facts ⟨c, r⟩)
    (hheld : ∀ r, w.Answers ⟨c, r⟩ → Held (f r.value v) (w.act c r.value))
    (h : ∀ r : Answer c, w.Answers ⟨c, r⟩ → r.signal = none →
      Q r.value (f r.value v) { w.act c r.value with signalled := w.signalled }) :
    Holds (contract facts) (command handler c f) v w Q Failed := by
  refine .seq (Script.holds_ask fun r hr => ⟨hmet r, .seq (Script.holds_set ?_)⟩)
  cases hs : r.signal with
  | some s => exact .seq (hh _ _ ((hheld r hr).signal _) (by simp [hs]) _)
  | none =>
    have hq := h r hr hs
    have hnext : (contract facts).next w ⟨c, r⟩ =
        { w.act c r.value with signalled := w.signalled } := by
      show World.next w ⟨c, r⟩ = _
      unfold World.next
      rw [hs, Option.isSome_none, Bool.or_false]
    rw [hnext]
    exact hq

lemma Held.mono {w' : World} (h : Held v w) (hintended : w'.intended = w.intended)
    (hinitial : w'.initial = w.initial) (hactive : w'.active = w.active)
    (hfailed : w'.failed = false → w.failed = false) : Held v w' := by
  refine ⟨fun p hp => ?_, fun p hp => ?_, h.nonempty, fun hf p hp => ?_⟩
  · rw [hintended]
    exact h.intended p hp
  · rw [hinitial]
    exact h.inactive p hp
  · rw [hactive, hinitial]
    exact h.others (hfailed hf) p hp

/-- A volume of the list of the cleanup can be in any state. -/
lemma Held.set {path : Str} (h : Held v w) (hpath : path ∈ v.activated) (active : Bool) :
    Held v (w.set path active) := by
  refine ⟨h.intended, h.inactive, h.nonempty, fun hf p hp => ?_⟩
  show (if p = path then active else w.active p) = w.initial p
  rw [if_neg fun heq => hp (by rwa [heq])]
  exact h.others hf p hp

/-- The list of the cleanup is not needed any more. -/
lemma Held.remove (h : Held v w) (hr : Restored w) (gone : Bool) : Held (v.remove gone) w := by
  cases gone with
  | false => exact h
  | true =>
    exact ⟨List.forall_mem_nil _, List.forall_mem_nil _, List.forall_mem_nil _,
      fun hf p _ => congrFun (hr hf) p⟩

/-! ### The cleanup -/

/-- What the cleanup of some volumes does. -/
structure Cleaned (paths : List Str) (w : World) (ok : Bool) (w' : World) : Prop where
  facts : w'.facts = w.facts
  report : w'.report = w.report
  types : w'.types = w.types
  signalled : w'.signalled = w.signalled
  down : w'.failed = false → ∀ p, p ∈ paths ∨ w.active p = false → w'.active p = false
  failed : w'.failed = false → w.failed = false
  ok : ok = true → w'.failed = w.failed

lemma holds_deactivateAll {paths : List Str} {Q : Bool → Vars → World → Prop}
    (hh : Handles facts handler) (hv : Held v w) (hpaths : ∀ p ∈ paths, p ∈ v.activated)
    (h : ∀ ok w', Held v w' → Cleaned paths w ok w' → Q ok v w') :
    Holds (contract facts) (deactivateAll handler paths) v w Q Failed := by
  induction paths generalizing w Q with
  | nil =>
    exact h true w hv ⟨rfl, rfl, rfl, rfl, fun _ p hp => hp.resolve_left List.not_mem_nil,
      fun hf => hf, fun _ => rfl⟩
  | cons path paths ih =>
    obtain ⟨hpath, hrest⟩ := List.forall_mem_cons.mp hpaths
    unfold deactivateAll
    rw [if_neg (hv.nonempty path hpath)]
    have hset : ∀ change : Change, Held v (w.act (.deactivate path) change) := fun change =>
      (hv.set hpath change.active).mono rfl rfl rfl fun hf => (Bool.or_eq_false_iff.mp hf).1
    refine .seq (holds_command hh (fun _ => ⟨hv.intended path hpath, hv.inactive path hpath⟩)
      (fun r _ => hset r.value) fun r hr _ => ?_)
    · refine .seq (ih ((hset r.value).signal w.signalled) hrest fun ok w' hv' hc => ?_)
      refine h (r.value.ok && ok) w' hv' ⟨hc.facts, hc.report, hc.types, hc.signalled,
        fun hf p hp => ?_, fun hf => ?_, fun hok => ?_⟩
      · have hfailed : (w.failed || !r.value.ok) = false := hc.failed hf
        obtain ⟨-, hok⟩ := Bool.or_eq_false_iff.mp hfailed
        have hdown := hr (by simpa using hok)
        refine hc.down hf p ?_
        by_cases hin : p ∈ paths
        · exact .inl hin
        · refine .inr ?_
          show (if p = path then r.value.active else w.active p) = false
          split
          · exact hdown
          · rename_i hne
            exact hp.resolve_left fun hmem => (List.mem_cons.mp hmem).elim hne hin
      · exact (Bool.or_eq_false_iff.mp (hc.failed hf)).1
      · obtain ⟨hfirst, hothers⟩ := Bool.and_eq_true_iff.mp hok
        have hsame : w'.failed = (w.failed || !r.value.ok) := hc.ok hothers
        rw [hsame, hfirst, Bool.not_true, Bool.or_false]

/-- **The cleanup restores the volumes**, unless it fails. -/
lemma Cleaned.restored {ok : Bool} {w' : World} (h : Cleaned v.activated w ok w') (hv : Held v w') :
    Restored w' := by
  intro hf
  funext p
  by_cases hp : p ∈ v.activated
  · rw [h.down hf p (.inl hp), hv.inactive p hp]
  · exact hv.others hf p hp

lemma holds_prepareCleanup {Q : Bool → Vars → World → Prop} (hh : Handles facts handler)
    (hv : Held v w)
    (h : ∀ ok w', Held v w' → Restored w' → Cleaned v.activated w ok w' → Q ok v w') :
    Holds (contract facts) (prepareCleanup handler) v w Q Failed :=
  .seq (Script.holds_vars (holds_deactivateAll hh hv (fun _ hp => hp) fun ok w' hv' hc => h ok w' hv' (hc.restored hv') hc))

lemma holds_untrap {Q : Unit → Vars → World → Prop} (hr : Restored w) (h : Q () v w) :
    Holds (contract facts) untrap v w Q Failed := by
  refine .seq (Script.holds_ask fun r _ => ⟨trivial, ?_⟩)
  cases hs : r.signal with
  | some s =>
    refine Script.holds_exit ⟨?_, hr, .inl ?_⟩
    · cases s <;> decide
    · show (w.signalled || r.signal.isSome) = true
      rw [hs, Option.isSome_some, Bool.or_true]
  | none =>
    have hnext : (contract facts).next w ⟨.untrap, r⟩ = w := by
      show { w with signalled := w.signalled || r.signal.isSome } = w
      rw [hs, Option.isSome_none, Bool.or_false]
    dsimp only
    rw [hnext]
    exact h

lemma holds_giveUp {α : Type} {Q : α → Vars → World → Prop} (hh : Handles facts handler)
    (hv : Held v w) (hr : Restored w) (hf : w.signalled = true ∨ w.facts = none) :
    Holds (contract facts) (giveUp handler) v w Q Failed := by
  refine .seq (holds_command hh (fun _ => trivial) (fun r _ => hv.remove hr r.value)
    fun _ _ _ => ?_)
  exact .seq (holds_untrap hr (Script.holds_exit ⟨one_ne_zero, hr, hf⟩))

/-- **The handler**, however many signals arrive while it runs. -/
lemma handles_prepareSignal (n : ℕ) : Handles facts (prepareSignal n) := by
  induction n with
  | zero => exact fun _ _ _ _ _ => trivial
  | succ n ih =>
    intro v w hv hs Q
    refine .seq (holds_prepareCleanup ih hv fun ok w' hv' hr hc => ?_)
    exact holds_giveUp ih hv' hr (.inl (hc.signalled.trans hs))

/-! ### The preparation -/

/-- Nothing is published yet, and the volumes are held. -/
structure Waiting (v : Vars) (w : World) : Prop where
  held : Held v w
  facts : w.facts = none
  failed : w.failed = false

/-- Some of the facts are prepared. -/
structure Preparing (rows : List StateRow) (done : List Fact) (v : Vars) (w : World) : Prop
    extends Waiting v w where
  report : w.report = rows
  truth : ∀ row ∈ rows, row.active = activeWord ↔ w.initial row.path = true
  count : v.sourceCount = done.length
  stage : List.Forall₂ (Recorded w) done v.stage
  rows : ∀ f ∈ done, ∃ row ∈ rows, row.uuid = f.uuid ∧ row.path = f.path
  opened : ∀ p ∈ v.activated, ∃ f ∈ done, f.path = p

lemma Recorded.mono {w' : World} {f : Fact} {record : Str} (h : Recorded w f record)
    (htypes : ∀ t ∈ w.types, t ∈ w'.types) :
    Recorded w' f record := by
  obtain ⟨fs, hsupported, hmem, hrecord⟩ := h
  exact ⟨fs, hsupported, htypes _ hmem, hrecord⟩

lemma Covered.mono {w' : World} {recorded : List Str} (h : Covered facts w recorded)
    (htypes : w'.types = w.types) (hreport : w'.report = w.report) : Covered facts w' recorded := by
  obtain ⟨haccept, fs, hne, hlines, hread, hstage, hperm⟩ := h
  have hrecorded : List.Forall₂ (Recorded w') fs recorded :=
    hstage.imp fun f record hf => hf.mono fun t ht => htypes ▸ ht
  rw [← hreport] at hperm
  exact ⟨haccept, fs, hne, hlines, hread, hrecorded, hperm⟩

lemma stateOf_spec {sameText : Str → Str → Bool} {rows : List StateRow} {f : Fact} {row : StateRow}
    (h : stateOf sameText rows f = some row) :
    row ∈ rows ∧ row.uuid = f.uuid ∧ row.path = f.path := by
  unfold stateOf at h
  split at h
  · rename_i found hfilter
    split at h
    · rename_i hsame
      obtain rfl := Option.some.inj h
      have hmem : found ∈ rows.filter fun row => sameText row.uuid (unescape f.uuid) := by
        rw [hfilter]
        exact List.mem_singleton_self _
      exact ⟨(List.mem_filter.mp hmem).1, hsame⟩
    · cases h
  · cases h

/-- A volume of which it is written down that it will be activated. -/
lemma Held.intend {path : Str} (h : Held v w) (hpath : path ≠ [])
    (hinitial : w.initial path = false) :
    Held { v with activated := v.activated ++ [path] }
      { w with intended := w.intended ++ [path] } := by
  refine ⟨fun p hp => ?_, fun p hp => ?_, fun p hp => ?_, fun hf p hp => ?_⟩
  · rcases List.mem_append.mp hp with hp | hp
    · exact List.mem_append_left _ (h.intended p hp)
    · exact List.mem_append_right _ hp
  · rcases List.mem_append.mp hp with hp | hp
    · exact h.inactive p hp
    · rwa [List.mem_singleton.mp hp]
  · rcases List.mem_append.mp hp with hp | hp
    · exact h.nonempty p hp
    · rwa [List.mem_singleton.mp hp]
  · exact h.others hf p fun hmem => hp (List.mem_append_left _ hmem)

/-- What the opening of a volume changes. -/
structure Opened (path : Str) (v : Vars) (w : World) (v' : Vars) (w' : World) : Prop where
  active : w'.active path = true
  count : v'.sourceCount = v.sourceCount
  stage : v'.stage = v.stage
  activated : ∀ p ∈ v'.activated, p ∈ v.activated ∨ p = path
  report : w'.report = w.report
  types : w'.types = w.types
  initial : w'.initial = w.initial

/-- A volume is opened: it is active, and it was so or is in the list of the cleanup. -/
lemma holds_openVolume {row : StateRow} {path : Str} {Q : Bool → Vars → World → Prop}
    (hh : Handles facts handler) (hw : Waiting v w) (hnew : path ∉ v.activated) (hpath : path ≠ [])
    (hrow : row.active = activeWord ↔ w.initial path = true)
    (hok : ∀ v' w', Waiting v' w' → Opened path v w v' w' → Q true v' w')
    (hno : ∀ v' w', Waiting v' w' → Q false v' w') :
    Holds (contract facts) (openVolume handler row path) v w Q Failed := by
  unfold openVolume
  split
  · refine hok v w hw ⟨?_, rfl, rfl, fun p hp => .inl hp, rfl, rfl, rfl⟩
    rw [hw.held.others hw.failed path hnew]
    exact hrow.mp ‹_›
  · rename_i hactive
    split
    · have hinitial : w.initial path = false := by simpa using fun h => hactive (hrow.mpr h)
      have hheld := hw.held.intend hpath hinitial
      refine .seq (holds_command hh (fun _ => trivial) (fun r _ => ?_) fun r _ _ => ?_)
      · obtain ⟨value, signal⟩ := r
        cases value with
        | true => exact hheld
        | false => exact hw.held
      · obtain ⟨value, signal⟩ := r
        cases value with
        | false => exact hno _ _ ⟨hw.held, hw.facts, hw.failed⟩
        | true =>
          have hmem : path ∈ v.activated ++ [path] := List.mem_concat_self
          refine .seq
            (holds_command hh (fun _ => ⟨?_, hinitial⟩) (fun r _ => hheld.set hmem r.value.active)
              fun r hr _ => ?_)
          · show path ∈ w.intended ++ [path]
            exact List.mem_concat_self
          · have hset := (hheld.set hmem r.value.active).signal w.signalled
            cases hchange : r.value.ok with
            | false => exact hno _ _ ⟨hset, hw.facts, hw.failed⟩
            | true =>
              refine hok _ _ ⟨hset, hw.facts, hw.failed⟩ ⟨?_, rfl, rfl,
                fun p hp => ?_, rfl, rfl, rfl⟩
              · show (if path = path then r.value.active else w.active path) = true
                rw [if_pos rfl]
                exact hr hchange
              · exact (List.mem_append.mp hp).imp_right List.mem_singleton.mp
    · exact hno v w hw

/-- One more fact is prepared, when its volume was opened and looked at. -/
lemma Preparing.record {rows : List StateRow} {row : StateRow} {done : List Fact} {f : Fact}
    {v' : Vars} {w' : World} {fs : Str} (hw : Preparing rows done v w) (hw' : Waiting v' w')
    (hopened : Opened f.path { v with sourceCount := v.sourceCount + 1 } w v' w')
    (hrow : row ∈ rows ∧ row.uuid = f.uuid ∧ row.path = f.path) (hsupported : supported fs = true) :
    Preparing rows (done ++ [f])
      (v'.record (List.intercalate ['|'] [f.name, f.uuid, f.path, f.size, fs]) true)
        (w'.look f.path fs) where
  held := by
    have hlooked : Held v' (w'.look f.path fs) := hw'.held.mono rfl rfl rfl fun hf => hf
    refine hlooked.vars ?_
    rfl
  facts := hw'.facts
  failed := hw'.failed
  report := hopened.report.trans hw.report
  truth r hr := by
    show r.active = activeWord ↔ w'.initial r.path = true
    rw [hopened.initial]
    exact hw.truth r hr
  count := by
    show v'.sourceCount = (done ++ [f]).length
    rw [hopened.count, hw.count, List.length_append, List.length_singleton]
  stage := by
    show List.Forall₂ _ (done ++ [f]) (v'.stage ++ [_])
    rw [hopened.stage]
    have hbefore : ∀ t ∈ w.types, t ∈ w'.types ++ [(f.path, fs)] :=
      fun t ht => List.mem_append_left _ (hopened.types ▸ ht)
    have hlooked : (f.path, fs) ∈ w'.types ++ [(f.path, fs)] := List.mem_concat_self
    exact List.rel_append (hw.stage.imp fun g record hg => hg.mono hbefore)
      (.cons ⟨fs, hsupported, hlooked, rfl⟩ .nil)
  rows g hg := by
    rcases List.mem_append.mp hg with hg | hg
    · exact hw.rows g hg
    · rw [List.mem_singleton.mp hg]
      exact ⟨row, hrow⟩
  opened p hp := by
    rcases hopened.activated p hp with hp | rfl
    · obtain ⟨g, hg, heq⟩ := hw.opened p hp
      exact ⟨g, List.mem_append_left _ hg, heq⟩
    · exact ⟨f, List.mem_concat_self, rfl⟩

/-- One volume. -/
lemma holds_prepareLine {sameText : Str → Str → Bool} {rows : List StateRow} {f : Fact}
    {done : List Fact} {Q : Bool → Vars → World → Prop} (hh : Handles facts handler)
    (hw : Preparing rows done v w) (hread : readFact f.line = some f) (hpath : f.path ≠ [])
    (hnew : f.path ∉ done.map Fact.path)
    (hok : ∀ v' w', Preparing rows (done ++ [f]) v' w' → Q true v' w')
    (hno : ∀ v' w', Waiting v' w' → Q false v' w') :
    Holds (contract facts) (prepareLine sameText handler rows f.line) v w Q Failed := by
  have hfresh : f.path ∉ v.activated := by
    intro hmem
    obtain ⟨g, hg, heq⟩ := hw.opened _ hmem
    exact hnew (heq ▸ List.mem_map_of_mem hg)
  unfold prepareLine
  rw [hread]
  refine .seq (Script.holds_set ?_)
  have hcounted : Waiting { v with sourceCount := v.sourceCount + 1 } w :=
    ⟨hw.held.vars rfl, hw.facts, hw.failed⟩
  dsimp only
  split
  · exact hno _ _ hcounted
  · rename_i row hstate
    have hrow := stateOf_spec hstate
    have htrue := hw.truth row hrow.1
    rw [hrow.2.2] at htrue
    refine .seq (holds_openVolume hh hcounted hfresh hpath htrue (fun v₁ w₁ hw₁ hopened => ?_)
      fun v₁ w₁ hw₁ => hno v₁ w₁ hw₁)
    have hlooked : ∀ fs, Held v₁ (w₁.look f.path fs) :=
      fun fs => hw₁.held.mono rfl rfl rfl fun hf => hf
    refine .seq (holds_command hh (fun _ => hopened.active) (fun r _ => hlooked r.value)
      fun r _ _ => ?_)
    have hw₂ : Waiting v₁ (w₁.look f.path r.value) := ⟨hlooked r.value, hw₁.facts, hw₁.failed⟩
    split
    · rename_i hsupported
      have hprepared := hw.record hw₁ hopened hrow hsupported
      refine .seq (holds_command hh (fun _ => trivial) (fun r _ => ?_) fun r _ _ => ?_)
      · obtain ⟨value, signal⟩ := r
        cases value with
        | true => exact hprepared.held
        | false => exact hw₂.held
      · obtain ⟨value, signal⟩ := r
        cases value with
        | true => exact hok _ _ hprepared
        | false => exact hno _ _ hw₂
    · exact hno _ _ hw₂

/-- **All the volumes**, by induction on the facts. -/
lemma holds_prepareLines {sameText : Str → Str → Bool} {rows : List StateRow} {fs done : List Fact}
    {Q : Bool → Vars → World → Prop} (hh : Handles facts handler) (hw : Preparing rows done v w)
    (hread : ∀ f ∈ fs, readFact f.line = some f ∧ f.sound = true)
    (hpaths : ((done ++ fs).map Fact.path).Nodup)
    (hok : ∀ v' w', Preparing rows (done ++ fs) v' w' → Q true v' w')
    (hno : ∀ v' w', Waiting v' w' → Q false v' w') :
    Holds (contract facts) (prepareLines sameText handler rows (fs.map Fact.line)) v
      w Q Failed := by
  induction fs generalizing done v w with
  | nil =>
    rw [List.append_nil] at hok
    exact hok v w hw
  | cons f fs ih =>
    obtain ⟨hf, hrest⟩ := List.forall_mem_cons.mp hread
    have hnew : f.path ∉ done.map Fact.path := by
      intro hmem
      rw [List.map_append, List.nodup_append] at hpaths
      exact hpaths.2.2 _ hmem _ List.mem_cons_self rfl
    refine .seq (holds_prepareLine hh hw hf.1 (Fact.path_ne_nil hf.2) hnew (fun v₁ w₁ hw₁ => ?_)
      fun v₁ w₁ hw₁ => hno v₁ w₁ hw₁)
    rw [List.append_cons] at hpaths hok
    exact ih hw₁ hrest hpaths hok

/-- Nothing is done yet. -/
lemma waiting_before (initial : Str → Bool) : Waiting Vars.fresh (World.before initial) :=
  ⟨⟨List.forall_mem_nil _, List.forall_mem_nil _, List.forall_mem_nil _, fun _ _ _ => rfl⟩, rfl,
    rfl⟩

lemma holds_readStates {initial : Str → Bool} {Q : Option (List StateRow) → Vars → World → Prop}
    (hh : Handles facts handler)
    (hok : ∀ rows w', Preparing rows [] Vars.fresh w' → Q (some rows) Vars.fresh w')
    (hno : ∀ w', Waiting Vars.fresh w' → Q none Vars.fresh w') :
    Holds (contract facts) (readStates handler) Vars.fresh (World.before initial) Q Failed := by
  have hheld := (waiting_before initial).held
  refine .seq (holds_command hh (fun _ => trivial) (fun r _ => ?_) fun r hr _ => ?_)
  · obtain ⟨_ | rows, signal⟩ := r
    · exact hheld
    · exact hheld.mono rfl rfl rfl fun hf => hf
  · obtain ⟨_ | rows, signal⟩ := r
    · refine .seq (holds_command hh (fun _ => trivial) (fun _ _ => hheld) fun _ _ _ => ?_)
      exact hno _ ⟨hheld, rfl, rfl⟩
    · have hreported : Held Vars.fresh { World.before initial with report := rows } :=
        hheld.mono rfl rfl rfl fun hf => hf
      refine .seq (holds_command hh (fun _ => trivial) (fun _ _ => hreported) fun r₂ _ _ => ?_)
      split
      · exact hno _ ⟨hreported, rfl, rfl⟩
      · refine .seq (holds_command hh (fun _ => trivial) (fun _ _ => hreported)
          fun r₃ _ _ => Script.holds_pure ?_)
        split
        · exact hok rows _ ⟨⟨hreported, rfl, rfl⟩, rfl, hr rows rfl, rfl, .nil,
            List.forall_mem_nil _, List.forall_mem_nil _⟩
        · exact hno _ ⟨hreported, rfl, rfl⟩

/-- As many facts as rows, and each one has its row: they are about the same volumes. -/
lemma Preparing.covered {rows : List StateRow} {fs : List Fact} (h : Preparing rows fs v w)
    (haccept : acceptFacts facts = true) (hlines : endedLines facts = fs.map Fact.line)
    (hread : ∀ f ∈ fs, readFact f.line = some f) (huuid : (fs.map Fact.uuid).Nodup)
    (hcount : v.sourceCount = rows.length) (hpos : 0 < v.sourceCount) :
    Covered facts w v.stage := by
  rw [h.count] at hcount hpos
  refine ⟨haccept, fs, List.ne_nil_of_length_pos hpos, hlines, hread, h.stage, ?_⟩
  rw [h.report]
  have hnodup : (fs.map fun f => (f.uuid, f.path)).Nodup := .of_map Prod.fst (by rwa [List.map_map])
  have hsubset : (fs.map fun f => (f.uuid, f.path)) ⊆ rows.map fun row => (row.uuid, row.path) := by
    intro key hkey
    obtain ⟨f, hf, rfl⟩ := List.mem_map.mp hkey
    obtain ⟨row, hrow, hu, hp⟩ := h.rows f hf
    rw [← hu, ← hp]
    exact List.mem_map_of_mem hrow
  refine (List.subperm_of_subset hnodup hsubset).perm_of_length_le ?_
  rw [List.length_map, List.length_map, hcount]

lemma holds_prepareAll {sameText : Str → Str → Bool} {initial : Str → Bool}
    {Q : Bool → Vars → World → Prop} (hh : Handles facts handler)
    (haccept : acceptFacts facts = true)
    (hok : ∀ v' w', Waiting v' w' → Covered facts w' v'.stage → Q true v' w')
    (hno : ∀ v' w', Waiting v' w' → Q false v' w') :
    Holds (contract facts) (prepareAll sameText handler facts) Vars.fresh
      (World.before initial) Q Failed := by
  obtain ⟨fs, hlines, hread, huuid, hpath⟩ := acceptFacts_spec haccept
  refine .seq (holds_readStates hh (fun rows w₁ hw₁ => ?_) fun w₁ hw₁ => hno _ w₁ hw₁)
  dsimp only
  rw [hlines]
  refine .seq (holds_prepareLines hh hw₁ hread hpath (fun v₂ w₂ hw₂ => ?_) fun v₂ w₂ hw₂ => ?_)
  · refine .seq (Script.holds_vars (Script.holds_pure ?_))
    cases hdone : (true && v₂.sourceCount == rows.length && decide (0 < v₂.sourceCount)) with
    | false => exact hno v₂ w₂ hw₂.toWaiting
    | true =>
      simp only [Bool.true_and, Bool.and_eq_true, beq_iff_eq, decide_eq_true_eq] at hdone
      exact hok v₂ w₂ hw₂.toWaiting
        (hw₂.covered haccept hlines (fun f hf => (hread f hf).1) huuid hdone.1 hdone.2)
  · exact .seq (Script.holds_vars (Script.holds_pure (hno v₂ w₂ hw₂)))

/-! ### The subshell -/

/-- The facts are replaced by records of them all, and the volumes are as before. -/
def Published (facts : Str) (w : World) : Prop :=
  w.active = w.initial ∧ ∃ recorded, w.facts = some recorded ∧ Covered facts w recorded

lemma holds_prepareSubshell {sameText : Str → Str → Bool} {n : ℕ} {initial : Str → Bool}
    {Q : Unit → Vars → World → Prop} (haccept : acceptFacts facts = true)
    (h : ∀ v' w', Published facts w' → Q () v' w') :
    Holds (contract facts) (prepareSubshell sameText n facts) Vars.fresh
      (World.before initial) Q Failed := by
  have hh : Handles facts (prepareSignal n) := handles_prepareSignal n
  refine .seq (holds_prepareAll hh haccept (fun v₁ w₁ hw₁ hcovered => ?_) fun v₁ w₁ hw₁ => ?_)
  · refine .seq (holds_prepareCleanup hh hw₁.held fun ok w₂ hv₂ hr₂ hc₂ => ?_)
    have hnone : w₂.facts = none := hc₂.facts.trans hw₁.facts
    cases ok with
    | false => exact holds_giveUp hh hv₂ hr₂ (.inr hnone)
    | true =>
      have hsame : w₂.active = w₂.initial := hr₂ ((hc₂.ok rfl).trans hw₁.failed)
      have hcovered₂ := hcovered.mono hc₂.types hc₂.report
      refine .seq
        (Script.holds_vars
          (.seq (holds_command hh (fun _ => ⟨hsame, hcovered₂⟩) (fun r _ => ?_) fun r _ _ => ?_)))
      · obtain ⟨value, signal⟩ := r
        cases value with
        | true => exact hv₂.mono rfl rfl rfl fun hf => hf
        | false => exact hv₂
      · obtain ⟨value, signal⟩ := r
        cases value with
        | false => exact holds_giveUp hh hv₂ hr₂ (.inr hnone)
        | true =>
          have hpublished : Held v₁ { w₂ with facts := some v₁.stage } :=
            hv₂.mono rfl rfl rfl fun hf => hf
          refine .seq
            (holds_command hh (fun _ => trivial) (fun r _ => hpublished.remove hr₂ r.value)
              fun r _ _ => ?_)
          exact holds_untrap hr₂ (h _ _ ⟨hsame, v₁.stage, rfl, hcovered₂.mono rfl rfl⟩)
  · refine .seq (holds_prepareCleanup hh hw₁.held fun ok w₂ hv₂ hr₂ hc₂ => ?_)
    exact holds_giveUp hh hv₂ hr₂ (.inr (hc₂.facts.trans hw₁.facts))

/-- What the preparation leaves. -/
structure Ended (facts : Str) (active : Bool) (n : ℕ) (w : World) : Prop where
  restored : Restored w
  done : n = 0 → active = true → Published facts w
  kept : n ≠ 0 → w.signalled = true ∨ w.facts = none

lemma holds_lvmPrepareCaptureLvFactsSingle {sameText : Str → Str → Bool} {n : ℕ}
    {active ready : Bool} {initial : Str → Bool} {E : ℕ → Vars → World → Prop} :
    Holds (contract facts)
      (Script.status (lvmPrepareCaptureLvFactsSingle sameText n active ready facts)) v
        (World.before initial)
      (fun m _ w' => Ended facts active m w') E := by
  refine Script.holds_status ?_
  unfold lvmPrepareCaptureLvFactsSingle
  split
  · rename_i hactive
    exact Script.holds_pure ⟨fun _ => rfl,
      fun _ htrue => absurd (htrue.symm.trans hactive) Bool.noConfusion, fun hne => absurd rfl hne⟩
  · split
    · rename_i haccept
      have hsubshell : Holds (contract facts) (prepareSubshell sameText n facts) Vars.fresh
          (World.before initial)
          (fun _ _ w' => Ended facts active 0 w') fun m _ w' => m ≠ 0 ∧
            Ended facts active m w' := by
        refine Script.Holds.mono (Q := fun _ _ w' => Published facts w') (E := Failed)
          (holds_prepareSubshell (Bool.and_eq_true_iff.mp haccept).2 fun _ _ hp => hp)
            (fun _ _ w' hp => ?_) fun m _ w' hf => ?_
        · exact ⟨fun _ => hp.1, fun _ _ => hp, fun hne => absurd rfl hne⟩
        · exact ⟨hf.1, hf.2.1, fun hzero => absurd hzero hf.1, fun _ => hf.2.2⟩
      refine .seq
        (Script.holds_set (.bind (Q := fun m _ w' => Ended facts active m w') (Script.holds_status
        (hsubshell.mono (fun _ _ _ he => he) fun _ _ _ he => he.2)) fun m v' w' he => ?_))
      split
      · rename_i hm
        exact Script.holds_pure (hm ▸ he)
      · rename_i hm
        exact Script.holds_exit ⟨he.restored, fun hone => absurd hone one_ne_zero,
          fun _ => he.kept hm⟩
    · exact Script.holds_exit ⟨fun _ => rfl, fun hone => absurd hone one_ne_zero, fun _ => .inr rfl⟩

end Steps

/-! ### Runs -/

/-- **The volumes are restored, and the facts replaced as a whole.**  In every run of the
preparation, whatever fails and whenever signals arrive: only a volume that was not active is
activated or deactivated, and only behind the record that the cleanup needs; a volume is looked at
when it is active; the facts are replaced when all volumes are as before, by one record for each
volume that is reported.  In the end the volumes are as before unless a deactivation has failed; the
facts were replaced if the preparation succeeds, and were not if it fails without a signal. -/
theorem lvmPrepareCaptureLvFactsSingle_restores (sameText : Str → Str → Bool) (n : ℕ)
    (active ready : Bool) (facts : Str) (v : Vars) (initial : Str → Bool) {τ : List (Sigma Answer)}
    {o : Option (Except ℕ ℕ × Vars)}
    (hr : Prog.Runs (Script.status (lvmPrepareCaptureLvFactsSingle sameText n active ready facts) v)
      τ o)
    (hanswers : (contract facts).Along World.Answers (World.before initial) τ) :
    (contract facts).Along (World.Met facts) (World.before initial) τ ∧
      ∀ m v', o = some (.ok m, v') →
        Ended facts active m ((contract facts).after (World.before initial) τ) := by
  have hsafe :
      Holds (contract facts)
        (Script.status (lvmPrepareCaptureLvFactsSingle sameText n active ready facts)) v
      (World.before initial) (fun m _ w' => Ended facts active m w') fun _ _ _ => True :=
        holds_lvmPrepareCaptureLvFactsSingle
  obtain ⟨hmet, hend⟩ := hsafe.along hr hanswers
  exact ⟨hmet, fun m v' ho => hend _ ho⟩

/-- Two volumes, of which the second one is active. -/
def sampleFacts : Str := "root|R1|/dev/vg/root|2048\nswap|S1|/dev/vg/swap|1024\n".toList

def sampleInitial (path : Str) : Bool := path = "/dev/vg/swap".toList

/-- The volumes as LVM reports them. -/
def sampleRows (w : World) : List StateRow :=
  [("R1".toList, "/dev/vg/root".toList), ("S1".toList, "/dev/vg/swap".toList)].map fun volume =>
    ⟨volume.1, volume.2, if w.active volume.2 then activeWord else []⟩

/-- Every command succeeds; `signal` arrives behind the look at a volume. -/
def sampleEnv (signal : Option Signal) (seen : List (Sigma Answer)) : (c : Call) → Answer c
  | .lvs =>
    ⟨some (sampleRows (seen.foldr (fun e w => w.next e) (World.before sampleInitial))), none⟩
  | .saveReport => ⟨true, none⟩
  | .saveStates => ⟨true, none⟩
  | .intend _ => ⟨true, none⟩
  | .activate _ => ⟨⟨true, true⟩, none⟩
  | .deactivate _ => ⟨⟨true, false⟩, none⟩
  | .fsType path => ⟨if sampleInitial path then "swap".toList else "ext4".toList, signal⟩
  | .stageRecord _ => ⟨true, none⟩
  | .publish _ => ⟨true, none⟩
  | .remove => ⟨true, none⟩
  | .untrap => ⟨(), none⟩

lemma sampleRows_spec {w : World} {row : StateRow} (h : row ∈ sampleRows w) :
    row.active = activeWord ↔ w.active row.path = true := by
  obtain ⟨volume, -, rfl⟩ := List.mem_map.mp h
  dsimp only
  split
  · exact iff_of_true rfl ‹_›
  · exact iff_of_false (by decide) ‹_›

lemma sampleEnv_answers (signal : Option Signal) (seen : List (Sigma Answer)) (c : Call) :
    (seen.foldr (fun e w => (contract sampleFacts).next w e) (World.before sampleInitial)).Answers
      ⟨c, sampleEnv signal seen c⟩ := by
  cases c with
  | lvs =>
    intro rows hrows row hrow
    obtain rfl := Option.some.inj hrows
    exact sampleRows_spec hrow
  | activate path => exact fun _ => rfl
  | deactivate path => exact fun _ => rfl
  | _ => trivial

def sampleRun (signal : Option Signal) : List (Sigma Answer) × Option (Except ℕ ℕ × Vars) :=
  (Script.status (lvmPrepareCaptureLvFactsSingle (fun s t => s = t) 1 true true sampleFacts)
    Vars.fresh).exec (sampleEnv signal) []

lemma sampleRun_answers (signal : Option Signal) :
    (contract sampleFacts).Along World.Answers (World.before sampleInitial) (sampleRun signal).1 :=
  Contract.along_exec _ (sampleEnv_answers signal) _ []

/-- The first volume is activated and is inactive again in the end, also when the preparation is
terminated. -/
theorem lvmPrepareCaptureLvFactsSingle_restores_sample :
    ((sampleRun none).2 = some (.ok 0, ⟨[], [], 2⟩) ∧
      Ended sampleFacts true 0
        ((contract sampleFacts).after (World.before sampleInitial) (sampleRun none).1)) ∧
    (sampleRun (some .term)).2 = some (.ok 1, ⟨[], [], 1⟩) ∧
      Ended sampleFacts true 1
        ((contract sampleFacts).after (World.before sampleInitial) (sampleRun (some .term)).1) := by
  have hend : (sampleRun none).2 = some (.ok 0, ⟨[], [], 2⟩) := by decide +kernel
  have hterm : (sampleRun (some .term)).2 = some (.ok 1, ⟨[], [], 1⟩) := by decide +kernel
  refine ⟨⟨hend, ?_⟩, hterm, ?_⟩
  · exact (lvmPrepareCaptureLvFactsSingle_restores _ _ _ _ _ _ _
      (Prog.runs_exec (sampleEnv none) _ []) (sampleRun_answers none)).2 0 _ hend
  · exact (lvmPrepareCaptureLvFactsSingle_restores _ _ _ _ _ _ _
      (Prog.runs_exec (sampleEnv (some .term)) _ []) (sampleRun_answers _)).2 1 _ hterm

end Pxeos.Lvm
