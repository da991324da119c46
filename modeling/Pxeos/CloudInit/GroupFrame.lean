import Pxeos.CloudInit.Searched
import Mathlib.Logic.Function.Basic

/-!
# The volume groups after the search

The search for the root filesystem activates the groups that it reads as inactive, and deactivates
them before it returns.  Each volume is in the state that it was in unless

* a group is activated that has an active volume: a volume without a path, such as a pool, leaves
  an empty field in the line of the report, and its state is then read as its path;
* the umount of a separate `/usr` is refused while a group is active that was activated for it.
-/

namespace Pxeos.CloudInit

open Pxeos.Lib
open Pxeos.Linux (Vg Lv Row Candidate Activity lvmMember)
open Pxeos.Lib.Script (Holds)

/-! ### The groups in a run -/

/-- The group that a call activates. -/
def activated : Sigma Answer → Option Vg
  | ⟨.activate vg, _⟩ => some vg
  | _ => none

/-- The group that a call deactivates. -/
def deactivated : Sigma Answer → Option Vg
  | ⟨.deactivate vg, _⟩ => some vg
  | _ => none

def activations (past : Past) : Multiset Vg := (past.filterMap activated : List Vg)

def deactivations (past : Past) : Multiset Vg := (past.filterMap deactivated : List Vg)

/-- A group, by its uuid, was activated and not deactivated since. -/
def Held (past : Past) (uuid : Str) : Prop := ∃ vg ∈ (ledger past).groups, vg.uuid = uuid

/-- No group is deactivated that was not activated before, and no deactivation is refused. -/
structure Orderly (past : Past) : Prop where
  held : ∀ pre vg ok post, past = pre ++ ⟨.deactivate vg, ok⟩ :: post → vg ∈ (ledger pre).groups
  calm : ∀ vg, ⟨.deactivate vg, false⟩ ∉ past

section Counting

variable {past : Past} {e : Sigma Answer}

lemma Orderly.of_append {es : Past} (h : Orderly (past ++ es)) : Orderly past where
  held pre vg ok post hpast := by
    refine h.held pre vg ok (post ++ es) ?_
    rw [hpast, List.append_assoc]
    rfl
  calm vg hvg := h.calm vg (List.mem_append_left _ hvg)

/-- What a call does to the groups: it activates one, or deactivates one that is held, or
neither. -/
lemma Orderly.last (h : Orderly (past ++ [e])) :
    (∃ vg ok, e = ⟨.activate vg, ok⟩) ∨
      (∃ vg, e = ⟨.deactivate vg, true⟩ ∧ vg ∈ (ledger past).groups) ∨
        activated e = none ∧ deactivated e = none := by
  obtain ⟨c, r⟩ := e
  cases c with
  | activate vg => exact .inl ⟨vg, r, rfl⟩
  | deactivate vg =>
    cases r with
    | true => exact .inr (.inl ⟨vg, rfl, h.held past vg true [] rfl⟩)
    | false => exact absurd List.mem_concat_self (h.calm vg)
  | _ => exact .inr (.inr ⟨rfl, rfl⟩)

lemma mem_activations {vg : Vg} : vg ∈ activations past ↔ ∃ e ∈ past, activated e = some vg := by
  rw [activations, Multiset.mem_coe, List.mem_filterMap]

lemma activations_concat :
    activations (past ++ [e]) = activations past + (activated e).elim 0 fun vg => {vg} := by
  unfold activations
  rw [List.filterMap_append, ← Multiset.coe_add]
  cases h : activated e with
  | none => simp [h]
  | some vg => simp [h]

lemma deactivations_concat :
    deactivations (past ++ [e]) = deactivations past + (deactivated e).elim 0 fun vg => {vg} := by
  unfold deactivations
  rw [List.filterMap_append, ← Multiset.coe_add]
  cases h : deactivated e with
  | none => simp [h]
  | some vg => simp [h]

lemma next_groups_of_none (l : Ledger) (h : activated e = none ∧ deactivated e = none) :
    (l.next e).groups = l.groups := by
  obtain ⟨c, r⟩ := e
  cases c with
  | activate vg => cases h.1
  | deactivate vg => cases h.2
  | mount fs options device path =>
    cases r with
    | true => rfl
    | false => rfl
  | umount path =>
    cases r with
    | true => rfl
    | false => rfl
  | _ => rfl

/-- **The balance**: what is held and what was deactivated is what was activated. -/
lemma Orderly.balance (h : Orderly past) :
    (ledger past).groups + deactivations past = activations past := by
  induction past using List.reverseRecOn with
  | nil => rfl
  | append_singleton past e ih =>
    have hpast := ih h.of_append
    rw [ledger_concat, activations_concat, deactivations_concat]
    rcases h.last with ⟨vg, ok, rfl⟩ | ⟨vg, rfl, hvg⟩ | hnone
    · show vg ::ₘ (ledger past).groups + (deactivations past + 0) = activations past + {vg}
      rw [add_zero, Multiset.cons_add, hpast, add_comm, Multiset.singleton_add]
    · show (ledger past).groups.erase vg + (deactivations past + {vg}) = activations past + 0
      rw [add_zero, add_comm (deactivations past), ← add_assoc,
        add_comm ((ledger past).groups.erase vg), Multiset.singleton_add, Multiset.cons_erase hvg,
        hpast]
    · rw [next_groups_of_none _ hnone, hnone.1, hnone.2]
      show (ledger past).groups + (deactivations past + 0) = activations past + 0
      rw [add_zero, add_zero, hpast]

/-- A group that is held was activated. -/
lemma Orderly.mem_activations (h : Orderly past) {vg : Vg} (hvg : vg ∈ (ledger past).groups) :
    vg ∈ activations past := by
  rw [← h.balance]
  exact Multiset.mem_add.mpr (.inl hvg)

end Counting

/-! ### The volumes -/

/-- The logical volumes of the groups; which of them are active before the run; and which ones of a
group are after a `vgchange -ay`, or a `vgchange -an` that fails. -/
structure Lvm where
  volumes : Str → List Lv
  active : Activity
  left : Past → Str → Bool

namespace Lvm

/-- What a call does to the volumes. -/
def change (l : Lvm) (past : Past) (active : Activity) : Sigma Answer → Activity
  | ⟨.activate vg, _⟩ => Function.update active vg.uuid (l.left past)
  | ⟨.deactivate vg, true⟩ => Function.update active vg.uuid fun _ => false
  | ⟨.deactivate vg, false⟩ => Function.update active vg.uuid (l.left past)
  | _ => active

/-- The volumes after some calls, of which the last one comes first. -/
def replay (l : Lvm) : List (Sigma Answer) → Activity
  | [] => l.active
  | e :: seen => l.change seen.reverse (l.replay seen) e

/-- Which volumes are active after a past. -/
def activity (l : Lvm) (past : Past) : Activity := l.replay past.reverse

/-- No volume of a group is active. -/
def Inactive (l : Lvm) (active : Activity) (uuid : Str) : Prop :=
  ∀ lv ∈ l.volumes uuid, active uuid lv.name = false

/-- **The volumes are in the state that they were in**: what was activated had been inactive, and
was deactivated once for each time. -/
structure Restored (l : Lvm) (τ : Past) : Prop where
  state : ∀ uuid, ∀ lv ∈ l.volumes uuid, l.activity τ uuid lv.name = l.active uuid lv.name
  frame : ∀ vg ∈ activations τ, l.Inactive l.active vg.uuid
  once : activations τ = deactivations τ

section Replay

variable {l : Lvm} {past : Past} {e : Sigma Answer}

lemma activity_concat : l.activity (past ++ [e]) = l.change past (l.activity past) e := by
  unfold activity
  rw [List.reverse_concat, replay, List.reverse_reverse]

lemma change_of_none {active : Activity} (h : activated e = none ∧ deactivated e = none) :
    l.change past active e = active := by
  obtain ⟨c, r⟩ := e
  cases c with
  | activate vg => cases h.1
  | deactivate vg => cases h.2
  | _ => rfl

/-- A group that is not held is as it was before the run. -/
lemma activity_of_free (h : Orderly past)
    (hframe : ∀ vg ∈ activations past, l.Inactive l.active vg.uuid) {uuid : Str}
    (hfree : ¬ Held past uuid) {lv : Lv} (hlv : lv ∈ l.volumes uuid) :
    l.activity past uuid lv.name = l.active uuid lv.name := by
  induction past using List.reverseRecOn with
  | nil => rfl
  | append_singleton past e ih =>
    have hframe' : ∀ vg ∈ activations past, l.Inactive l.active vg.uuid := fun vg hvg =>
      hframe vg (by rw [activations_concat]; exact Multiset.mem_add.mpr (.inl hvg))
    have hold := ih h.of_append hframe'
    unfold Held at hfree
    rw [ledger_concat] at hfree
    rw [activity_concat]
    rcases h.last with ⟨vg, ok, rfl⟩ | ⟨vg, rfl, hvg⟩ | hnone
    · have hne : uuid ≠ vg.uuid := fun heq =>
        hfree ⟨vg, Multiset.mem_cons_self vg (ledger past).groups, heq.symm⟩
      show Function.update (l.activity past) vg.uuid (l.left past) uuid lv.name = _
      rw [Function.update_of_ne hne]
      refine hold fun ⟨g, hg, hguuid⟩ => hfree ⟨g, ?_, hguuid⟩
      exact Multiset.mem_cons_of_mem hg
    · show Function.update (l.activity past) vg.uuid (fun _ => false) uuid lv.name = _
      by_cases heq : uuid = vg.uuid
      · -- the group had been inactive before it was activated
        subst heq
        rw [Function.update_self]
        exact (hframe' vg (h.of_append.mem_activations hvg) lv hlv).symm
      · rw [Function.update_of_ne heq]
        refine hold fun ⟨g, hg, hguuid⟩ => hfree ⟨g, ?_, hguuid⟩
        have hne : g ≠ vg := fun hgvg => heq (by rw [← hguuid, hgvg])
        exact (Multiset.mem_erase_of_ne hne).mpr hg
    · rw [change_of_none hnone]
      rw [next_groups_of_none _ hnone] at hfree
      exact hold hfree

/-- If only groups are activated that are inactive or held, then what was activated had been
inactive before the run. -/
lemma frame_of_inactive (h : Orderly past)
    (hall : ∀ pre e post, past = pre ++ e :: post → ∀ vg, activated e = some vg →
      l.Inactive (l.activity pre) vg.uuid ∨ Held pre vg.uuid) :
    ∀ vg ∈ activations past, l.Inactive l.active vg.uuid := by
  induction past using List.reverseRecOn with
  | nil => exact nofun
  | append_singleton past e ih =>
    have hframe := ih h.of_append fun pre d post hpast => by
      refine hall pre d (post ++ [e]) ?_
      rw [hpast, List.append_assoc]
      rfl
    intro vg hvg
    obtain ⟨d, hd, hact⟩ := mem_activations.mp hvg
    rcases List.mem_append.mp hd with hd | hd
    · exact hframe vg (mem_activations.mpr ⟨d, hd, hact⟩)
    · obtain rfl := List.mem_singleton.mp hd
      by_cases hheld : Held past vg.uuid
      · obtain ⟨g, hg, hguuid⟩ := hheld
        rw [← hguuid]
        exact hframe g (h.of_append.mem_activations hg)
      · intro lv hlv
        have hnow := (hall past d [] rfl vg hact).resolve_right hheld
        rw [← activity_of_free h.of_append hframe hheld hlv]
        exact hnow lv hlv

/-- **The frame of a run** behind which no group is held. -/
lemma restored_of_frame (h : Orderly past)
    (hframe : ∀ vg ∈ activations past, l.Inactive l.active vg.uuid)
    (hzero : (ledger past).groups = 0) : l.Restored past := by
  refine ⟨fun uuid lv hlv => activity_of_free h hframe ?_ hlv, hframe, ?_⟩
  · rintro ⟨vg, hvg, -⟩
    rw [hzero] at hvg
    exact absurd hvg (Multiset.notMem_zero vg)
  · rw [← h.balance, hzero, zero_add]

end Replay

/-! ### Reports -/

/-- The report of a group as it is. -/
def rows (l : Lvm) (past : Past) (vg : Vg) : List Row :=
  (l.volumes vg.uuid).map fun lv => lv.row (l.activity past vg.uuid lv.name)

/-- A report that is given is right. -/
def Right (l : Lvm) (past : Past) (e : Sigma Answer) : Prop :=
  ∀ vg rows, e = ⟨.groupRows vg, some rows⟩ → rows = l.rows past vg

/-- Every report of a run is right. -/
def Truthful (l : Lvm) (τ : Past) : Prop := ∀ pre e post, τ = pre ++ e :: post → l.Right pre e

/-- A group that a right report shows as inactive is inactive if its active volumes have paths. -/
lemma inactive_of_paths {l : Lvm} {past : Past} {vg : Vg} (hidle : IdleReport vg past)
    (htruthful : l.Truthful past)
    (hpaths : ∀ lv ∈ l.volumes vg.uuid, lv.path = [] →
      l.activity past vg.uuid lv.name = false) : l.Inactive (l.activity past) vg.uuid := by
  obtain ⟨first, shown, rfl, -, hshown⟩ := hidle
  intro lv hlv
  have hsame : l.activity (first ++ [⟨.groupRows vg, some shown⟩]) = l.activity first :=
    activity_concat.trans (change_of_none ⟨rfl, rfl⟩)
  have hrows := htruthful first _ [] rfl vg shown rfl
  rw [hrows] at hshown
  have hpath := hpaths lv hlv
  rw [hsame] at hpath ⊢
  rcases Lv.row_idle.mp (hshown _ (List.mem_map_of_mem hlv)) with ⟨-, -, hin⟩ | ⟨hnil, -⟩
  · exact hin
  · exact hpath hnil

/-- In an environment that reports what there is, every report is right. -/
lemma truthful_exec {α : Type} (l : Lvm) {env : List (Sigma Answer) → (c : Call) → Answer c}
    (h : ∀ seen vg, env seen (.groupRows vg) = some (l.rows seen.reverse vg))
    (p : Prog Call Answer α) :
    l.Truthful (p.exec env []).1 := by
  have halong : (history l.Right).Along l.Right [] (p.exec env []).1 := by
    show (history l.Right).Along l.Right ([].foldr (fun e past => past ++ [e]) []) (p.exec env []).1
    refine Contract.along_exec (M := history l.Right) (fun seen c => ?_) p []
    have hseen : seen.foldr (fun e past => past ++ [e]) [] = seen.reverse := by
      induction seen with
      | nil => rfl
      | cons e seen ih => rw [List.foldr_cons, ih, List.reverse_cons]
    show l.Right (seen.foldr (fun e past => past ++ [e]) []) _
    rw [hseen]
    intro vg rows he
    obtain ⟨rfl, hrows⟩ := Sigma.mk.inj he
    exact Option.some.inj ((eq_of_heq hrows).symm.trans (h seen vg))
  intro pre e post hτ
  rw [hτ] at halong
  exact along_history halong

end Lvm

/-! ### The search -/

/-- A disk with the physical volume of one group. -/
def Lvm.env (l : Lvm) (seen : List (Sigma Answer)) : (c : Call) → Answer c
  | .partitions _ => ["/dev/sda2".toList]
  | .query (.probedType device) =>
    some (if device = "/dev/sda2".toList then lvmMember else "ext4".toList)
  | .pvs _ => some [⟨"vg0".toList, "uuid-0".toList⟩]
  | .groupRows vg => some (l.rows seen.reverse vg)
  | c => sampleEnv seen c

/-- The one group has one volume, which is active behind `vgchange -ay`. -/
def oneVolume (lv : Lv) (active : Bool) : Lvm :=
  ⟨fun _ => [lv], fun _ _ => active, fun _ _ => true⟩

/-- The volume of a root. -/
def rootVolume : Lv := ⟨"system".toList, "/dev/vg0/system".toList, true, false, by decide⟩

end Pxeos.CloudInit
