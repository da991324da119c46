import Pxeos.CloudInit.RootSearch
import Pxeos.CloudInit.Undone

/-!
# What the search leaves

The search for a root undoes its mounts and deactivates the groups that it has activated.  The test
for a root, too, takes back what it does, but for one case: when the umount of a separate `/usr` is
refused, it keeps the groups that it has activated for it, and the search does not know of them.
-/

namespace Pxeos.CloudInit

open Pxeos.Lib
open Pxeos.Linux (Vg Candidate Row Marker btrfs supportedFstype lvmMember)
open Pxeos.Lib.Script (Holds)

/-! ### Groups that are lost -/

/-- `/usr` of a root. -/
def usrOf (dir : Str) : Str := dir ++ Requested.usr.path

lemma ne_usrOf (dir : Str) : dir ≠ usrOf dir := fun h => by
  have hlen := congrArg List.length h
  unfold usrOf at hlen
  rw [List.length_append] at hlen
  have husr : Requested.usr.path.length = 4 := rfl
  omega

def isMountAt (dir : Str) : Sigma Answer → Bool
  | ⟨.mount _ _ _ path, true⟩ => path == dir
  | _ => false

/-- The past up to the last mount at a directory. -/
def uptoMount (dir : Str) (past : Past) : Past :=
  (past.reverse.dropWhile fun e => !isMountAt dir e).reverse

/-- The groups that were activated since something was mounted at a directory, and that are still
active. -/
def heldSince (dir : Str) (past : Past) : Multiset Vg :=
  (ledger past).groups - (ledger (uptoMount dir past)).groups

/-- The umount of `/usr` is refused, and groups were activated for it. -/
def Leaking (dir : Str) (past : Past) : Sigma Answer → Prop
  | ⟨.umount path, false⟩ => path = usrOf dir ∧ heldSince dir past ≠ 0
  | _ => False

/-- No call from one past to another leaks. -/
def NoLeak (dir : Str) (past past' : Past) : Prop :=
  ∀ pre e post, past ++ pre ++ e :: post = past' → ¬ Leaking dir (past ++ pre) e

section Pasts

variable {dir : Str} {paths : List Str} {past past' past'' start : Past}

lemma noLeak_append {es ds : Past} :
    NoLeak dir past (past ++ es ++ ds) ↔
      NoLeak dir past (past ++ es) ∧ NoLeak dir (past ++ es) (past ++ es ++ ds) := by
  constructor
  · refine fun h => ⟨fun pre e post hes => ?_, fun pre e post hds => ?_⟩
    · refine h pre e (post ++ ds) ?_
      rw [← hes, List.append_assoc _ _ ds]
      rfl
    · rw [List.append_assoc past es pre]
      refine h (es ++ pre) e post ?_
      rw [← hds, List.append_assoc past es pre]
  · rintro ⟨hes, hds⟩ pre e post hall
    rw [List.append_assoc, List.append_assoc, List.append_cancel_left_eq] at hall
    rcases List.append_eq_append_iff.mp hall with ⟨mid, rfl, hmid⟩ | ⟨mid, rfl, rfl⟩
    · cases mid with
      | nil =>
        rw [List.append_nil] at hds
        have hlast := hds [] e post (by rw [List.append_nil, hmid]; rfl)
        rwa [List.append_nil] at hlast
      | cons d mid =>
        obtain ⟨rfl, rfl⟩ := List.cons.inj hmid
        refine hes pre e mid ?_
        rw [List.append_assoc]
    · rw [← List.append_assoc past es mid]
      exact hds mid e post (List.append_assoc _ _ _)

/-- **Nothing leaks on the whole way** exactly if nothing leaks on both parts of it. -/
lemma noLeak_trans (h : past <+: past') (h' : past' <+: past'') :
    NoLeak dir past past'' ↔ NoLeak dir past past' ∧ NoLeak dir past' past'' := by
  obtain ⟨es, rfl⟩ := h
  obtain ⟨ds, rfl⟩ := h'
  exact noLeak_append

lemma noLeak_concat {e : Sigma Answer} : NoLeak dir past (past ++ [e]) ↔ ¬ Leaking dir past e := by
  constructor
  · intro h
    have hlast := h [] e [] (by rw [List.append_nil])
    rwa [List.append_nil] at hlast
  · intro h pre d post hd
    rw [List.append_assoc, List.append_cancel_left_eq] at hd
    cases pre with
    | nil =>
      rw [List.nil_append] at hd
      obtain ⟨rfl, -⟩ := List.cons.inj hd
      rwa [List.append_nil]
    | cons d' pre =>
      obtain ⟨-, hnil⟩ := List.cons.inj hd
      exact absurd (List.append_eq_nil_iff.mp hnil).2 (List.cons_ne_nil _ _)

lemma Within.noLeak (h : Within paths past past') : NoLeak dir past past' := by
  obtain ⟨es, rfl, hes⟩ := h
  intro pre e post he
  rw [List.append_assoc, List.append_cancel_left_eq] at he
  have hin := hes e (he ▸ List.mem_append_right pre List.mem_cons_self)
  obtain ⟨c, r⟩ := e
  cases c with
  | umount path =>
    cases r with
    | true => exact fun h => h
    | false => exact hin.elim
  | _ => exact fun h => h

/-- The last mount at a directory, if since then there are mounts at its `/usr` at most. -/
lemma uptoMount_within {fs options device : Str}
    (hlater : Later (past ++ [⟨.mount fs options device dir, true⟩]) start)
    (hwithin : Within [usrOf dir] start past') :
    uptoMount dir past' = past ++ [⟨.mount fs options device dir, true⟩] := by
  have hpart : Within [usrOf dir] (past ++ [⟨.mount fs options device dir, true⟩]) past' :=
    hlater.within.trans hwithin
  obtain ⟨es, rfl, hes⟩ := hpart
  have hnone : ∀ e ∈ es.reverse, (!isMountAt dir e) = true := by
    intro e he
    have hin := hes e (List.mem_reverse.mp he)
    obtain ⟨c, r⟩ := e
    cases c with
    | mount fs options device path =>
      cases r with
      | true =>
        have hne : path ≠ dir := fun h =>
          ne_usrOf dir (h.symm.trans (List.mem_singleton.mp hin))
        simp [isMountAt, hne]
      | false => rfl
    | _ => rfl
  unfold uptoMount
  rw [List.reverse_append, List.dropWhile_append_of_pos hnone, List.reverse_concat,
    List.dropWhile_cons_of_neg (by simp [isMountAt]), List.reverse_cons, List.reverse_reverse]

end Pasts

/-! ### What a part of the search leaves -/

/-- From one past to another: the mounts in place, the groups that the search owns, and those that
were lost, of which `failed` tells. -/
structure Hunted (p : Place) (base : Past) (above : List Str) (owned : List Vg) (failed : Prop)
    (past : Past) : Prop where
  begins : base <+: past
  tidy : ((ledger past).mounts = (ledger base).mounts ++ above ∧
    ∀ vg ∈ owned, ActivatedOver (ledger base).mounts vg past) ∨ UnmountRefused past ∧ failed
  covers : (ledger base).groups + (owned : Multiset Vg) ≤ (ledger past).groups
  groups : RefusedSince base past ∨ ∃ lost : Multiset Vg,
    (ledger past).groups = (ledger base).groups + (owned : Multiset Vg) + lost ∧
      (NoLeak p.dir base past ↔ lost = 0) ∧ (lost ≠ 0 → failed)

section Parts

variable {p : Place} {base past past' : Past} {above above' : List Str} {owned owned' : List Vg}
  {failed failed' goal : Prop}

/-- One part of the search behind another. -/
lemma Hunted.trans (h : Hunted p base above owned failed past)
    (h' : Hunted p past above' owned' failed' past') (hgoal : failed → goal)
    (hgoal' : failed' → goal) : Hunted p base (above ++ above') (owned ++ owned') goal past' where
  begins := h.begins.trans h'.begins
  tidy := by
    rcases h.tidy with ⟨hmounts, howned⟩ | ⟨hrefused, hf⟩
    · rcases h'.tidy with ⟨hmounts', howned'⟩ | ⟨hrefused, hf⟩
      · refine .inl ⟨by rw [hmounts', hmounts, List.append_assoc], fun vg hvg => ?_⟩
        rcases List.mem_append.mp hvg with hvg | hvg
        · exact (howned vg hvg).mono h'.begins
        · obtain ⟨first, ok, hfirst, hover⟩ := howned' vg hvg
          rw [hmounts] at hover
          exact ⟨first, ok, hfirst, (List.prefix_append _ _).trans hover⟩
      · exact .inr ⟨hrefused, hgoal' hf⟩
    · exact .inr ⟨hrefused.mono h'.begins, hgoal hf⟩
  covers := by
    rw [← Multiset.coe_add, ← add_assoc]
    exact (add_le_add_left h.covers _).trans h'.covers
  groups := by
    rcases h.groups with hrefused | ⟨lost, hgroups, hleak, hlost⟩
    · exact .inl (hrefused.mono h'.begins)
    rcases h'.groups with hrefused | ⟨lost', hgroups', hleak', hlost'⟩
    · exact .inl (hrefused.widen h.begins)
    refine .inr ⟨lost + lost', ?_, ?_, fun hne => ?_⟩
    · rw [hgroups', hgroups, ← Multiset.coe_add]
      ac_rfl
    · rw [noLeak_trans h.begins h'.begins, hleak, hleak',
        add_eq_zero_iff_of_nonneg (Multiset.zero_le _) (Multiset.zero_le _)]
    · by_cases hzero : lost = 0
      · refine hgoal' (hlost' fun hzero' => hne ?_)
        rw [hzero, hzero', add_zero]
      · exact hgoal (hlost hzero)

lemma Hunted.mono (h : Hunted p base above owned failed past) (hgoal : failed → goal) :
    Hunted p base above owned goal past where
  begins := h.begins
  tidy := h.tidy.imp_right fun hr => ⟨hr.1, hgoal hr.2⟩
  covers := h.covers
  groups := h.groups.imp_right fun ⟨lost, h1, h2, h3⟩ => ⟨lost, h1, h2, fun hne => hgoal (h3 hne)⟩

/-- The mounts and the groups are the same, and no umount was refused. -/
lemma hunted_of_within {paths : List Str} (hwithin : Within paths base past)
    (hledger : ledger past = ledger base) : Hunted p base [] [] failed past where
  begins := hwithin.begins
  tidy := .inl ⟨by rw [hledger, List.append_nil], nofun⟩
  covers := by rw [hledger, Multiset.coe_nil, add_zero]
  groups := .inr ⟨0, by rw [hledger, Multiset.coe_nil, add_zero, add_zero],
    iff_of_true hwithin.noLeak rfl, fun h => absurd rfl h⟩

lemma Later.hunted (h : Later base past) : Hunted p base [] [] failed past :=
  hunted_of_within (h.within : Within [] base past) h.ledger_eq

lemma Hunted.later (h : Hunted p base above owned failed past) (hlater : Later past past') :
    Hunted p base above owned failed past' := by
  have hmore : Hunted p past [] [] failed past' := hlater.hunted
  have hall := h.trans hmore id id
  rwa [List.append_nil, List.append_nil] at hall

/-- Something is mounted at the place. -/
lemma hunted_mount {fs options device : Str} :
    Hunted p base [p.dir] [] failed (base ++ [⟨.mount fs options device p.dir, true⟩]) where
  begins := List.prefix_append _ _
  tidy := .inl ⟨by rw [ledger_concat]; rfl, nofun⟩
  covers := by
    rw [ledger_concat, Multiset.coe_nil, add_zero]
    exact le_refl _
  groups := .inr ⟨0, by rw [ledger_concat, Multiset.coe_nil, add_zero, add_zero]; rfl,
    iff_of_true (noLeak_concat.mpr fun h => h) rfl,
    fun h => absurd rfl h⟩

/-- A umount of the place leaks nothing. -/
lemma noLeak_umount (ok : Bool) : NoLeak p.dir past (past ++ [⟨.umount p.dir, ok⟩]) := by
  refine noLeak_concat.mpr ?_
  cases ok with
  | true => exact fun h => h
  | false => exact fun h => ne_usrOf p.dir h.1

/-- A umount of the place. -/
lemma Hunted.of_umount {ok : Bool} (h : Hunted p base above owned failed past)
    (htidy : ok = true → (ledger past).mounts = (ledger base).mounts ++ above →
      (ledger (past ++ [⟨.umount p.dir, ok⟩])).mounts = (ledger base).mounts ++ above') :
    Hunted p base above' owned (failed ∨ ok = false) (past ++ [⟨.umount p.dir, ok⟩]) := by
  have hbegin : past <+: past ++ [⟨.umount p.dir, ok⟩] := List.prefix_append _ _
  have hgroups : (ledger (past ++ [⟨.umount p.dir, ok⟩])).groups = (ledger past).groups := by
    rw [ledger_concat]
    cases ok with
    | true => rfl
    | false => rfl
  refine ⟨h.begins.trans hbegin, ?_, by rw [hgroups]; exact h.covers, ?_⟩
  · cases ok with
    | false => exact .inr ⟨⟨_, List.mem_concat_self⟩, .inr rfl⟩
    | true =>
      refine h.tidy.imp (fun ⟨hmounts, howned⟩ => ⟨htidy rfl hmounts, fun vg hvg => ?_⟩)
        fun ⟨hrefused, hf⟩ => ⟨hrefused.mono hbegin, .inl hf⟩
      exact (howned vg hvg).mono hbegin
  · refine h.groups.imp (fun hrefused => hrefused.mono hbegin) fun ⟨lost, h1, h2, h3⟩ =>
      ⟨lost, hgroups.trans h1, ?_, fun hne => .inl (h3 hne)⟩
    rw [noLeak_trans h.begins hbegin, h2]
    exact and_iff_left (noLeak_umount ok)

/-- The place is freed again, or this is refused. -/
lemma Hunted.umount {ok : Bool} (h : Hunted p base [p.dir] owned failed past) :
    Hunted p base [] owned (failed ∨ ok = false) (past ++ [⟨.umount p.dir, ok⟩]) := by
  refine h.of_umount fun hok hmounts => ?_
  subst hok
  rw [ledger_concat]
  show ((ledger past).mounts.reverse.erase p.dir).reverse = _
  rw [hmounts, List.reverse_concat, List.erase_cons_head, List.reverse_reverse, List.append_nil]

/-- Something at the place that the search has not mounted. -/
lemma Hunted.umountFree {ok : Bool} (h : Hunted p base [] owned failed past)
    (hfree : p.dir ∉ (ledger base).mounts) :
    Hunted p base [] owned (failed ∨ ok = false) (past ++ [⟨.umount p.dir, ok⟩]) := by
  refine h.of_umount fun hok hmounts => ?_
  subst hok
  rw [List.append_nil] at hmounts
  rw [ledger_concat]
  show ((ledger past).mounts.reverse.erase p.dir).reverse = _
  rw [hmounts, List.erase_of_not_mem fun hmem => hfree (List.mem_reverse.mp hmem),
    List.reverse_reverse, List.append_nil]

/-- A group that is owned is deactivated. -/
lemma Hunted.deactivate {vg : Vg} {ok : Bool} (h : Hunted p base above (vg :: owned) failed past) :
    Hunted p base above owned failed (past ++ [⟨.deactivate vg, ok⟩]) := by
  have hbegin : past <+: past ++ [⟨.deactivate vg, ok⟩] := List.prefix_append _ _
  have hmounts : (ledger (past ++ [⟨.deactivate vg, ok⟩])).mounts = (ledger past).mounts := by
    rw [ledger_concat]
    cases ok with
    | true => rfl
    | false => rfl
  have hcovers := h.covers
  rw [← Multiset.cons_coe, Multiset.add_cons] at hcovers
  refine ⟨h.begins.trans hbegin, ?_, ?_, ?_⟩
  · refine h.tidy.imp (fun ⟨hsame, howned⟩ => ⟨hmounts.trans hsame, fun g hg => ?_⟩)
      fun ⟨hrefused, hf⟩ => ⟨hrefused.mono hbegin, hf⟩
    exact (howned g (List.mem_cons_of_mem _ hg)).mono hbegin
  · rw [ledger_concat]
    cases ok with
    | true =>
      have hle := Multiset.erase_le_erase vg hcovers
      rwa [Multiset.erase_cons_head] at hle
    | false => exact (Multiset.le_cons_self _ vg).trans hcovers
  · cases ok with
    | false => exact .inl ((refusedSince_concat vg).widen h.begins)
    | true =>
      refine h.groups.imp (fun hrefused => hrefused.mono hbegin) fun ⟨lost, h1, h2, h3⟩ =>
        ⟨lost, ?_, ?_, h3⟩
      · rw [ledger_concat]
        show (ledger past).groups.erase vg = _
        rw [h1, ← Multiset.cons_coe, Multiset.add_cons, Multiset.cons_add,
          Multiset.erase_cons_head]
      · rw [noLeak_trans h.begins hbegin, h2]
        exact and_iff_left (noLeak_concat.mpr fun h => h)

/-- The activation of a group that succeeds, or fails. -/
lemma hunted_of_agrees {w : Vars} (hwithin : Within [] base past) (h : Agrees base w past)
    (hmounts : w.ownedMounts = []) : Hunted p base [] w.ownedGroups failed past where
  begins := hwithin.begins
  tidy := .inl ⟨by rw [h.mounts, hmounts], h.since⟩
  covers := h.covers
  groups := h.groups.imp_right fun hgroups =>
    ⟨0, by rw [hgroups, add_zero], iff_of_true hwithin.noLeak rfl, fun h => absurd rfl h⟩

/-- The test for a root at the place. -/
lemma Probed.hunted {fs options device : Str} {start : Past} {n : ℕ}
    (h : Probed start p.dir n past)
    (hlater : Later (base ++ [⟨.mount fs options device p.dir, true⟩]) start) :
    Hunted p start [] [] (n = 2) past where
  begins := h.begins
  tidy := by
    rcases h.outcome with ⟨-, hmounts, -⟩ | ⟨hn, between, -, rfl⟩
    · exact .inl ⟨by rw [hmounts, List.append_nil], nofun⟩
    · exact .inr ⟨⟨_, List.mem_concat_self⟩, hn⟩
  covers := by
    rw [Multiset.coe_nil, add_zero]
    exact h.covers
  groups := by
    rcases h.outcome with ⟨hwithin, -, hgroups⟩ | ⟨hn, between, hwithin, rfl⟩
    · refine hgroups.imp_right fun hsame => ⟨0, ?_, iff_of_true hwithin.noLeak rfl,
        fun h => absurd rfl h⟩
      rw [hsame, Multiset.coe_nil, add_zero, add_zero]
    · -- what was activated since the start of the test is lost
      have hcovers := h.covers
      rw [ledger_concat] at hcovers
      have hheld : heldSince p.dir between = (ledger between).groups - (ledger start).groups := by
        unfold heldSince
        rw [uptoMount_within hlater hwithin, hlater.ledger_eq]
      refine .inr ⟨(ledger between).groups - (ledger start).groups, ?_, ?_, fun _ => hn⟩
      · rw [ledger_concat, Multiset.coe_nil, add_zero]
        exact (add_tsub_cancel_of_le hcovers).symm
      · rw [noLeak_trans hwithin.begins (List.prefix_append _ _), noLeak_concat, ← hheld]
        refine ⟨fun hno => ?_, fun hzero => ⟨hwithin.noLeak, fun hleak => hleak.2 hzero⟩⟩
        by_contra hne
        exact hno.2 ⟨rfl, hne⟩

end Parts

/-! ### The probe -/

/-- The mounts in place, up to a umount that was refused. -/
def Tidy (base : Past) (above : List Str) (past : Past) : Prop :=
  (ledger past).mounts = (ledger base).mounts ++ above ∨ UnmountRefused past

/-- What a search may do behind a past. -/
structure Needs.Searches (needs : Needs) (p : Place) (base : Past) : Prop where
  free : p.dir ∉ (ledger base).mounts
  mount : ∀ fs device options subvolid past, base <+: past → Tidy base [] past →
    supportedFstype fs = true → Printed (.probedType device) fs past →
    linuxMountOptions .ro fs subvolid = some options → needs.mount fs options device p.dir past
  usr : ∀ allowed past, p.isPrivate = true → p.allowed = some allowed → base <+: past →
    Tidy base [p.dir] past → needs.Mounts allowed (usrOf p.dir) .ro past
  umount : ∀ path past, base <+: past → (ledger past).mounts.getLast? = some path ∨
    UnmountRefused past ∨ p.isPrivate = false → needs.umount path past
  release : ∀ vg past, base <+: past → Bare vg past ∨ UnmountRefused past → needs.release vg past

section Steps

variable {needs : Needs} {p : Place} {base past past' start : Past} {v : Vars}
  {E : ℕ → Vars → Past → Prop} {above : List Str} {owned : List Vg} {failed : Prop}
  {device fs : Str} {vg : Option Vg}

lemma Hunted.tidied (h : Hunted p base above owned failed past) : Tidy base above past :=
  h.tidy.imp And.left And.left

lemma Hunted.last (h : Hunted p base [p.dir] owned failed past) :
    (ledger past).mounts.getLast? = some p.dir ∨ UnmountRefused past ∨ p.isPrivate = false := by
  refine h.tidied.imp (fun hmounts => ?_) .inl
  rw [hmounts, List.getLast?_concat]

/-- What was mounted by the probe is undone. -/
lemma holds_umountProbe {Q : Unit → Vars → Past → Prop} (hneeds : needs.Searches p base)
    (hp : Hunted p base [p.dir] owned failed past)
    (h : ∀ past', Hunted p base [] owned failed past' → Q () v past')
    (he : ∀ past', Hunted p base [] owned True past' → E 2 v past') :
    Holds (session needs) (umountProbe p) v past Q E := by
  refine .seq (Script.holds_ask fun ok _ => ⟨hneeds.umount p.dir past hp.begins hp.last, ?_⟩)
  have hnext : Hunted p base [] owned (failed ∨ ok = false) (past ++ [⟨.umount p.dir, ok⟩]) :=
    hp.umount
  cases ok with
  | true => exact h _ (hnext.mono fun hf => hf.resolve_right nofun)
  | false => exact he _ (hnext.mono fun _ => trivial)

lemma holds_freePlace {failure : ℕ} {Q : Unit → Vars → Past → Prop} (hneeds : needs.Searches p base)
    (hp : Hunted p base [] owned failed past)
    (h : ∀ past', past <+: past' → Hunted p base [] owned failed past' → Q () v past')
    (hfail : ∀ past', Hunted p base [] owned failed past' → E failure v past')
    (he : ∀ past', Hunted p base [] owned True past' → E 2 v past') :
    Holds (session needs) (freePlace p failure) v past Q E := by
  refine .seq (holds_test fun made past₁ h₁ _ => ?_)
  cases made with
  | false => exact .seq (hfail past₁ (hp.later h₁))
  | true =>
    refine .seq (holds_test fun busy past₂ h₂ _ => ?_)
    have h₁₂ := h₁.trans h₂
    have hp₂ := hp.later h₁₂
    cases busy with
    | false => exact h past₂ h₁₂.begins hp₂
    | true =>
      by_cases hprivate : p.isPrivate = true
      · rw [if_pos rfl, if_pos hprivate]
        exact he past₂ (hp₂.mono fun _ => trivial)
      · rw [if_pos rfl, if_neg hprivate]
        rw [Bool.not_eq_true] at hprivate
        refine .seq (Script.holds_ask fun ok _ =>
          ⟨hneeds.umount p.dir past₂ hp₂.begins (.inr (.inr hprivate)), ?_⟩)
        have hnext : Hunted p base [] owned (failed ∨ ok = false)
            (past₂ ++ [⟨.umount p.dir, ok⟩]) := hp₂.umountFree hneeds.free
        cases ok with
        | true =>
          exact h _ (h₁₂.begins.trans (List.prefix_append _ _))
            (hnext.mono fun hf => hf.resolve_right nofun)
        | false => exact he _ (hnext.mono fun _ => trivial)

lemma holds_mountProbe {subvolid : Option ℕ} {failure : ℕ} {Q : Unit → Vars → Past → Prop}
    (hneeds : needs.Searches p base) (hp : Hunted p base [] owned failed past)
    (hfs : supportedFstype fs = true) (htype : Printed (.probedType device) fs past)
    (h : ∀ options, Q () v (past ++ [⟨.mount fs options device p.dir, true⟩]))
    (he : ∀ past', Later past past' → E failure v past') :
    Holds (session needs) (mountProbe p device fs subvolid failure) v past Q E := by
  unfold mountProbe
  split
  · exact he past (.refl past)
  · rename_i options hoptions
    refine .seq (Script.holds_ask fun ok _ => ⟨?_, ?_⟩)
    · exact hneeds.mount fs device options subvolid past hp.begins hp.tidied hfs htype hoptions
    · cases ok with
      | true => exact h options
      | false => exact he _ (later_concat trivial)

/-- **The test for a root**, of what was just mounted. -/
lemma holds_lookForRoot {options : Str} {Q : Marker → Vars → Past → Prop}
    (hneeds : needs.Searches p base) (hp : Hunted p base [] owned failed past)
    (hlater : Later (past ++ [⟨.mount fs options device p.dir, true⟩]) start)
    (h : ∀ m v' past', Hunted p base [p.dir] owned (m = .broken ∨ failed) past' → Q m v' past') :
    Holds (session needs) (lookForRoot p) v start Q E := by
  have hstart : Hunted p base [p.dir] owned failed start := by
    have hmount : Hunted p past [p.dir] [] failed
        (past ++ [⟨.mount fs options device p.dir, true⟩]) := hunted_mount
    have hall := hp.trans hmount id id
    rw [List.nil_append, List.append_nil] at hall
    exact hall.later hlater
  unfold lookForRoot
  split
  · rename_i allowed hprivate hallowed
    refine .seq (holds_probeRootMarker ?_ ?_ ?_ ?_ fun n v' past' hprobed => ?_)
    · exact hneeds.usr allowed start hprivate hallowed hstart.begins hstart.tidied
    · exact fun path past' hb hlast =>
        hneeds.umount path past' (hstart.begins.trans hb) (.inl hlast)
    · exact fun vg past' hb _ hjust =>
        hneeds.release vg past' (hstart.begins.trans hb) (.inl hjust.bare)
    · exact fun vg past' hb _ hbare =>
        hneeds.release vg past' (hstart.begins.trans hb) (.inl hbare)
    · have hall : ∀ m : Marker, (n = 2 → m = .broken) →
          Hunted p base [p.dir] owned (m = .broken ∨ failed) past' := fun m hm => by
        have hmore : Hunted p base ([p.dir] ++ []) (owned ++ []) (m = .broken ∨ failed) past' :=
          hstart.trans (hprobed.hunted hlater) .inr fun hn => .inl (hm hn)
        rwa [List.append_nil, List.append_nil] at hmore
      split
      · exact h .root v' past' (hall .root nofun)
      · exact h .noRoot v' past' (hall .noRoot nofun)
      · exact h .broken v' past' (hall .broken fun _ => rfl)
  · refine .seq (holds_look (fun _ => trivial) (fun _ => trivial) fun (found : ℕ) past' h' _ => ?_)
    exact h _ v past' ((hstart.later h').mono .inr)

lemma holds_rootSubvolid {subvolid : Option ℕ} {Q : Option ℕ → Vars → Past → Prop}
    (hneeds : needs.Searches p base) (hp : Hunted p base [p.dir] owned failed past)
    (h : ∀ o past', Hunted p base [p.dir] owned failed past' → Q o v past')
    (he : ∀ n past', n ≠ 1 → Hunted p base [] owned True past' → E n v past') :
    Holds (session needs) (rootSubvolid p fs subvolid) v past Q E := by
  unfold rootSubvolid
  split
  · refine .seq (holds_look (fun _ => trivial) (fun _ => trivial) fun default past₁ h₁ _ => ?_)
    cases default with
    | some id => exact h (some id) past₁ (hp.later h₁)
    | none =>
      refine .seq (holds_umountProbe hneeds (hp.later h₁) (fun past₂ h₂ => ?_) fun past₂ h₂ => ?_)
      · exact he 3 past₂ (by decide) (h₂.mono fun _ => trivial)
      · exact he 2 past₂ (by decide) h₂
  · exact h subvolid past hp

/-- A probe is ended, and the place is freed. -/
lemma holds_endProbe {subvolid : Option ℕ} {m : Marker} {Q : Candidate → Vars → Past → Prop}
    (hneeds : needs.Searches p base)
    (hp : Hunted p base [p.dir] owned (m = .broken ∨ failed) past)
    (h : ∀ c past', Hunted p base [] owned failed past' → Q c v past')
    (he : ∀ n past', Hunted p base [] owned (n ≠ 1 ∨ failed) past' → E n v past') :
    Holds (session needs) (endProbe p device fs vg subvolid m) v past Q E := by
  have hlost : ∀ {n past'}, n ≠ 1 → Hunted p base [] owned True past' → E n v past' :=
    fun hn hall => he _ _ (hall.mono fun _ => .inl hn)
  cases m with
  | broken =>
    refine .seq (holds_umountProbe hneeds hp (fun past₁ hp₁ => ?_) fun past₁ hp₁ => ?_)
    · exact hlost (by decide) (hp₁.mono fun _ => trivial)
    · exact hlost (by decide) hp₁
  | noRoot =>
    refine .seq (holds_umountProbe hneeds hp (fun past₁ hp₁ => ?_) fun past₁ hp₁ => ?_)
    · exact he 1 past₁ (hp₁.mono fun hf => .inr (hf.resolve_left nofun))
    · exact hlost (by decide) hp₁
  | root =>
    have hp' : Hunted p base [p.dir] owned failed past := hp.mono fun hf => hf.resolve_left nofun
    refine .seq (holds_rootSubvolid hneeds hp' (fun o past₁ hp₁ => ?_) fun n past₁ hn hp₁ =>
      hlost hn hp₁)
    exact .seq (holds_umountProbe hneeds hp₁ (fun past₂ hp₂ => h _ past₂ hp₂)
      fun past₂ hp₂ => hlost (by decide) hp₂)

/-- **A filesystem is probed**, and nothing stays mounted at the place. -/
lemma holds_linuxProbeRootCandidate {subvolid : Option ℕ} {Q : Candidate → Vars → Past → Prop}
    (hneeds : needs.Searches p base) (hp : Hunted p base [] owned failed past)
    (htype : Printed (.probedType device) fs past)
    (h : ∀ c v' past', Hunted p base [] owned failed past' → Q c v' past')
    (he : ∀ n v' past', Hunted p base [] owned (n ≠ 1 ∨ failed) past' → E n v' past') :
    Holds (session needs) (linuxProbeRootCandidate p device fs vg subvolid) v past Q E := by
  refine .seq (holds_orReturn (fun hfs => ?_) (he 1 v past (hp.mono .inr)))
  refine .seq (holds_freePlace hneeds hp (fun past₁ hb₁ hp₁ => ?_)
    (fun past₁ hp₁ => he _ v past₁ (hp₁.mono .inr)) fun past₁ hp₁ =>
      he 2 v past₁ (hp₁.mono fun _ => .inl (by decide)))
  refine .seq (holds_mountProbe hneeds hp₁ hfs (htype.mono hb₁) (fun options => ?_)
    fun past₂ h₂ => he _ v past₂ ((hp₁.later h₂).mono .inr))
  refine .seq (holds_test fun etc past₂ h₂ _ => ?_)
  have hmounted : Hunted p base [p.dir] owned failed past₂ := by
    have hmount : Hunted p past₁ [p.dir] [] failed
        (past₁ ++ [⟨.mount fs options device p.dir, true⟩]) := hunted_mount
    have hall := hp₁.trans hmount id id
    rw [List.nil_append, List.append_nil] at hall
    exact hall.later h₂
  cases etc with
  | true =>
    refine .seq (holds_lookForRoot hneeds hp₁ h₂ fun m v₃ past₃ hp₃ => ?_)
    exact holds_endProbe hneeds hp₃ (fun c past₄ hp₄ => h c v₃ past₄ hp₄)
      fun n past₄ hp₄ => he n v₃ past₄ hp₄
  | false =>
    refine .seq (holds_endProbe hneeds (hmounted.mono .inr) (fun c past₄ hp₄ => h c v past₄ hp₄)
      fun n past₄ hp₄ => he n v past₄ hp₄)

/-- The subvolumes are listed. -/
lemma holds_linuxBtrfsSubvolumeIds {Q : List ℕ → Vars → Past → Prop}
    (hneeds : needs.Searches p base) (hp : Hunted p base [] owned failed past)
    (htype : Printed (.probedType device) btrfs past)
    (h : ∀ ids past', Hunted p base [] owned failed past' → Q ids v past')
    (he : ∀ n past', Hunted p base [] owned ((n = 2 ∨ n = 3) ∨ failed) past' → E n v past') :
    Holds (session needs) (linuxBtrfsSubvolumeIds p device) v past Q E := by
  refine .seq (holds_freePlace hneeds hp (fun past₁ hb₁ hp₁ => ?_)
    (fun past₁ hp₁ => he 3 past₁ (hp₁.mono .inr)) fun past₁ hp₁ =>
      he 2 past₁ (hp₁.mono fun _ => .inl (.inl rfl)))
  refine .seq (holds_mountProbe hneeds hp₁ (by decide) (htype.mono hb₁) (fun options => ?_)
    fun past₂ h₂ => he 3 past₂ ((hp₁.later h₂).mono .inr))
  refine .seq (holds_look (fun _ => trivial) (fun _ => trivial) fun rows past₂ h₂ _ => ?_)
  have hmounted : Hunted p base [p.dir] owned failed past₂ := by
    have hmount : Hunted p past₁ [p.dir] [] failed
        (past₁ ++ [⟨.mount btrfs options device p.dir, true⟩]) := hunted_mount
    have hall := hp₁.trans hmount id id
    rw [List.nil_append, List.append_nil] at hall
    exact hall.later h₂
  refine .seq (holds_umountProbe hneeds hmounted (fun past₃ hp₃ => ?_) fun past₃ hp₃ =>
    he 2 past₃ (hp₃.mono fun _ => .inl (.inl rfl)))
  cases rows with
  | none => exact he 3 past₃ (hp₃.mono .inr)
  | some ids =>
    dsimp only
    split
    · exact .seq (holds_orReturn (fun _ => h _ past₃ hp₃) (he 1 past₃ (hp₃.mono .inr)))
    · exact he 3 past₃ (hp₃.mono .inr)

/-! ### The loops -/

/-- The variables of the search say what it has activated and whether a probe has failed. -/
def Hunting (p : Place) (base : Past) (s : Hunt) (past : Past) : Prop :=
  Hunted p base [] s.activated (s.probeFailed = true) past

variable {s : Hunt}

/-- A probe in a subshell. -/
lemma holds_subshell_probe {subvolid : Option ℕ} {Q : Except ℕ Candidate → Vars → Past → Prop}
    (hneeds : needs.Searches p base) (hp : Hunted p base [] owned failed past)
    (htype : Printed (.probedType device) fs past)
    (h : ∀ c past', past <+: past' → Hunted p base [] owned failed past' → Q (.ok c) v past')
    (he : ∀ n past', past <+: past' → Hunted p base [] owned (n ≠ 1 ∨ failed) past' →
      Q (.error n) v past') :
    Holds (session needs) (Script.subshell (linuxProbeRootCandidate p device fs vg subvolid)) v past
      Q E := by
  have hprobe : Holds (session needs) (linuxProbeRootCandidate p device fs vg subvolid) v past
      (fun _ _ past' => Hunted p base [] owned failed past')
      fun n _ past' => Hunted p base [] owned (n ≠ 1 ∨ failed) past' :=
    holds_linuxProbeRootCandidate hneeds hp htype (fun _ _ _ h => h) fun _ _ _ h => h
  refine Script.holds_subshell ((hprobe.runs fun _ _ => rfl).mono (fun c v' past' hc => ?_)
    fun n v' past' hn => ?_)
  · obtain ⟨hp', τ, rfl, -⟩ := hc
    exact h c _ (List.prefix_append _ _) hp'
  · obtain ⟨hp', τ, rfl, -⟩ := hn
    exact he n _ (List.prefix_append _ _) hp'

lemma holds_probeTurn {subvolid : Option ℕ} {Q : Hunt → Vars → Past → Prop}
    (hneeds : needs.Searches p base) (hp : Hunting p base s past)
    (htype : Printed (.probedType device) fs past)
    (h : ∀ s' past', past <+: past' → Hunting p base s' past' → Q s' v past') :
    Holds (session needs) (probeTurn p device fs vg subvolid s) v past Q E := by
  refine .seq (holds_subshell_probe hneeds hp htype (fun c past₁ hb₁ hp₁ => ?_)
    fun n past₁ hb₁ hp₁ => ?_)
  · exact h (s.add c) past₁ hb₁ hp₁
  · split
    · rename_i hok
      cases hok
    · rename_i hone
      obtain rfl := Except.error.inj hone
      exact h s past₁ hb₁ (hp₁.mono fun hf => hf.resolve_left fun hne => hne rfl)
    · exact h s.failProbe past₁ hb₁ (hp₁.mono fun _ => rfl)

lemma holds_probeSubvolumes {Q : Hunt → Vars → Past → Prop}
    (hneeds : needs.Searches p base) (hp : Hunting p base s past)
    (htype : Printed (.probedType device) btrfs past)
    (h : ∀ s' past', Hunting p base s' past' → Q s' v past') :
    Holds (session needs) (probeSubvolumes p device vg s) v past Q E := by
  have hlist : Holds (session needs) (linuxBtrfsSubvolumeIds p device) v past
      (fun _ _ past' => Hunting p base s past')
      fun n _ past' =>
        Hunted p base [] s.activated ((n = 2 ∨ n = 3) ∨ s.probeFailed = true) past' :=
    holds_linuxBtrfsSubvolumeIds hneeds hp htype (fun _ _ h => h) fun _ _ h => h
  refine .seq (Script.holds_subshell ((hlist.runs fun _ _ => rfl).mono (fun ids v₁ past₁ hids => ?_)
    fun n v₁ past₁ hn => ?_))
  · obtain ⟨hp₁, τ, rfl, -⟩ := hids
    have htype₁ : Printed (.probedType device) btrfs (past ++ τ) :=
      htype.mono (List.prefix_append _ _)
    refine (Script.holds_foldEach (fun s' v' past' => v' = v ∧ Hunting p base s' past' ∧
      Printed (.probedType device) btrfs past') ?_ _ ⟨rfl, hp₁, htype₁⟩).mono ?_ fun _ _ _ h => h
    · rintro id s' _ past' ⟨rfl, hp', htype'⟩
      exact holds_probeTurn hneeds hp' htype' fun s'' past'' hb hp'' =>
        ⟨rfl, hp'', htype'.mono hb⟩
    · rintro s' _ past' ⟨rfl, hp', -⟩
      exact h s' past' hp'
  · obtain ⟨hp₁, τ, rfl, -⟩ := hn
    split
    · rename_i hok
      cases hok
    · exact h s.failProbe _ (hp₁.mono fun _ => rfl)
    · exact h s.failProbe _ (hp₁.mono fun _ => rfl)
    · rename_i htwo hthree hn
      obtain rfl := Except.error.inj hn
      refine h s _ (hp₁.mono fun hf => hf.resolve_left fun hn => ?_)
      rcases hn with rfl | rfl
      · exact htwo rfl
      · exact hthree rfl

lemma holds_examineDevice {Q : Hunt → Vars → Past → Prop} (hneeds : needs.Searches p base)
    (hp : Hunting p base s past) (htype : Printed (.probedType device) fs past)
    (h : ∀ s' past', Hunting p base s' past' → Q s' v past') :
    Holds (session needs) (examineDevice p device fs vg s) v past Q E := by
  unfold examineDevice
  split
  · rename_i hbtrfs
    subst hbtrfs
    refine .seq (holds_subshell_probe hneeds hp htype (fun c past₁ _ hp₁ => h (s.add c) past₁ hp₁)
      fun n past₁ hb₁ hp₁ => ?_)
    split
    · rename_i hok
      cases hok
    · rename_i hone
      obtain rfl := Except.error.inj hone
      exact holds_probeSubvolumes hneeds (hp₁.mono fun hf => hf.resolve_left fun hne => hne rfl)
        (htype.mono hb₁) h
    · exact h s.failProbe past₁ (hp₁.mono fun _ => rfl)
  · exact holds_probeTurn hneeds hp htype fun s' past' _ hp' => h s' past' hp'

/-- The body of the loop over the partitions. -/
lemma holds_partitionTurn {part : Str} {Q : Hunt → Vars → Past → Prop}
    (hneeds : needs.Searches p base) (hp : Hunting p base s past)
    (h : ∀ s' past', Hunting p base s' past' → Q s' v past') :
    Holds (session needs) (partitionTurn p part s) v past Q E := by
  refine .seq (holds_query fun o past₁ h₁ ho => ?_)
  have hp₁ : Hunting p base s past₁ := Hunted.later hp h₁
  cases o with
  | none => exact h s past₁ hp₁
  | some fs =>
    dsimp only
    split
    · exact h s.failProbe past₁ (hp₁.mono fun _ => rfl)
    · split
      · exact h { s with lvmParts := s.lvmParts ++ [part] } past₁ hp₁
      · exact holds_examineDevice hneeds hp₁ (ho fs rfl) h

/-- The logical volumes of a group. -/
lemma holds_searchVolumes {vg : Vg} {Q : Hunt → Vars → Past → Prop}
    (hneeds : needs.Searches p base) (hp : Hunting p base s past)
    (h : ∀ s' past', Hunting p base s' past' → Q s' v past') :
    Holds (session needs) (searchVolumes p vg s) v past Q E := by
  refine .seq (holds_test fun made past₁ h₁ _ => ?_)
  have hp₁ : Hunting p base s past₁ := Hunted.later hp h₁
  cases made with
  | false => exact h s.failLvm past₁ hp₁
  | true =>
    refine .seq (Script.holds_attempt (holds_linuxLvsForVgJson (fun rows first h₂ _ _ => ?_)
      fun past₂ h₂ => h s.failLvm past₂ (Hunted.later hp₁ h₂)))
    have h₂' := h₂.trans (later_concat (e := ⟨.groupRows vg, some rows⟩) trivial)
    refine (Script.holds_foldEach (fun s' v' past' => v' = v ∧ Hunting p base s' past') ?_ rows
      ⟨rfl, Hunted.later hp₁ h₂'⟩).mono ?_ fun _ _ _ h => h
    · rintro row s' _ past' ⟨rfl, hp'⟩
      unfold volumeTurn
      split
      · exact ⟨rfl, hp'⟩
      · refine .seq (holds_query fun o past₃ h₃ ho => ?_)
        have hp₃ : Hunting p base s' past₃ := Hunted.later hp' h₃
        cases o with
        | none => exact ⟨rfl, hp₃⟩
        | some fs => exact holds_examineDevice hneeds hp₃ (ho fs rfl) fun _ _ hp'' => ⟨rfl, hp''⟩
    · rintro s' _ past' ⟨rfl, hp'⟩
      exact h s' past' hp'

/-- **A group is visited.** -/
lemma holds_groupTurn {disk : Str} {vg : Vg} {Q : Hunt → Vars → Past → Prop}
    (hneeds : needs.Searches p base) (hp : Hunting p base s past)
    (h : ∀ s' past', Hunting p base s' past' → Q s' v past') :
    Holds (session needs) (groupTurn p disk vg s) v past Q E := by
  unfold groupTurn
  split
  · exact h s past hp
  have hback : needs.RollsBack past := fun vg past' hb _ hjust =>
    hneeds.release vg past' (hp.begins.trans hb) (.inl hjust.bare)
  have hstart : Agrees past ⟨[], [], [], []⟩ past := agrees_start rfl rfl
  refine .seq (Script.holds_attempt (holds_linuxActivateVgIfNeeded hstart hback
    (fun owned past₁ hwithin _ hagrees => ?_) fun n past₁ hwithin hagrees _ => ?_))
  · have hpart : Hunted p past [] (kept vg owned ⟨[], [], [], []⟩).ownedGroups False past₁ :=
      hunted_of_agrees hwithin hagrees (by cases owned <;> rfl)
    have hall := hp.trans hpart id False.elim
    cases owned with
    | true => exact holds_searchVolumes hneeds hall h
    | false =>
      refine holds_searchVolumes hneeds ?_ h
      have hnone : (kept vg false ⟨[], [], [], []⟩).ownedGroups = [] := rfl
      rw [hnone, List.append_nil, List.append_nil] at hall
      exact hall
  · have hpart : Hunted p past [] [] False past₁ := hunted_of_agrees hwithin hagrees rfl
    have hall := hp.trans hpart id False.elim
    rw [List.append_nil, List.append_nil] at hall
    split
    · rename_i hok
      cases hok
    · rename_i hok
      cases hok
    · exact h _ past₁ hall
    · exact h _ past₁ hall

/-- **Both loops.** -/
lemma holds_hunt {disk : Str} {parts : List Str} {Q : Hunt → Vars → Past → Prop}
    (hneeds : needs.Searches p base) (hp : Hunting p base .start past)
    (h : ∀ s' past', Hunting p base s' past' → Q s' v past') :
    Holds (session needs) (hunt p disk parts) v past Q E := by
  refine .bind (Q := fun s' v' past' => v' = v ∧ Hunting p base s' past')
    (Script.holds_foldEach _ ?_ parts ⟨rfl, hp⟩) ?_
  · rintro part s' _ past' ⟨rfl, hp'⟩
    exact holds_partitionTurn hneeds hp' fun _ _ hp'' => ⟨rfl, hp''⟩
  · rintro s₁ w past₁ ⟨rfl, hp₁⟩
    refine (Script.holds_foldEach (fun s' v' past' => v' = w ∧ Hunting p base s' past') ?_
      s₁.lvmParts ⟨rfl, hp₁⟩).mono ?_ fun _ _ _ h => h
    · rintro part s' w past' ⟨rfl, hp'⟩
      refine .seq (holds_look (fun _ => trivial) (fun _ => trivial) fun vgs past₂ h₂ _ => ?_)
      have hp₂ : Hunting p base s' past₂ := Hunted.later hp' h₂
      cases vgs with
      | none => exact ⟨rfl, hp₂⟩
      | some vgs =>
        refine Script.holds_foldEach (fun s' v' past' => v' = w ∧ Hunting p base s' past') ?_ vgs
          ⟨rfl, hp₂⟩
        rintro vg s₃ _ past₃ ⟨rfl, hp₃⟩
        exact holds_groupTurn hneeds hp₃ fun _ _ hp₄ => ⟨rfl, hp₄⟩
    · rintro s' _ past' ⟨rfl, hp'⟩
      exact h s' past' hp'

/-! ### The end -/

/-- The last loop. -/
lemma holds_deactivateActivated {vgs : List Vg} {rc : ℕ} {Q : ℕ → Vars → Past → Prop}
    (hneeds : needs.Searches p base) (hp : Hunted p base [] vgs failed past)
    (h : ∀ rc' past', rc' = rc ∨ rc' = 23 → Hunted p base [] [] failed past' → Q rc' v past') :
    Holds (session needs) (deactivateActivated p vgs rc) v past Q E := by
  induction vgs generalizing past rc with
  | nil => exact h rc past (.inl rfl) hp
  | cons vg vgs ih =>
    have hmem : vg ∈ (ledger past).groups := by
      refine Multiset.mem_of_le hp.covers (Multiset.mem_add.mpr (.inr ?_))
      exact Multiset.mem_coe.mpr List.mem_cons_self
    have hrelease : needs.release vg past := by
      refine hneeds.release vg past hp.begins (hp.tidy.imp (fun ⟨hmounts, howned⟩ => ?_) And.left)
      unfold Bare
      rw [hmounts, List.append_nil]
      exact howned vg List.mem_cons_self
    refine .seq (Script.holds_ask fun ok _ => ⟨⟨hmem, hrelease⟩, ?_⟩)
    refine ih hp.deactivate fun rc' past' hrc hp' => h rc' past' ?_ hp'
    rcases hrc with rfl | rfl
    · split
      · exact .inr rfl
      · exact .inl rfl
    · exact .inr rfl

/-- The search has neither found a root nor seen that there is none. -/
def Broke (r : Except ℕ Candidate) : Prop := (∀ c, r ≠ .ok c) ∧ r ≠ .error 20

lemma broke_error {n : ℕ} (h : n ≠ 20) : Broke (.error n) :=
  ⟨nofun, fun heq => h (Except.error.inj heq)⟩

/-- **The search for a root.**  The mounts and the groups are what they were, up to what was
refused; what a umount that was refused has left behind, the status tells. -/
lemma holds_findLinuxRootFilesystem {disk : Str} {Q : Except ℕ Candidate → Vars → Past → Prop}
    (hneeds : needs.Searches p base)
    (h : ∀ r past', Hunted p base [] [] (Broke r) past' → Q r v past') :
    Holds (session needs) (findLinuxRootFilesystem p disk) v base (fun c => Q (.ok c))
      fun n => Q (.error n) := by
  unfold findLinuxRootFilesystem
  split
  · exact h (.error 20) base (Later.refl base).hunted
  refine .seq (holds_look (fun _ => trivial) (fun _ => trivial)
    fun (parts : List Str) past₁ h₁ _ => ?_)
  split
  · exact h (.error 20) past₁ h₁.hunted
  · refine .seq (holds_hunt hneeds h₁.hunted fun s past₂ hp₂ => ?_)
    refine .seq (holds_deactivateActivated hneeds hp₂ fun rc past₃ hrc hp₃ => ?_)
    have hbroke : s.probeFailed = true → rc ≠ 0 ∧ rc ≠ 20 := by
      intro hf
      have hverdict : s.verdict = 24 := if_pos hf
      rw [hverdict] at hrc
      rcases hrc with rfl | rfl
      · decide
      · decide
    split
    · exact h _ past₃ (hp₃.mono fun hf => absurd rfl (hbroke hf).1)
    · exact h _ past₃ (hp₃.mono fun hf => broke_error (hbroke hf).2)

end Steps

end Pxeos.CloudInit
