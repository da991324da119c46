import Pxeos.CloudInit.Confined

/-!
# The path that is found is canonical

A path that `rootpxe_ci_resolve_target` has found is found again when it is asked for, and then no
link is followed; and two paths are found to be the same exactly when a process whose root is the
root of the target finds the same node at them.
-/

namespace Pxeos.CloudInit

open Pxeos.Lib

section Again

variable {h : Host} {root requested out : Str} {R resolved names : List Str}
  {kind : Kind} {name : Str}

/-- What is safe below the root of the target is safe for the check at the cursor. -/
lemma ciMetadataSafe_cursor (hroot : resolvePath h root = some R)
    (hentries : ∀ n ∈ names, IsEntry n) (hname : IsEntry name)
    (hdirs : ∀ pre, pre <+: names → pre ≠ [] → ∃ node, h.find (R ++ pre) = some node ∧
      node.isLink = false)
    (hsafe : Safe h kind (R ++ names ++ [name])) :
    isLink h (cursorOf root (names ++ [name])) = false ∧
      ciMetadataSafe h (cursorOf root (names ++ [name])) kind none = true := by
  have hlstat := lstat_cursor hroot hentries hname hdirs
  obtain ⟨info, hfind, hinfo⟩ := hsafe
  rw [hfind] at hlstat
  have hlink : isLink h (cursorOf root (names ++ [name])) = false := by
    unfold isLink
    rw [hlstat]
    cases kind <;> rfl
  have hstat := stat_of_lstat hlstat (by cases kind <;> rfl)
  refine ⟨hlink, ?_⟩
  unfold ciMetadataSafe ciStat isDir isFile
  rw [hlink, hlstat, hstat]
  cases kind with
  | directory => exact hinfo
  | file => exact hinfo

lemma isEntry_namesOf (hentries : ∀ n ∈ names, IsEntry n) : namesOf names = [] ↔ names = [] := by
  unfold namesOf
  split
  · rename_i hblank
    rw [hblank] at hentries
    exact absurd rfl (hentries [] List.mem_cons_self).1
  · rfl

/-- **The loop goes through names that were reached**, whatever it would do with a link. -/
lemma resolveLoop_reached (hroot : resolvePath h root = some R)
    {follow : List Str → List Str → Option (List Str)} (hreached : Reached h R (resolved ++ names))
    (hend : Safe h kind (R ++ (resolved ++ names))) :
    resolveLoop h root kind follow resolved names = some (resolved ++ names) := by
  induction names generalizing resolved with
  | nil => rw [resolveLoop, List.append_nil]
  | cons name names ih =>
    rw [List.append_cons] at hreached hend ⊢
    have hmem : name ∈ resolved ++ [name] ++ names :=
      List.mem_append_left _ (List.mem_append_right _ List.mem_cons_self)
    have hentry := hreached.entries name hmem
    have hentries : ∀ n ∈ names, IsEntry n :=
      fun n hn => hreached.entries n (List.mem_append_right _ hn)
    -- the check of the component
    have hprefix : resolved ++ [name] <+: resolved ++ [name] ++ names := List.prefix_append _ _
    have hsafe : Safe h (if namesOf names = [] then kind else .directory)
        (R ++ resolved ++ [name]) := by
      rw [List.append_assoc]
      by_cases hnames : names = []
      · rw [if_pos ((isEntry_namesOf hentries).mpr hnames)]
        rwa [hnames, List.append_nil] at hend
      · rw [if_neg fun hblank => hnames ((isEntry_namesOf hentries).mp hblank)]
        refine hreached.before _ hprefix fun hall => hnames ?_
        exact List.self_eq_append_right.mp hall
    have hnodes : ∀ pre, pre <+: resolved → pre ≠ [] →
        ∃ node, h.find (R ++ pre) = some node ∧ node.isLink = false := fun pre hpre _ =>
      hreached.node hend (hpre.trans ((List.prefix_append _ _).trans hprefix))
    obtain ⟨hlink, hcheck⟩ := ciMetadataSafe_cursor hroot
      (fun n hn => hreached.entries n (List.mem_append_left _ (List.mem_append_left _ hn)))
        hentry hnodes hsafe
    rw [resolveLoop, if_neg fun h => hentry.1 h.1, if_neg (not_or.mpr ⟨hentry.1, hentry.2.1⟩),
      if_neg hentry.2.2.1, if_neg (hreached.lines name hmem)]
    dsimp only
    rw [hlink, if_neg Bool.false_ne_true, if_pos hcheck]
    exact ih hreached hend

/-- The names of the path below the root of the target. -/
lemma splitOn_below (hentries : ∀ n ∈ names, IsEntry n) :
    (cursorOf [] names).splitOn '/' = [] :: names :=
  splitOn_cursor fun n hn => (hentries n hn).2.2.2

lemma resolveLinks_reached (hroot : resolvePath h root = some R) (limit : ℕ)
    (hreached : Reached h R names) (hend : Safe h kind (R ++ names)) :
    resolveLinks h root kind limit [] ((cursorOf [] names).splitOn '/') = some names := by
  have hloop : ∀ follow, resolveLoop h root kind follow [] ([] :: names) = some names := by
    intro follow
    rw [resolveLoop]
    by_cases hnil : names = []
    · rw [if_pos ⟨rfl, hnil⟩, hnil]
    · rw [if_neg fun h => hnil h.2, if_pos (.inl rfl)]
      exact resolveLoop_reached hroot (by rwa [List.nil_append]) (by rwa [List.nil_append])
  rw [splitOn_below hreached.entries]
  cases limit with
  | zero => exact hloop _
  | succ limit => exact hloop _

/-- The names of a path are known from its text. -/
lemma cursorOf_inj {names' : List Str} (hentries : ∀ n ∈ names, IsEntry n)
    (hentries' : ∀ n ∈ names', IsEntry n) (heq : cursorOf root names = cursorOf root names') :
    names = names' := by
  have hsplit : (cursorOf root names).splitOn '/' = root.splitOn '/' ++ names :=
    splitOn_cursor fun n hn => (hentries n hn).2.2.2
  rw [heq, splitOn_cursor fun n hn => (hentries' n hn).2.2.2] at hsplit
  exact (List.append_cancel_left hsplit).symm

end Again

/-- **The path that is found is canonical.**  Below the root it is found again, without a link; and
it is the same path for all that leads a process with this root to the same node. -/
theorem ciResolveTarget_canonical (h : Host) (root requested : Str) (kind : Kind) (out : Str)
    (hlinks : PlainLinks h) (hout : ciResolveTarget h root requested kind = some out) :
    (∃ names, out = cursorOf root names ∧
      ciResolveTarget h root ('/' :: cursorOf [] names) kind = some out ∧
      resolveLinks h root kind 0 [] ((cursorOf [] names).splitOn '/') = some names) ∧
    ∀ requested' kind' out', ciResolveTarget h root requested' kind' = some out' →
      (out' = out ↔ ∃ R, resolvePath h root = some R ∧
        h.walk R 40 R (requested'.splitOn '/') = h.walk R 40 R (requested.splitOn '/')) := by
  obtain ⟨R, names, rfl, hlocated⟩ := located_of_eq_some hlinks hout
  constructor
  · refine ⟨names, rfl, ?_, resolveLinks_reached hlocated.root 0 hlocated.toReached hlocated.here⟩
    obtain ⟨-, hdir, hlink, hsafe, names', -, hend, heq⟩ := ciResolveTarget_eq_some.mp hout
    rw [heq] at hend
    exact ciResolveTarget_eq_some.mpr ⟨⟨_, rfl⟩, hdir, hlink, hsafe, names,
      resolveLinks_reached hlocated.root 40 hlocated.toReached hlocated.here, hend, rfl⟩
  · intro requested' kind' out' hout'
    obtain ⟨R', names', rfl, hlocated'⟩ := located_of_eq_some hlinks hout'
    obtain rfl : R = R' := Option.some.inj (hlocated.root.symm.trans hlocated'.root)
    constructor
    · intro heq
      have hnames := cursorOf_inj hlocated'.entries hlocated.entries heq
      exact ⟨R, hlocated.root, by rw [hlocated'.inside, hlocated.inside, hnames]⟩
    · rintro ⟨S, hS, hwalk⟩
      obtain rfl : R = S := Option.some.inj (hlocated.root.symm.trans hS)
      rw [hlocated'.inside, hlocated.inside] at hwalk
      rw [List.append_cancel_left (Option.some.inj hwalk)]

/-- The program behind the link `/bin`, asked for by its own path. -/
theorem ciResolveTarget_canonical_bin :
    ciResolveTarget binHost "/t".toList "//usr/bin/cloud-init".toList .file =
        some "/t/usr/bin/cloud-init".toList ∧
      ∃ R, resolvePath binHost "/t".toList = some R ∧
        binHost.walk R 40 R ("//usr/bin/cloud-init".toList.splitOn '/') =
          binHost.walk R 40 R ("/bin/cloud-init".toList.splitOn '/') := by
  have hlink : ciResolveTarget binHost "/t".toList "/bin/cloud-init".toList .file =
      some "/t/usr/bin/cloud-init".toList := by decide +kernel
  have hplain : ciResolveTarget binHost "/t".toList "//usr/bin/cloud-init".toList .file =
      some "/t/usr/bin/cloud-init".toList := by decide +kernel
  exact ⟨hplain, ((ciResolveTarget_canonical binHost "/t".toList "/bin/cloud-init".toList .file _
    plainLinks_binHost hlink).2 _ _ _ hplain).mp rfl⟩

end Pxeos.CloudInit
