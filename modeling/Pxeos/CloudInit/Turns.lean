import Pxeos.CloudInit.Resolve

/-!
# The loop, turn by turn

The loop of `rootpxe_ci_resolve_target` as the shell runs it: `pending` is a text, before which a
link puts its own text, and `count` counts the links.  The loop always ends, with not more than
forty links, and with what `resolveLinks` finds for the names of the text.
-/

namespace Pxeos.CloudInit

open Pxeos.Lib Pxeos.Linux

/-! ### The source's loop -/

/-- The variables of the loop. -/
structure Going where
  resolved : List Str
  pending : Str
  count : ℕ

/-- `${pending%%/*}`. -/
def componentOf (pending : Str) : Str := pending.takeWhile (· != '/')

/-- `${pending#*/}`, or nothing if there is no slash. -/
def behind (pending : Str) : Str := (pending.dropWhile (· != '/')).drop 1

/-- `"$link${pending:+/$pending}"`. -/
def inFront (link pending : Str) : Str := link ++ if pending = [] then [] else '/' :: pending

/-- A turn of the loop of `rootpxe_ci_resolve_target`, unless it returns 1. -/
def turn (h : Host) (root : Str) (kind : Kind) (g : Going) : Option Going :=
  let component := componentOf g.pending
  let pending := behind g.pending
  if component = [] ∨ component = ['.'] then some { g with pending }
  else if component = ['.', '.'] then
    if g.resolved = [] then none else some { g with resolved := g.resolved.dropLast, pending }
  else if '\n' ∈ component ∨ '\r' ∈ component then none
  else
    let cursor := cursorOf root (g.resolved ++ [component])
    if isLink h cursor then
      match ciStat h cursor with
      | none => none
      | some info =>
        if ¬ (info.uid = 0 ∧ info.gid = 0) then none
        else if 40 < g.count + 1 then none
        else match (readlink h cursor).map captured with
          | none => none
          | some link =>
            if link = [] ∨ '\n' ∈ link ∨ '\r' ∈ link then none
            else if link.head? = some '/' then some ⟨[], inFront (link.drop 1) pending, g.count + 1⟩
            else some ⟨g.resolved, inFront link pending, g.count + 1⟩
    else if ciMetadataSafe h cursor (if pending = [] then kind else .directory) none then
      some { g with resolved := g.resolved ++ [component], pending }
    else none

/-- The loop ends with so many links, and with the names resolved unless it returns 1. -/
inductive Ends (h : Host) (root : Str) (kind : Kind) : Going → ℕ → Option (List Str) → Prop
  | done {resolved : List Str} {count : ℕ} :
    Ends h root kind ⟨resolved, [], count⟩ count (some resolved)
  | refused {g : Going} (hpending : g.pending ≠ []) (hturn : turn h root kind g = none) :
      Ends h root kind g g.count none
  | next {g g' : Going} {count : ℕ} {r : Option (List Str)} (hpending : g.pending ≠ [])
      (hturn : turn h root kind g = some g') (hrest : Ends h root kind g' count r) :
      Ends h root kind g count r

/-! ### The names of a text -/

section Names

variable {h : Host} {root pending link : Str} {kind : Kind} {resolved names : List Str}
  {follow : List Str → List Str → Option (List Str)}

lemma splitOn_ne_nil : pending.splitOn '/' ≠ [] := List.splitOnP_ne_nil _ _

lemma splitOn_eq_blank : pending.splitOn '/' = [[]] ↔ pending = [] := by
  constructor
  · intro h
    have hjoin : List.intercalate ['/'] (pending.splitOn '/') = pending :=
      List.intercalate_splitOn '/'
    rw [h] at hjoin
    exact hjoin.symm
  · rintro rfl
    rfl

lemma namesOf_splitOn : namesOf (pending.splitOn '/') = [] ↔ pending = [] := by
  unfold namesOf
  split
  · rename_i hblank
    exact iff_of_true rfl (splitOn_eq_blank.mp hblank)
  · rename_i hblank
    exact iff_of_false splitOn_ne_nil fun h => hblank (splitOn_eq_blank.mpr h)

/-- A text without letters has no names for the loop. -/
lemma resolveLoop_namesOf :
    resolveLoop h root kind follow resolved (namesOf names) =
      resolveLoop h root kind follow resolved names := by
  unfold namesOf
  split
  · rename_i hblank
    rw [hblank, resolveLoop, resolveLoop, if_pos ⟨rfl, rfl⟩]
  · rfl

lemma behind_length (hpending : pending ≠ []) : (behind pending).length < pending.length := by
  have hlength := List.length_dropWhile_le (· != '/') pending
  have hpos := List.length_pos_of_ne_nil hpending
  unfold behind
  rw [List.length_drop]
  omega

/-- The first name of a text, and the names behind it. -/
lemma splitOn_component (hpending : pending ≠ []) :
    ∃ rest, pending.splitOn '/' = componentOf pending :: rest ∧
      namesOf rest = namesOf ((behind pending).splitOn '/') ∧
      ¬ (componentOf pending = [] ∧ rest = []) := by
  unfold componentOf behind
  have hsplit : pending.takeWhile (· != '/') ++ pending.dropWhile (· != '/') = pending :=
    List.takeWhile_append_dropWhile
  have hfirst : '/' ∉ pending.takeWhile (· != '/') := fun hmem => by
    have := List.mem_takeWhile_imp hmem
    simp at this
  cases hrest : pending.dropWhile (· != '/') with
  | nil =>
    rw [hrest, List.append_nil] at hsplit
    rw [hsplit] at hfirst ⊢
    exact ⟨[], List.splitOn_eq_singleton hfirst, rfl, fun h => hpending h.1⟩
  | cons c rest =>
    obtain rfl : c = '/' := by
      have hstop :=
        List.head_dropWhile_not (· != '/') (l := pending)
          (by rw [hrest]; exact List.cons_ne_nil _ _)
      simpa [hrest] using hstop
    rw [hrest] at hsplit
    refine ⟨rest.splitOn '/', ?_, rfl, fun h => splitOn_ne_nil h.2⟩
    conv_lhs => rw [← hsplit]
    rw [List.splitOn_append_cons_self, List.splitOn_eq_singleton hfirst]
    rfl

/-- The names of a link and those behind it. -/
lemma splitOn_inFront :
    (inFront link pending).splitOn '/' = link.splitOn '/' ++ namesOf (pending.splitOn '/') := by
  unfold inFront
  by_cases hpending : pending = []
  · rw [if_pos hpending, namesOf_splitOn.mpr hpending, List.append_nil, List.append_nil]
  · rw [if_neg hpending, List.splitOn_append_cons_self, namesOf,
      if_neg fun h => hpending (splitOn_eq_blank.mp h)]

end Names

/-! ### The loop ends -/

section Ends

variable {h : Host} {root : Str} {kind : Kind}

/-- The turns up to the next link. -/
lemma ends_resolveLoop {follow : List Str → List Str → Option (List Str)} {count : ℕ}
    (hcount : count ≤ 40) (hlast : count = 40 → ∀ resolved pending, follow resolved pending = none)
    (hfollow : count < 40 → ∀ resolved pending, ∃ n ≤ 40,
      Ends h root kind ⟨resolved, pending, count + 1⟩ n (follow resolved (pending.splitOn '/')))
    (resolved : List Str) (pending : Str) :
    ∃ n ≤ 40, Ends h root kind ⟨resolved, pending, count⟩ n
      (resolveLoop h root kind follow resolved (pending.splitOn '/')) := by
  induction hlength :
      pending.length using Nat.strong_induction_on generalizing resolved pending with
  | _ length ih =>
  by_cases hpending : pending = []
  · rw [hpending]
    exact ⟨count, hcount, .done⟩
  have hshorter := behind_length hpending
  rw [hlength] at hshorter
  obtain ⟨rest, hsplit, hnames, hend⟩ := splitOn_component hpending
  obtain ⟨t, hturn⟩ : ∃ t, turn h root kind ⟨resolved, pending, count⟩ = t := ⟨_, rfl⟩
  -- how the function leaves the turn
  have hrefused : t = none → ∃ n ≤ 40, Ends h root kind ⟨resolved, pending, count⟩ n none := by
    rintro rfl
    exact ⟨count, hcount, .refused hpending hturn⟩
  have hwithin : ∀ resolved', t = some ⟨resolved', behind pending, count⟩ →
      ∃ n ≤ 40, Ends h root kind ⟨resolved, pending, count⟩ n
        (resolveLoop h root kind follow resolved' rest) := by
    rintro resolved' rfl
    obtain ⟨n, hn, hrest⟩ := ih _ hshorter resolved' (behind pending) rfl
    rw [← resolveLoop_namesOf, ← hnames, resolveLoop_namesOf] at hrest
    exact ⟨n, hn, .next hpending hturn hrest⟩
  have hlink : ∀ resolved' link, ¬ 40 < count + 1 →
      t = some ⟨resolved', inFront link (behind pending), count + 1⟩ →
      ∃ n ≤ 40, Ends h root kind ⟨resolved, pending, count⟩ n
        (follow resolved' (link.splitOn '/' ++ namesOf rest)) := by
    rintro resolved' link hlimit rfl
    obtain ⟨n, hn, hrest⟩ := hfollow (by omega) resolved' (inFront link (behind pending))
    rw [splitOn_inFront, ← hnames] at hrest
    exact ⟨n, hn, .next hpending hturn hrest⟩
  have hkind : namesOf rest = [] ↔ behind pending = [] := by rw [hnames, namesOf_splitOn]
  have hstep := hturn
  unfold turn at hstep
  dsimp only at hstep
  rw [hsplit, resolveLoop, if_neg hend]
  by_cases hskip : componentOf pending = [] ∨ componentOf pending = ['.']
  · rw [if_pos hskip] at hstep ⊢
    exact hwithin resolved hstep.symm
  rw [if_neg hskip] at hstep ⊢
  by_cases hup : componentOf pending = ['.', '.']
  · rw [if_pos hup] at hstep ⊢
    by_cases hresolved : resolved = []
    · rw [if_pos hresolved] at hstep ⊢
      exact hrefused hstep.symm
    · rw [if_neg hresolved] at hstep ⊢
      exact hwithin _ hstep.symm
  rw [if_neg hup] at hstep ⊢
  by_cases hline : '\n' ∈ componentOf pending ∨ '\r' ∈ componentOf pending
  · rw [if_pos hline] at hstep ⊢
    exact hrefused hstep.symm
  rw [if_neg hline] at hstep ⊢
  dsimp only
  by_cases hislink : isLink h (cursorOf root (resolved ++ [componentOf pending])) = true
  · rw [if_pos hislink] at hstep ⊢
    cases hinfo : ciStat h (cursorOf root (resolved ++ [componentOf pending])) with
    | none =>
      rw [hinfo] at hstep
      exact hrefused hstep.symm
    | some info =>
      rw [hinfo] at hstep
      dsimp only at hstep
      cases htext :
          (readlink h (cursorOf root (resolved ++ [componentOf pending]))).map captured with
      | none =>
        rw [htext] at hstep
        refine hrefused ?_
        split at hstep
        · exact hstep.symm
        · split at hstep
          · exact hstep.symm
          · exact hstep.symm
      | some link =>
        rw [htext] at hstep
        dsimp only at hstep ⊢
        by_cases howned : ¬ (info.uid = 0 ∧ info.gid = 0)
        · rw [if_pos howned] at hstep ⊢
          exact hrefused hstep.symm
        rw [if_neg howned] at hstep ⊢
        by_cases hlimit : 40 < count + 1
        · -- the link after the last one
          rw [if_pos hlimit] at hstep
          have hnone : ∀ resolved names, follow resolved names = none := hlast (by omega)
          rw [hnone, hnone]
          split
          · exact hrefused hstep.symm
          · split
            · exact hrefused hstep.symm
            · exact hrefused hstep.symm
        rw [if_neg hlimit] at hstep
        by_cases htextOk : link = [] ∨ '\n' ∈ link ∨ '\r' ∈ link
        · rw [if_pos htextOk] at hstep ⊢
          exact hrefused hstep.symm
        rw [if_neg htextOk] at hstep ⊢
        by_cases habsolute : link.head? = some '/'
        · rw [if_pos habsolute] at hstep ⊢
          exact hlink [] (link.drop 1) hlimit hstep.symm
        · rw [if_neg habsolute] at hstep ⊢
          exact hlink resolved link hlimit hstep.symm
  · rw [if_neg hislink] at hstep ⊢
    rw [if_congr hkind rfl rfl]
    by_cases hsafe : ciMetadataSafe h (cursorOf root (resolved ++ [componentOf pending]))
        (if behind pending = [] then kind else .directory) none = true
    · rw [if_pos hsafe] at hstep ⊢
      exact hwithin _ hstep.symm
    · rw [if_neg hsafe] at hstep ⊢
      exact hrefused hstep.symm

/-- **The loop ends**, with not more than forty links. -/
lemma ends_resolveLinks (limit : ℕ) (hlimit : limit ≤ 40) (resolved : List Str) (pending : Str) :
    ∃ n ≤ 40, Ends h root kind ⟨resolved, pending, 40 - limit⟩ n
      (resolveLinks h root kind limit resolved (pending.splitOn '/')) := by
  induction limit generalizing resolved pending with
  | zero =>
    exact ends_resolveLoop le_rfl (fun _ _ _ => rfl) (fun h => absurd h (lt_irrefl _))
      resolved pending
  | succ limit ih =>
    refine ends_resolveLoop (Nat.sub_le _ _) (fun h => by omega) (fun _ resolved pending => ?_)
      resolved pending
    have hcount : 40 - (limit + 1) + 1 = 40 - limit := by omega
    rw [hcount]
    exact ih (Nat.le_of_succ_le hlimit) resolved pending

end Ends

end Pxeos.CloudInit
