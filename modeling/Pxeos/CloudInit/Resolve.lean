import Pxeos.Lib.FileTree
import Pxeos.Linux.Transaction

/-!
# Paths of the target

`rootpxe_ci_resolve_target` resolves a path of the target name by name, on the tree of files of the
host: no name leads above the root of the target, a link starts again at that root or in its own
directory, and all that is entered has safe metadata.
-/

namespace Pxeos.CloudInit

open Pxeos.Lib Pxeos.Linux

abbrev Host := FileTree Metadata

/-! ### What the shell sees at a path -/

/-- The node that the kernel finds at a path. -/
def resolvePath (h : Host) (path : Str) : Option (List Str) := h.walk [] 40 [] (path.splitOn '/')

def stat (h : Host) (path : Str) : Option (Node Metadata) := (resolvePath h path).bind h.find

/-- What is at a path, without following a link at its end. -/
def lstat (h : Host) (path : Str) : Option (Node Metadata) :=
  match (path.splitOn '/').getLast? with
  | none => none
  | some name =>
    if name = [] ∨ name = ['.'] ∨ name = ['.', '.'] then stat h path
    else (h.walk [] 40 [] (path.splitOn '/').dropLast).bind fun p => h.find (p ++ [name])

/-- `[[ -L path ]]`. -/
def isLink (h : Host) (path : Str) : Bool := (lstat h path).any Node.isLink

/-- `[[ -d path ]]`. -/
def isDir (h : Host) (path : Str) : Bool := (stat h path).any Node.isDirectory

/-- `[[ -f path ]]`. -/
def isFile (h : Host) (path : Str) : Bool := (stat h path).any Node.isFile

/-- `rootpxe_ci_stat`. -/
def ciStat (h : Host) (path : Str) : Option Metadata := (lstat h path).map Node.info

def readlink (h : Host) (path : Str) : Option Str :=
  match lstat h path with
  | some (.link _ text) => some text
  | _ => none

inductive Kind where
  | directory
  | file
  deriving DecidableEq, Repr

/-- The conditions on what `stat` prints; `%a` has three digits from `0100` on. -/
def metadataOk (m : Metadata) (kind : Kind) (exact : Option ℕ) : Bool :=
  m.uid == 0 && m.gid == 0 && 0o100 ≤ m.mode && m.mode ≤ 0o7777 && m.mode &&& 0o022 == 0 &&
    exact.all (· == m.mode) &&
    (kind == .directory || m.links == 1)

/-- `rootpxe_ci_metadata_safe`. -/
def ciMetadataSafe (h : Host) (path : Str) (kind : Kind) (exact : Option ℕ) : Bool :=
  !isLink h path && (match kind with | .directory => isDir h path | .file => isFile h path) &&
    (ciStat h path).any fun m => metadataOk m kind exact

/-! ### The loop -/

/-- `"$root/$link/…"`. -/
def cursorOf (root : Str) (names : List Str) : Str := root ++ names.flatMap ('/' :: ·)

/-- `${pending:+/$pending}`: a text that is empty has no names. -/
def namesOf (pending : List Str) : List Str := if pending = [[]] then [] else pending

/-- The loop of `rootpxe_ci_resolve_target` up to the next link; `pending` is between its
slashes. -/
def resolveLoop (h : Host) (root : Str) (kind : Kind)
    (follow : List Str → List Str → Option (List Str)) :
    List Str → List Str → Option (List Str)
  | resolved, [] => some resolved
  | resolved, component :: pending =>
    if component = [] ∧ pending = [] then some resolved
    else if component = [] ∨ component = ['.'] then resolveLoop h root kind follow resolved pending
    else if component = ['.', '.'] then
      if resolved = [] then none else resolveLoop h root kind follow resolved.dropLast pending
    else if '\n' ∈ component ∨ '\r' ∈ component then none
    else
      let cursor := cursorOf root (resolved ++ [component])
      if isLink h cursor then
        match ciStat h cursor, (readlink h cursor).map captured with
        | some info, some link =>
          if ¬ (info.uid = 0 ∧ info.gid = 0) then none
          else if link = [] ∨ '\n' ∈ link ∨ '\r' ∈ link then none
          else if link.head? = some '/' then
            follow [] ((link.drop 1).splitOn '/' ++ namesOf pending)
          else follow resolved (link.splitOn '/' ++ namesOf pending)
        | _, _ => none
      else if ciMetadataSafe h cursor (if namesOf pending = [] then kind else .directory) none then
        resolveLoop h root kind follow (resolved ++ [component]) pending
      else none

/-- The loop, with the number of links that it may still follow. -/
def resolveLinks (h : Host) (root : Str) (kind : Kind) : ℕ → List Str → List Str → Option (List Str)
  | 0 => resolveLoop h root kind fun _ _ => none
  | count + 1 => resolveLoop h root kind (resolveLinks h root kind count)

/-- `rootpxe_ci_resolve_target`. -/
def ciResolveTarget (h : Host) (root requested : Str) (kind : Kind) : Option Str :=
  if requested.head? = some '/' && isDir h root && !isLink h root &&
    ciMetadataSafe h root .directory none then
    match resolveLinks h root kind 40 [] ((requested.drop 1).splitOn '/') with
    | none => none
    | some resolved =>
      if ciMetadataSafe h (cursorOf root resolved) kind none then
        some (cursorOf root resolved) else none
  else none

/-! ### What the checks see -/

/-- A directory or a file with safe metadata. -/
def Safe (h : Host) (kind : Kind) (p : List Str) : Prop :=
  ∃ info, h.find p = some (match kind with | .directory => .directory info | .file => .file info) ∧
    metadataOk info kind none = true

/-- The texts of links as the kernel and `readlink` have them. -/
def PlainLinks (h : Host) : Prop :=
  ∀ p info text, h.find p = some (.link info text) → '\x00' ∉ text ∧ text.getLast? ≠ some '\n'

section Checks

variable {h : Host} {path root : Str} {kind : Kind} {p names : List Str} {name : Str}

lemma stat_of_lstat {node : Node Metadata} (hlstat : lstat h path = some node)
    (hlink : node.isLink = false) :
    stat h path = some node := by
  unfold lstat at hlstat
  split at hlstat
  · cases hlstat
  · rename_i name hlast
    split at hlstat
    · exact hlstat
    · rename_i hspecial
      rw [not_or, not_or] at hspecial
      obtain ⟨p, hp, hfind⟩ := Option.bind_eq_some_iff.mp hlstat
      obtain ⟨init, hsplit⟩ := List.getLast?_eq_some_iff.mp hlast
      have hslash : '/' ∉ name := by
        intro hmem
        have hin : name ∈ path.splitOn '/' := by rw [hsplit]; simp
        have := not_of_mem_splitOnP hin '/' hmem
        simp at this
      rw [hsplit, List.dropLast_concat] at hp
      have hwalk : h.walk [] 40 [] (init ++ [name]) = some (p ++ [name]) := by
        refine FileTree.walk_append ?_ ?_ hp
        · intro n hn
          rw [List.mem_singleton.mp hn]
          exact ⟨hspecial.1, hspecial.2.1, hspecial.2.2, hslash⟩
        · intro pre hpre hne
          obtain rfl : pre = [name] := by
            cases pre with
            | nil => exact absurd rfl hne
            | cons c pre =>
              obtain ⟨rfl, hnil⟩ := List.cons_prefix_cons.mp hpre
              rw [List.prefix_nil.mp hnil]
          exact ⟨node, hfind, hlink⟩
      unfold stat resolvePath
      rw [hsplit, hwalk]
      exact hfind

lemma metadataSafe_spec (hsafe : ciMetadataSafe h path kind none = true) :
    ∃ p, resolvePath h path = some p ∧ Safe h kind p := by
  unfold ciMetadataSafe at hsafe
  rw [Bool.and_eq_true, Bool.and_eq_true, Bool.not_eq_true'] at hsafe
  obtain ⟨⟨hlink, hkind⟩, hinfo⟩ := hsafe
  unfold isLink at hlink
  unfold ciStat at hinfo
  cases hlstat : lstat h path with
  | none =>
    rw [hlstat] at hinfo
    cases hinfo
  | some node =>
    rw [hlstat] at hlink hinfo
    have hstat := stat_of_lstat hlstat hlink
    have hresolve := hstat
    unfold stat at hresolve
    obtain ⟨p, hp, hfind⟩ := Option.bind_eq_some_iff.mp hresolve
    refine ⟨p, hp, node.info, ?_, hinfo⟩
    unfold isDir isFile at hkind
    rw [hstat] at hkind
    rw [hfind]
    cases kind with
    | directory =>
      cases node with
      | directory => rfl
      | _ => cases hkind
    | file =>
      cases node with
      | file => rfl
      | _ => cases hkind

lemma lstat_of_metadataSafe (hsafe : ciMetadataSafe h path kind none = true) :
    ∃ node, lstat h path = some node ∧ node.isLink = false := by
  unfold ciMetadataSafe isLink ciStat at hsafe
  cases hlstat : lstat h path with
  | none =>
    rw [hlstat] at hsafe
    simp at hsafe
  | some node =>
    rw [hlstat] at hsafe
    refine ⟨node, rfl, ?_⟩
    rw [Bool.and_eq_true, Bool.and_eq_true, Bool.not_eq_true'] at hsafe
    exact hsafe.1.1

lemma splitOn_cursor (hnames : ∀ name ∈ names, '/' ∉ name) :
    (cursorOf root names).splitOn '/' = root.splitOn '/' ++ names := by
  induction names using List.reverseRecOn with
  | nil => simp [cursorOf]
  | append_singleton names name ih =>
    have hcursor : cursorOf root (names ++ [name]) = cursorOf root names ++ '/' :: name := by
      simp [cursorOf]
    rw [hcursor, List.splitOn_append_cons_self, ih fun n hn => hnames n (List.mem_append_left _ hn),
      List.splitOn_eq_singleton (hnames name (by simp)), List.append_assoc]

/-- What is below the root of the target. -/
lemma lstat_cursor (hroot : resolvePath h root = some p) (hentries : ∀ n ∈ names, IsEntry n)
    (hname : IsEntry name)
    (hdirs : ∀ pre, pre <+: names → pre ≠ [] → ∃ node, h.find (p ++ pre) = some node ∧
      node.isLink = false) :
    lstat h (cursorOf root (names ++ [name])) = h.find (p ++ names ++ [name]) := by
  have hall : ∀ n ∈ names ++ [name], '/' ∉ n := by
    intro n hn
    rcases List.mem_append.mp hn with hn | hn
    · exact (hentries n hn).2.2.2
    · rw [List.mem_singleton.mp hn]
      exact hname.2.2.2
  unfold lstat
  rw [splitOn_cursor hall, ← List.append_assoc, List.getLast?_concat, List.dropLast_concat]
  dsimp only
  rw [if_neg (by rw [not_or, not_or]; exact ⟨hname.1, hname.2.1, hname.2.2.1⟩),
    FileTree.walk_append hentries hdirs hroot]
  rfl

/-- What is safe at the cursor is safe below the root of the target. -/
lemma metadataSafe_cursor (hroot : resolvePath h root = some p) (hentries : ∀ n ∈ names, IsEntry n)
    (hname : IsEntry name)
    (hdirs : ∀ pre, pre <+: names → pre ≠ [] → ∃ node, h.find (p ++ pre) = some node ∧
      node.isLink = false)
    (hsafe : ciMetadataSafe h (cursorOf root (names ++ [name])) kind none = true) :
    Safe h kind (p ++ names ++ [name]) := by
  obtain ⟨q, hq, hsafeAt⟩ := metadataSafe_spec hsafe
  obtain ⟨node, hlstat, hlink⟩ := lstat_of_metadataSafe hsafe
  rw [lstat_cursor hroot hentries hname hdirs] at hlstat
  have hall : ∀ n ∈ names ++ [name], IsEntry n := by
    intro n hn
    rcases List.mem_append.mp hn with hn | hn
    · exact hentries n hn
    · rw [List.mem_singleton.mp hn]
      exact hname
  have hwalk : resolvePath h (cursorOf root (names ++ [name])) = some (p ++ (names ++ [name])) := by
    unfold resolvePath
    rw [splitOn_cursor fun n hn => (hall n hn).2.2.2]
    refine FileTree.walk_append hall (fun pre hpre hne => ?_) hroot
    rcases List.prefix_concat_iff.mp hpre with rfl | hpre
    · rw [← List.append_assoc]
      exact ⟨node, hlstat, hlink⟩
    · exact hdirs pre hpre hne
  rw [hq] at hwalk
  obtain rfl := Option.some.inj hwalk
  rwa [List.append_assoc]

end Checks

end Pxeos.CloudInit
