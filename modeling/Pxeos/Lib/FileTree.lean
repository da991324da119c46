import Mathlib.Data.List.Infix
import Pxeos.Lib.Shell

/-!
# Trees of files

Directories, files and symbolic links.  A path is resolved name by name, as in a process that has
some directory for its root: a link that begins with a slash starts again at the root, and above the
root there is the root.  A walk is *confined* if it never goes above the root at all; it then stays
below the root, and it is what a process with this root would do.
-/

namespace Pxeos.Lib

/-- What is at a path. -/
inductive Node (M : Type) where
  | directory (info : M)
  | file (info : M)
  | link (info : M) (text : Str)
  /-- A device, a socket or a pipe. -/
  | other (info : M)
  deriving Repr

namespace Node

variable {M : Type}

def info : Node M → M
  | directory info => info
  | file info => info
  | link info _ => info
  | other info => info

def isDirectory : Node M → Bool
  | directory _ => true
  | _ => false

def isFile : Node M → Bool
  | file _ => true
  | _ => false

def isLink : Node M → Bool
  | link _ _ => true
  | _ => false

end Node

/-- The nodes of a tree, by the names that lead to them from its top through directories. -/
structure FileTree (M : Type) where
  find : List Str → Option (Node M)
  top : ∃ info, find [] = some (.directory info)
  parent : ∀ p name node, find (p ++ [name]) = some node → ∃ info, find p = some (.directory info)

/-- The node that a list of entries has at a path. -/
def findIn {M : Type} (entries : List (List Str × Node M)) (p : List Str) : Option (Node M) :=
  (entries.find? (·.1 == p)).map (·.2)

/-- A tree given by its entries. -/
def FileTree.ofEntries {M : Type} (entries : List (List Str × Node M))
    (htop : (findIn entries []).any Node.isDirectory = true)
    (hparent : (entries.all fun e => e.1 == [] ||
      (findIn entries e.1.dropLast).any Node.isDirectory) = true) :
    FileTree M where
  find := findIn entries
  top := by
    obtain ⟨node, hfind, hnode⟩ := (Option.any_eq_true _ _).mp htop
    cases node with
    | directory info => exact ⟨info, hfind⟩
    | _ => cases hnode
  parent := by
    intro p name node hfind
    obtain ⟨e, he, -⟩ := Option.map_eq_some_iff.mp hfind
    have hpath : e.1 = p ++ [name] := by simpa using List.find?_some he
    have hall := List.all_eq_true.mp hparent e (List.mem_of_find?_eq_some he)
    rw [hpath, List.dropLast_concat, Bool.or_eq_true, beq_iff_eq] at hall
    have hdir := hall.resolve_left (by simp)
    cases hnode : findIn entries p with
    | none =>
      rw [hnode] at hdir
      cases hdir
    | some node =>
      rw [hnode] at hdir
      cases node with
      | directory info => exact ⟨info, rfl⟩
      | _ => cases hdir

/-- A name that an entry of a directory can have. -/
def IsEntry (name : Str) : Prop := name ≠ [] ∧ name ≠ ['.'] ∧ name ≠ ['.', '.'] ∧ '/' ∉ name

namespace FileTree

variable {M : Type} (t : FileTree M)

def isDirectory (p : List Str) : Bool := (t.find p).any Node.isDirectory

/-- Some names from a path on; `follow` goes on with the names of a link. -/
def walkFrom (root : List Str) (follow : List Str → List Str → Option (List Str)) :
    List Str → List Str → Option (List Str)
  | p, [] => some p
  | p, name :: names =>
    if name = [] then walkFrom root follow p names
    else if t.isDirectory p = false then none
    else if name = ['.'] then walkFrom root follow p names
    else if name = ['.', '.'] then
      walkFrom root follow (if p = root then root else p.dropLast) names
    else match t.find (p ++ [name]) with
      | none => none
      | some (.link _ text) =>
        follow (if text.head? = some '/' then root else p) (text.splitOn '/' ++ names)
      | some _ => walkFrom root follow (p ++ [name]) names

/-- Where some names lead from a path on, with no more than `n` links. -/
def walk (root : List Str) : ℕ → List Str → List Str → Option (List Str)
  | 0 => t.walkFrom root fun _ _ => none
  | n + 1 => t.walkFrom root (walk root n)

/-- **A confined walk** with `n` links: the directories that are entered on the way, and the links
that are followed, have a property, and no name leads above the root. -/
inductive Confined (root : List Str) (entered : List Str → Prop) (followed : M → Prop) :
    ℕ → List Str → List Str → List Str → Prop
  | done {p : List Str} : Confined root entered followed 0 p [] p
  | skip {n : ℕ} {p names q : List Str} (h : Confined root entered followed n p names q) :
      Confined root entered followed n p ([] :: names) q
  | here {n : ℕ} {p names q : List Str} (h : Confined root entered followed n p names q) :
      Confined root entered followed n p (['.'] :: names) q
  | up {n : ℕ} {p names q : List Str} {name : Str}
      (h : Confined root entered followed n (root ++ p) names q) :
      Confined root entered followed n (root ++ p ++ [name]) (['.', '.'] :: names) q
  | enter {n : ℕ} {p names q : List Str} {name : Str} {node : Node M} (hname : IsEntry name)
      (hfind : t.find (p ++ [name]) = some node)
      (hlink : node.isLink = false) (hentered : (∃ next ∈ names, next ≠ []) → entered (p ++ [name]))
      (h : Confined root entered followed n (p ++ [name]) names q) :
          Confined root entered followed n p (name :: names) q
  | follow {n : ℕ} {p names q : List Str} {name text : Str} {info : M} (hname : IsEntry name)
      (hfind : t.find (p ++ [name]) = some (.link info text)) (hfollowed : followed info)
      (h : Confined root entered followed n (if text.head? = some '/' then root else p)
        (text.splitOn '/' ++ names) q) :
      Confined root entered followed (n + 1) p (name :: names) q

section Walk

variable {t} {root p q : List Str} {names : List Str}

lemma walkFrom_nil (follow : List Str → List Str → Option (List Str)) :
    t.walkFrom root follow p [] = some p := rfl

lemma walkFrom_empty (follow : List Str → List Str → Option (List Str)) :
    t.walkFrom root follow p ([] :: names) = t.walkFrom root follow p names := by
  rw [walkFrom, if_pos rfl]

/-- The next link, or the end of the walk. -/
lemma walkFrom_entry {follow : List Str → List Str → Option (List Str)} {name : Str}
    (hname : IsEntry name) (hdir : t.isDirectory p = true) :
    t.walkFrom root follow p (name :: names) = match t.find (p ++ [name]) with
      | none => none
      | some (.link _ text) =>
        follow (if text.head? = some '/' then root else p) (text.splitOn '/' ++ names)
      | some _ => t.walkFrom root follow (p ++ [name]) names := by
  rw [walkFrom, if_neg hname.1, if_neg (by rw [hdir]; decide), if_neg hname.2.1, if_neg hname.2.2.1]

lemma walkFrom_plain {follow : List Str → List Str → Option (List Str)} {name : Str} {node : Node M}
    (hname : IsEntry name) (hfind : t.find (p ++ [name]) = some node)
    (hlink : node.isLink = false) :
    t.walkFrom root follow p (name :: names) = t.walkFrom root follow (p ++ [name]) names := by
  obtain ⟨info, hparent⟩ := t.parent _ _ _ hfind
  rw [walkFrom_entry hname (by rw [isDirectory, hparent]; rfl), hfind]
  cases node with
  | link => cases hlink
  | directory => rfl
  | file => rfl
  | other => rfl

/-- Names of nodes that are no links lead to these. -/
lemma walkFrom_names {follow : List Str → List Str → Option (List Str)}
    (hnames : ∀ name ∈ names, IsEntry name)
    (hplain : ∀ pre, pre <+: names → pre ≠ [] → ∃ node, t.find (p ++ pre) = some node ∧
      node.isLink = false) :
    t.walkFrom root follow p names = some (p ++ names) := by
  induction names generalizing p with
  | nil => rw [walkFrom_nil, List.append_nil]
  | cons name names ih =>
    obtain ⟨node, hfind, hlink⟩ :=
      hplain [name] (List.cons_prefix_cons.mpr ⟨rfl, List.nil_prefix⟩) (List.cons_ne_nil _ _)
    rw [walkFrom_plain (hnames name List.mem_cons_self) hfind hlink,
      ih fun n hn => hnames n (List.mem_cons_of_mem _ hn)]
    · rw [List.append_assoc]
      rfl
    · intro pre hpre _
      rw [List.append_assoc]
      exact hplain (name :: pre) (List.cons_prefix_cons.mpr ⟨rfl, hpre⟩) (List.cons_ne_nil _ _)

/-- Names of nodes that are no links behind a walk. -/
lemma walkFrom_append {follow : List Str → List Str → Option (List Str)} {more : List Str}
    (hmore : ∀ name ∈ more, IsEntry name)
    (hplain : ∀ pre, pre <+: more → pre ≠ [] → ∃ node, t.find (q ++ pre) = some node ∧
      node.isLink = false)
    (hfollow : ∀ p names, follow p names = some q → follow p (names ++ more) = some (q ++ more))
    (h : t.walkFrom root follow p names = some q) :
    t.walkFrom root follow p (names ++ more) = some (q ++ more) := by
  induction names generalizing p with
  | nil =>
    obtain rfl := Option.some.inj h
    exact walkFrom_names hmore hplain
  | cons name names ih =>
    rw [walkFrom] at h
    rw [List.cons_append, walkFrom]
    by_cases hempty : name = []
    · rw [if_pos hempty] at h ⊢
      exact ih h
    rw [if_neg hempty] at h ⊢
    by_cases hdir : t.isDirectory p = false
    · rw [if_pos hdir] at h
      cases h
    rw [if_neg hdir] at h ⊢
    by_cases hhere : name = ['.']
    · rw [if_pos hhere] at h ⊢
      exact ih h
    rw [if_neg hhere] at h ⊢
    by_cases hup : name = ['.', '.']
    · rw [if_pos hup] at h ⊢
      exact ih h
    rw [if_neg hup] at h ⊢
    cases hfind : t.find (p ++ [name]) with
    | none =>
      rw [hfind] at h
      cases h
    | some node =>
      rw [hfind] at h
      cases node with
      | link info text =>
        dsimp only at h ⊢
        rw [← List.append_assoc]
        exact hfollow _ _ h
      | directory => exact ih h
      | file => exact ih h
      | other => exact ih h

lemma walk_append {n : ℕ} {more : List Str} (hmore : ∀ name ∈ more, IsEntry name)
    (hplain : ∀ pre, pre <+: more → pre ≠ [] → ∃ node, t.find (q ++ pre) = some node ∧
      node.isLink = false)
    (h : t.walk root n p names = some q) : t.walk root n p (names ++ more) = some (q ++ more) := by
  induction n generalizing p names with
  | zero => exact walkFrom_append hmore hplain (fun p names hnone => by cases hnone) h
  | succ n ih => exact walkFrom_append hmore hplain (fun p names hwalk => ih hwalk) h

end Walk

section Confined

variable {t} {root p q names : List Str} {entered : List Str → Prop} {followed : M → Prop} {n : ℕ}

/-- A name of nothing changes nothing. -/
lemma Confined.snoc_nil (h : t.Confined root entered followed n p names q) :
    t.Confined root entered followed n p (names ++ [[]]) q := by
  induction h with
  | done => exact .skip .done
  | skip _ ih => exact .skip ih
  | here _ ih => exact .here ih
  | up _ ih => exact .up ih
  | enter hname hfind hlink hentered _ ih =>
    refine .enter hname hfind hlink (fun hnext => hentered ?_) ih
    obtain ⟨next, hmem, hne⟩ := hnext
    refine ⟨next, (List.mem_append.mp hmem).resolve_right
      fun hnil => hne (List.mem_singleton.mp hnil), hne⟩
  | follow hname hfind hfollowed _ ih =>
    exact .follow hname hfind hfollowed (by rw [List.append_assoc] at ih; exact ih)

/-- Where a confined walk leads, any process with this root is led. -/
lemma Confined.walk (hentered : ∀ p, entered p → t.isDirectory p = true)
    (hroot : t.isDirectory root = true) {limit : ℕ} (hn : n ≤ limit)
    (hp : (∃ next ∈ names, next ≠ []) → t.isDirectory p = true)
    (h : t.Confined root entered followed n p names q) :
    t.walk root limit p names = some q := by
  induction h generalizing limit with
  | done =>
    cases limit with
    | zero => rfl
    | succ => rfl
  | skip _ ih =>
    have hrest := ih hn fun ⟨next, hmem, hne⟩ => hp ⟨next, List.mem_cons_of_mem _ hmem, hne⟩
    cases limit with
    | zero => exact (walkFrom_empty _).trans hrest
    | succ => exact (walkFrom_empty _).trans hrest
  | @here n p names q _ ih =>
    have hdir := hp ⟨['.'], List.mem_cons_self, by decide⟩
    have hrest := ih hn fun _ => hdir
    have hstep : ∀ follow, t.walkFrom root follow p (['.'] :: names) =
        t.walkFrom root follow p names := fun follow => by
      rw [walkFrom, if_neg (by decide), if_neg (by rw [hdir]; decide), if_pos rfl]
    cases limit with
    | zero => exact (hstep _).trans hrest
    | succ => exact (hstep _).trans hrest
  | @up n p names q name _ ih =>
    have hdir := hp ⟨['.', '.'], List.mem_cons_self, by decide⟩
    have hup : t.isDirectory (root ++ p) = true := by
      obtain ⟨node, hfind⟩ : ∃ node, t.find (root ++ p ++ [name]) = some node := by
        unfold isDirectory at hdir
        cases hfind : t.find (root ++ p ++ [name]) with
        | none =>
          rw [hfind] at hdir
          cases hdir
        | some node => exact ⟨node, rfl⟩
      obtain ⟨info, hparent⟩ := t.parent _ _ _ hfind
      rw [isDirectory, hparent]
      rfl
    have hrest := ih hn fun _ => hup
    have hne : root ++ p ++ [name] ≠ root := by
      intro heq
      have := congrArg List.length heq
      simp at this
    have hstep : ∀ follow, t.walkFrom root follow (root ++ p ++ [name]) (['.', '.'] :: names) =
        t.walkFrom root follow (root ++ p) names :=
      fun follow => by
        rw [walkFrom, if_neg (by decide), if_neg (by rw [hdir]; decide), if_neg (by decide),
          if_pos rfl, if_neg hne, List.dropLast_concat]
    cases limit with
    | zero => exact (hstep _).trans hrest
    | succ => exact (hstep _).trans hrest
  | enter hname hfind hlink hdirectory _ ih =>
    have hrest := ih hn fun hnext => hentered _ (hdirectory hnext)
    cases limit with
    | zero => exact (walkFrom_plain hname hfind hlink).trans hrest
    | succ => exact (walkFrom_plain hname hfind hlink).trans hrest
  | @follow n p names q name text info hname hfind _ _ ih =>
    obtain ⟨info', hparent⟩ := t.parent _ _ _ hfind
    have hdir : t.isDirectory p = true := by
      rw [isDirectory, hparent]
      rfl
    cases limit with
    | zero => exact absurd hn (Nat.not_succ_le_zero n)
    | succ limit =>
      have hrest := ih (Nat.le_of_succ_le_succ hn) fun _ => by
        split
        · exact hroot
        · exact hdir
      show t.walkFrom root (t.walk root limit) p (name :: names) = some q
      rw [walkFrom_entry hname hdir, hfind]
      exact hrest

/-- A confined walk stays below the root. -/
lemma Confined.stays (h : t.Confined root entered followed n p names q) (hp : root <+: p) :
    root <+: q := by
  induction h with
  | done => exact hp
  | skip _ ih => exact ih hp
  | here _ ih => exact ih hp
  | up _ ih => exact ih (List.prefix_append _ _)
  | enter _ _ _ _ _ ih => exact ih (hp.trans (List.prefix_append _ _))
  | follow _ _ _ _ ih =>
    refine ih ?_
    split
    · exact List.prefix_rfl
    · exact hp

end Confined

end FileTree

end Pxeos.Lib
