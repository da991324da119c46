import Pxeos.CloudInit.Turns

/-!
# The resolution is confined

What the loop finds, a process whose root is the root of the target finds too; no name leads above
that root, and all that is entered and followed has safe metadata.
-/

namespace Pxeos.CloudInit

open Pxeos.Lib Pxeos.Linux

/-! ### The invariant of the loop -/

/-- A link that belongs to root. -/
def Owned (m : Metadata) : Prop := m.uid = 0 ∧ m.gid = 0

/-- The walks of a target with root `R`. -/
abbrev Walk (h : Host) (R : List Str) : ℕ → List Str → List Str → List Str → Prop :=
  h.Confined R (Safe h .directory) Owned

/-- What has been resolved. -/
structure Reached (h : Host) (R resolved : List Str) : Prop where
  entries : ∀ n ∈ resolved, IsEntry n
  lines : ∀ n ∈ resolved, ¬ ('\n' ∈ n ∨ '\r' ∈ n)
  before : ∀ pre, pre <+: resolved → pre ≠ resolved → Safe h .directory (R ++ pre)

/-- What the loop may rely on. -/
structure Ready (h : Host) (R resolved pending : List Str) : Prop extends Reached h R resolved where
  slashes : ∀ n ∈ pending, '/' ∉ n
  here : namesOf pending ≠ [] → Safe h .directory (R ++ resolved)

section Loop

variable {h : Host} {root : Str} {R resolved pending : List Str} {kind : Kind} {component : Str}

lemma namesOf_cons {name : Str} {names : List Str} (h : ¬ (name = [] ∧ names = [])) :
    namesOf (name :: names) ≠ [] := by
  unfold namesOf
  rw [if_neg]
  · exact List.cons_ne_nil _ _
  · intro heq
    obtain ⟨rfl, rfl⟩ := List.cons.inj heq
    exact h ⟨rfl, rfl⟩

lemma namesOf_of_exists {names : List Str} (h : ∃ next ∈ names, next ≠ []) :
    namesOf names ≠ [] := by
  obtain ⟨next, hmem, hne⟩ := h
  unfold namesOf
  split
  · rename_i heq
    rw [heq] at hmem
    exact absurd (List.mem_singleton.mp hmem) hne
  · rintro rfl
    exact absurd hmem List.not_mem_nil

lemma splitOn_slash (rest : Str) : ('/' :: rest).splitOn '/' = [] :: rest.splitOn '/' := by
  show ([] ++ '/' :: rest).splitOn '/' = _
  rw [List.splitOn_append_cons_self]
  rfl

lemma slash_notMem_splitOn (text : Str) : ∀ n ∈ text.splitOn '/', '/' ∉ n := by
  intro n hn hmem
  have := not_of_mem_splitOnP hn '/' hmem
  simp at this

/-- The names behind a link. -/
lemma slash_notMem_behind {text : Str} (hpending : ∀ n ∈ pending, '/' ∉ n) :
    ∀ n ∈ text.splitOn '/' ++ namesOf pending, '/' ∉ n := by
  intro n hn
  rcases List.mem_append.mp hn with hn | hn
  · exact slash_notMem_splitOn text n hn
  · refine hpending n ?_
    unfold namesOf at hn
    split at hn
    · exact absurd hn List.not_mem_nil
    · exact hn

lemma Safe.node (hsafe : Safe h kind R) : ∃ node, h.find R = some node ∧ node.isLink = false := by
  obtain ⟨info, hfind, -⟩ := hsafe
  cases kind with
  | directory => exact ⟨_, hfind, rfl⟩
  | file => exact ⟨_, hfind, rfl⟩

lemma Safe.isDirectory (hsafe : Safe h .directory R) : h.isDirectory R = true := by
  obtain ⟨info, hfind, -⟩ := hsafe
  unfold FileTree.isDirectory
  rw [hfind]
  rfl

lemma Ready.nodes (hready : Ready h R resolved pending) (hne : namesOf pending ≠ []) :
    ∀ pre, pre <+: resolved → pre ≠ [] → ∃ node, h.find (R ++ pre) = some node ∧
      node.isLink = false := by
  intro pre hpre _
  by_cases heq : pre = resolved
  · rw [heq]
    exact (hready.here hne).node
  · exact (hready.before pre hpre heq).node

/-- The names behind the one that is taken. -/
lemma Ready.tail (hready : Ready h R resolved (component :: pending))
    (hne : namesOf (component :: pending) ≠ []) :
    Ready h R resolved pending :=
  ⟨hready.toReached, fun n hn => hready.slashes n (List.mem_cons_of_mem _ hn),
    fun _ => hready.here hne⟩

/-- The directory above. -/
lemma Ready.up (hready : Ready h R resolved (component :: pending)) (hresolved : resolved ≠ []) :
    Ready h R resolved.dropLast pending := by
  obtain ⟨init, c, rfl⟩ := (List.eq_nil_or_concat' resolved).resolve_left hresolved
  rw [List.dropLast_concat]
  have hproper : ∀ pre, pre <+: init → pre ≠ init ++ [c] := by
    rintro pre hpre rfl
    have := hpre.length_le
    simp at this
  refine ⟨⟨fun n hn => hready.entries n (List.mem_append_left _ hn),
    fun n hn => hready.lines n (List.mem_append_left _ hn), fun pre hpre _ => ?_⟩,
    fun n hn => hready.slashes n (List.mem_cons_of_mem _ hn), fun _ => ?_⟩
  · exact hready.before pre (hpre.trans (List.prefix_append _ _)) (hproper pre hpre)
  · exact hready.before init (List.prefix_append _ _) (hproper init List.prefix_rfl)

/-- A component that is no link. -/
lemma Ready.push (hready : Ready h R resolved (component :: pending))
    (hne : namesOf (component :: pending) ≠ []) (hentry : IsEntry component)
    (hline : ¬ ('\n' ∈ component ∨ '\r' ∈ component))
    (hsafe : namesOf pending ≠ [] → Safe h .directory (R ++ resolved ++ [component])) :
    Ready h R (resolved ++ [component]) pending := by
  refine ⟨⟨fun n hn => ?_, fun n hn => ?_, fun pre hpre hproper => ?_⟩,
    fun n hn => hready.slashes n (List.mem_cons_of_mem _ hn), fun hpending => ?_⟩
  · rcases List.mem_append.mp hn with hn | hn
    · exact hready.entries n hn
    · rw [List.mem_singleton.mp hn]
      exact hentry
  · rcases List.mem_append.mp hn with hn | hn
    · exact hready.lines n hn
    · rw [List.mem_singleton.mp hn]
      exact hline
  · rcases List.prefix_concat_iff.mp hpre with rfl | hpre
    · exact absurd rfl hproper
    · by_cases heq : pre = resolved
      · rw [heq]
        exact hready.here hne
      · exact hready.before pre hpre heq
  · rw [← List.append_assoc]
    exact hsafe hpending

/-- What the loop finds is reached by a confined walk. -/
lemma resolveLoop_confined (hlinks : PlainLinks h) (hroot : resolvePath h root = some R)
    (hsafe : Safe h .directory R) {follow : List Str → List Str → Option (List Str)} {limit : ℕ}
    (hfollow : ∀ resolved pending out, Ready h R resolved pending →
      follow resolved pending = some out → ∃ k, k + 1 ≤ limit ∧
        Walk h R k (R ++ resolved) pending (R ++ out) ∧ Reached h R out)
    {out : List Str} (hready : Ready h R resolved pending)
    (hloop : resolveLoop h root kind follow resolved pending = some out) :
    ∃ k ≤ limit, Walk h R k (R ++ resolved) pending (R ++ out) ∧ Reached h R out := by
  induction pending generalizing resolved with
  | nil =>
    obtain rfl := Option.some.inj hloop
    exact ⟨0, Nat.zero_le _, .done, hready.toReached⟩
  | cons component pending ih =>
    rw [resolveLoop] at hloop
    by_cases hend : component = [] ∧ pending = []
    · rw [if_pos hend] at hloop
      obtain rfl := Option.some.inj hloop
      obtain ⟨rfl, rfl⟩ := hend
      exact ⟨0, Nat.zero_le _, .skip .done, hready.toReached⟩
    rw [if_neg hend] at hloop
    have hne := namesOf_cons hend
    by_cases hskip : component = [] ∨ component = ['.']
    · rw [if_pos hskip] at hloop
      obtain ⟨k, hk, hwalk, hreached⟩ := ih (hready.tail hne) hloop
      rcases hskip with rfl | rfl
      · exact ⟨k, hk, .skip hwalk, hreached⟩
      · exact ⟨k, hk, .here hwalk, hreached⟩
    rw [if_neg hskip] at hloop
    by_cases hup : component = ['.', '.']
    · rw [if_pos hup] at hloop
      by_cases hresolved : resolved = []
      · rw [if_pos hresolved] at hloop
        cases hloop
      rw [if_neg hresolved] at hloop
      obtain ⟨k, hk, hwalk, hreached⟩ := ih (hready.up hresolved) hloop
      obtain ⟨init, c, rfl⟩ := (List.eq_nil_or_concat' resolved).resolve_left hresolved
      rw [List.dropLast_concat] at hwalk
      refine ⟨k, hk, ?_, hreached⟩
      rw [hup, ← List.append_assoc]
      exact .up hwalk
    rw [if_neg hup] at hloop
    rw [not_or] at hskip
    have hentry : IsEntry component :=
      ⟨hskip.1, hskip.2, hup, hready.slashes component List.mem_cons_self⟩
    by_cases hline : '\n' ∈ component ∨ '\r' ∈ component
    · rw [if_pos hline] at hloop
      cases hloop
    rw [if_neg hline] at hloop
    -- what is asked of the cursor is asked of the node below the root
    have hlstat := lstat_cursor hroot hready.entries hentry (hready.nodes hne)
    dsimp only at hloop
    split at hloop
    · rename_i hlink
      unfold isLink at hlink
      rw [hlstat] at hlink
      cases hfind : h.find (R ++ resolved ++ [component]) with
      | none =>
        rw [hfind] at hlink
        cases hlink
      | some node =>
        cases node with
        | directory | file | other =>
          rw [hfind] at hlink
          cases hlink
        | link info text =>
          obtain ⟨hnul, hlast⟩ := hlinks _ _ _ hfind
          have hcaptured : captured text = text := (captured_eq_iff hnul hlast).mpr ⟨0, by simp⟩
          have hinfo : ciStat h (cursorOf root (resolved ++ [component])) = some info := by
            unfold ciStat
            rw [hlstat, hfind]
            rfl
          have htext : (readlink h (cursorOf root (resolved ++ [component]))).map captured =
              some text := by
            unfold readlink
            rw [hlstat, hfind, Option.map_some, hcaptured]
          rw [hinfo, htext] at hloop
          dsimp only at hloop
          split at hloop
          · cases hloop
          rename_i howned
          rw [not_not] at howned
          split at hloop
          · cases hloop
          have hbehind : ∀ n ∈ text.splitOn '/' ++ namesOf pending, '/' ∉ n :=
            slash_notMem_behind fun n hn => hready.slashes n (List.mem_cons_of_mem _ hn)
          -- a pending text that is empty has no names, or one without letters
          have hpending : ∀ {k : ℕ} {p names : List Str},
              Walk h R k p (names ++ namesOf pending) (R ++ out) →
              Walk h R k p (names ++ pending) (R ++ out) := by
            intro k p names hwalk
            unfold namesOf at hwalk
            split at hwalk
            · rename_i hnil
              rw [List.append_nil] at hwalk
              rw [hnil]
              exact hwalk.snoc_nil
            · exact hwalk
          split at hloop
          · rename_i hslash
            obtain ⟨rest, rfl⟩ : ∃ rest, text = '/' :: rest := by
              cases text with
              | nil => cases hslash
              | cons c rest =>
                obtain rfl := Option.some.inj hslash
                exact ⟨rest, rfl⟩
            have hsplit := splitOn_slash rest
            have hnew : Ready h R [] (rest.splitOn '/' ++ namesOf pending) := by
              have hnone : ∀ n ∈ ([] : List Str), False := fun n hn => List.not_mem_nil hn
              refine ⟨⟨fun n hn => (hnone n hn).elim, fun n hn => (hnone n hn).elim,
                fun pre hpre hproper => ?_⟩,
                fun n hn => hbehind n ?_, fun _ => ?_⟩
              · exact absurd (List.prefix_nil.mp hpre) hproper
              · rw [hsplit]
                exact List.mem_cons_of_mem _ hn
              · rw [List.append_nil]
                exact hsafe
            obtain ⟨k, hk, hwalk, hreached⟩ := hfollow _ _ _ hnew hloop
            rw [List.append_nil] at hwalk
            refine ⟨k + 1, hk, .follow hentry hfind howned ?_, hreached⟩
            rw [if_pos (show ('/' :: rest).head? = some '/' from rfl), hsplit]
            exact .skip (hpending hwalk)
          · rename_i hslash
            have hnew : Ready h R resolved (text.splitOn '/' ++ namesOf pending) :=
              ⟨hready.toReached, hbehind, fun _ => hready.here hne⟩
            obtain ⟨k, hk, hwalk, hreached⟩ := hfollow _ _ _ hnew hloop
            refine ⟨k + 1, hk, .follow hentry hfind howned ?_, hreached⟩
            rw [if_neg hslash]
            exact hpending hwalk
    · by_cases hcheck : ciMetadataSafe h (cursorOf root (resolved ++ [component]))
        (if namesOf pending = [] then kind else .directory) none = true
      · rw [if_pos hcheck] at hloop
        have hsafeNode : Safe h (if namesOf pending = [] then kind else .directory)
            (R ++ resolved ++ [component]) :=
          metadataSafe_cursor hroot hready.entries hentry (hready.nodes hne) hcheck
        obtain ⟨node, hfind, hnode⟩ := hsafeNode.node
        have hdirectory : namesOf pending ≠ [] →
            Safe h .directory (R ++ resolved ++ [component]) := by
          intro hnext
          rwa [if_neg hnext] at hsafeNode
        obtain ⟨k, hk, hwalk, hreached⟩ := ih (hready.push hne hentry hline hdirectory) hloop
        rw [← List.append_assoc] at hwalk
        exact ⟨k, hk, .enter hentry hfind hnode (fun hnext => hdirectory (namesOf_of_exists hnext))
          hwalk, hreached⟩
      · rw [if_neg hcheck] at hloop
        cases hloop

lemma resolveLinks_confined (hlinks : PlainLinks h) (hroot : resolvePath h root = some R)
    (hsafe : Safe h .directory R) (limit : ℕ) {out : List Str} (hready : Ready h R resolved pending)
    (hloop : resolveLinks h root kind limit resolved pending = some out) :
    ∃ k ≤ limit, Walk h R k (R ++ resolved) pending (R ++ out) ∧ Reached h R out := by
  induction limit generalizing resolved pending out with
  | zero =>
    exact resolveLoop_confined hlinks hroot hsafe (fun _ _ _ _ hnone => by cases hnone) hready hloop
  | succ limit ih =>
    refine resolveLoop_confined hlinks hroot hsafe
      (fun resolved pending out hready hfollow => ?_) hready hloop
    obtain ⟨k, hk, hwalk, hreached⟩ := ih hready hfollow
    exact ⟨k, Nat.succ_le_succ hk, hwalk, hreached⟩

end Loop

/-! ### The path that is found -/

section Target

variable {h : Host} {root requested out : Str} {R names : List Str} {kind : Kind}

/-- What the function asks before and behind the loop. -/
lemma ciResolveTarget_eq_some : ciResolveTarget h root requested kind = some out ↔
    (∃ rest, requested = '/' :: rest) ∧ isDir h root = true ∧ isLink h root = false ∧
      ciMetadataSafe h root .directory none = true ∧
      ∃ names, resolveLinks h root kind 40 [] ((requested.drop 1).splitOn '/') = some names ∧
        ciMetadataSafe h (cursorOf root names) kind none = true ∧ cursorOf root names = out := by
  unfold ciResolveTarget
  have hslash : requested.head? = some '/' ↔ ∃ rest, requested = '/' :: rest := by
    cases requested with
    | nil => simp
    | cons c rest => simp
  rw [← hslash]
  constructor
  · intro hout
    split at hout
    · rename_i hcheck
      simp only [Bool.and_eq_true, decide_eq_true_eq, Bool.not_eq_true'] at hcheck
      obtain ⟨⟨⟨hhead, hdir⟩, hlink⟩, hsafe⟩ := hcheck
      refine ⟨hhead, hdir, hlink, hsafe, ?_⟩
      split at hout
      · cases hout
      · rename_i names hloop
        split at hout
        · exact ⟨names, hloop, ‹_›, Option.some.inj hout⟩
        · cases hout
    · cases hout
  · rintro ⟨hhead, hdir, hlink, hsafe, names, hloop, hend, rfl⟩
    rw [if_pos (by simp [hhead, hdir, hlink, hsafe]), hloop]
    exact if_pos hend

lemma Ready.start {text : Str} (hsafe : Safe h .directory R) : Ready h R [] (text.splitOn '/') := by
  refine ⟨⟨nofun, nofun, fun pre hpre hproper => ?_⟩, slash_notMem_splitOn text, fun _ => ?_⟩
  · exact absurd (List.prefix_nil.mp hpre) hproper
  · rwa [List.append_nil]

/-- The names before the last one are names of directories. -/
lemma Reached.node {pre : List Str} (hreached : Reached h R names) (hend : Safe h kind (R ++ names))
    (hpre : pre <+: names) : ∃ node, h.find (R ++ pre) = some node ∧ node.isLink = false := by
  by_cases hall : pre = names
  · rw [hall]
    exact hend.node
  · exact (hreached.before pre hpre hall).node

/-- The path of names that were reached leads to what is there. -/
lemma Reached.resolvePath (hroot : resolvePath h root = some R) (hreached : Reached h R names)
    (hend : Safe h kind (R ++ names)) :
    resolvePath h (cursorOf root names) = some (R ++ names) := by
  unfold CloudInit.resolvePath at hroot ⊢
  rw [splitOn_cursor fun n hn => (hreached.entries n hn).2.2.2]
  exact FileTree.walk_append hreached.entries (fun pre hpre _ => hreached.node hend hpre) hroot

/-- What a resolution finds. -/
structure Located (h : Host) (root requested : Str) (kind : Kind) (R names : List Str) : Prop
    extends Reached h R names where
  root : CloudInit.resolvePath h root = some R
  rootSafe : Safe h .directory R
  here : Safe h kind (R ++ names)
  walk : ∃ n ≤ 40, Walk h R n R (requested.splitOn '/') (R ++ names)

lemma located_of_eq_some (hlinks : PlainLinks h)
    (hout : ciResolveTarget h root requested kind = some out) :
    ∃ R names, out = cursorOf root names ∧ Located h root requested kind R names := by
  obtain ⟨⟨rest, rfl⟩, -, -, hroot, names, hloop, hend, rfl⟩ := ciResolveTarget_eq_some.mp hout
  obtain ⟨R, hR, hsafe⟩ := metadataSafe_spec hroot
  obtain ⟨n, hn, hwalk, hreached⟩ :=
    resolveLinks_confined hlinks hR hsafe 40 (Ready.start hsafe) hloop
  rw [List.append_nil] at hwalk
  refine ⟨R, names, rfl, hreached, hR, hsafe, ?_, n, hn, ?_⟩
  · rcases List.eq_nil_or_concat' names with rfl | ⟨init, name, rfl⟩
    · obtain ⟨q, hq, hnode⟩ := metadataSafe_spec hend
      have hcursor : cursorOf root [] = root := by simp [cursorOf]
      rw [hcursor, hR] at hq
      obtain rfl := Option.some.inj hq
      rwa [List.append_nil]
    · rw [← List.append_assoc]
      refine metadataSafe_cursor hR (fun n hn => hreached.entries n (List.mem_append_left _ hn))
        (hreached.entries name List.mem_concat_self) (fun pre hpre _ => ?_) hend
      refine (hreached.before pre (hpre.trans (List.prefix_append _ _)) ?_).node
      rintro rfl
      have hlength := hpre.length_le
      simp at hlength
  · rw [splitOn_slash]
    exact .skip hwalk

/-- A process with the root of the target finds the same. -/
lemma Located.inside (hlocated : Located h root requested kind R names) :
    h.walk R 40 R (requested.splitOn '/') = some (R ++ names) := by
  obtain ⟨n, hn, hwalk⟩ := hlocated.walk
  have hdir := hlocated.rootSafe.isDirectory
  exact hwalk.walk (fun p hp => hp.isDirectory) hdir hn fun _ => hdir

end Target

/-- **The resolution of a path of the target.**  The loop ends with not more than forty links.  A
path that is found is the root with the names of entries behind it, of which none is a link; it
leads to the node that a process with this root finds, by a walk that never goes above the root.
The root, the directories of the path, all others that were entered, and the node have safe
metadata, and the links that were followed belong to root. -/
theorem ciResolveTarget_confined (h : Host) (root requested : Str) (kind : Kind)
    (hlinks : PlainLinks h) :
    (∃ count ≤ 40, Ends h root kind ⟨[], requested.drop 1, 0⟩ count
      (resolveLinks h root kind 40 [] ((requested.drop 1).splitOn '/'))) ∧
    ∀ out, ciResolveTarget h root requested kind = some out →
      ∃ R names, resolvePath h root = some R ∧ out = cursorOf root names ∧
        (∀ name ∈ names, IsEntry name) ∧
        (∀ pre, pre <+: names → ∃ node, h.find (R ++ pre) = some node ∧ node.isLink = false) ∧
        resolvePath h out = h.walk R 40 R (requested.splitOn '/') ∧
        resolvePath h out = some (R ++ names) ∧
        (∃ n ≤ 40, Walk h R n R (requested.splitOn '/') (R ++ names)) ∧ Safe h .directory R ∧
        (∀ pre, pre <+: names → pre ≠ names → Safe h .directory (R ++ pre)) ∧
        Safe h kind (R ++ names) := by
  refine ⟨ends_resolveLinks 40 le_rfl [] (requested.drop 1), fun out hout => ?_⟩
  obtain ⟨R, names, rfl, hlocated⟩ := located_of_eq_some hlinks hout
  have hpath := hlocated.toReached.resolvePath hlocated.root hlocated.here
  exact ⟨R, names, hlocated.root, rfl, hlocated.entries,
    fun pre hpre => hlocated.node hlocated.here hpre,
    hpath.trans hlocated.inside.symm, hpath, hlocated.walk, hlocated.rootSafe,
      hlocated.before, hlocated.here⟩

/-! ### A link in the target -/

/-- A target below `/t` whose `/bin` is a link. -/
def binEntries : List (List Str × Node Metadata) :=
  [([], .directory ⟨0, 0, 0o755, 20⟩), (["t".toList], .directory ⟨0, 0, 0o755, 4⟩),
    (["t".toList, "usr".toList], .directory ⟨0, 0, 0o755, 3⟩),
      (["t".toList, "usr".toList, "bin".toList], .directory ⟨0, 0, 0o755, 2⟩),
    (["t".toList, "bin".toList], .link ⟨0, 0, 0o777, 1⟩ "/usr/bin".toList),
    (["t".toList, "usr".toList, "bin".toList, "cloud-init".toList], .file ⟨0, 0, 0o755, 1⟩)]

def binHost : Host := FileTree.ofEntries binEntries (by decide +kernel) (by decide +kernel)

def plainLink : Node Metadata → Bool
  | .link _ text => !text.contains '\x00' && text.getLast? != some '\n'
  | _ => true

lemma plainLinks_binHost : PlainLinks binHost := by
  intro p info text hfind
  obtain ⟨e, he, hnode⟩ := Option.map_eq_some_iff.mp hfind
  have hall : (binEntries.all fun e => plainLink e.2) = true := by decide +kernel
  have hentry := List.all_eq_true.mp hall e (List.mem_of_find?_eq_some he)
  rw [hnode] at hentry
  simpa [plainLink] using hentry

theorem ciResolveTarget_confined_bin :
    ciResolveTarget binHost "/t".toList "/bin/cloud-init".toList .file =
      some "/t/usr/bin/cloud-init".toList ∧
      ∃ R names, resolvePath binHost "/t".toList = some R ∧
        "/t/usr/bin/cloud-init".toList = cursorOf "/t".toList names ∧
        (∃ n ≤ 40, Walk binHost R n R ("/bin/cloud-init".toList.splitOn '/') (R ++ names)) ∧
        Safe binHost .file (R ++ names) := by
  have hout : ciResolveTarget binHost "/t".toList "/bin/cloud-init".toList .file =
      some "/t/usr/bin/cloud-init".toList := by decide +kernel
  obtain ⟨R, names, hR, hnames, -, -, -, -, hwalk, -, -, hsafe⟩ :=
    (ciResolveTarget_confined binHost "/t".toList "/bin/cloud-init".toList .file
      plainLinks_binHost).2 _ hout
  exact ⟨hout, R, names, hR, hnames, hwalk, hsafe⟩

end Pxeos.CloudInit
