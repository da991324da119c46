import Pxeos.Storage.Bound
import Mathlib.Data.List.Infix
import Mathlib.Data.List.TakeWhile

/-!
# The paths of a task

A path by its components, what `rx_relative` and `path_allowed` say about them, and where the last
component of a path stands.
-/

namespace Pxeos.Storage

/-- The components of a path. -/
def components (path : Bytes) : List Bytes := path.splitOn slash

/-- A path is a directory or below it. -/
def Inside (base path : Bytes) : Prop := components base <+: components path

/-- A path is a proper ancestor of another. -/
def Above (path base : Bytes) : Prop :=
  components path <+: components base ∧ components path ≠ components base

/-- The paths a task may create, remove or rename. -/
structure Owned (c : Context) (path : Bytes) : Prop where
  relative : rxRelative path false = true
  place : Inside c.stage path ∨ Inside c.lock path ∨ Inside c.imagePath path ∨ Above path c.stage ∨
    path = ascii ".locks"

lemma components_join (a b : Bytes) : components (a ++ slash :: b) = components a ++ components b :=
  List.splitOn_append_cons_self a b

lemma components_ne_nil (path : Bytes) : components path ≠ [] := List.splitOn_ne_nil _ _

/-- `contained` goes by components. -/
lemma inside_of_contained {base path : Bytes} (h : contained base path = true) :
    Inside base path := by
  unfold contained at h
  rw [Bool.and_eq_true, Bool.or_eq_true, decide_eq_true_eq, beq_iff_eq, beq_iff_eq] at h
  obtain ⟨⟨rest, rfl⟩, hrest⟩ := h
  rw [List.drop_left] at hrest
  rcases hrest with rfl | hrest
  · rw [List.append_nil]
    exact List.prefix_rfl
  · obtain ⟨r, rfl⟩ := List.head?_eq_some_iff.mp hrest
    unfold Inside
    rw [components_join]
    exact List.prefix_append _ _

lemma above_of_slash {path base : Bytes} (hp : path <+: base)
    (hs : (base.drop path.length).head? = some slash) :
    Above path base := by
  obtain ⟨rest, rfl⟩ := hp
  rw [List.drop_left] at hs
  obtain ⟨r, rfl⟩ := List.head?_eq_some_iff.mp hs
  unfold Above
  rw [components_join]
  refine ⟨List.prefix_append _ _, fun h => components_ne_nil r ?_⟩
  exact List.self_eq_append_right.mp h

lemma contained_nil {base : Bytes} (h : base ≠ []) : contained base [] = false := by
  unfold contained
  rw [Bool.and_eq_false_iff]
  left
  simpa using h

/-! ### Contexts -/

/-- What is known of an accepted context. -/
structure Context.Accepted (c : Context) : Prop where
  sequence : c.sequence < 2 ^ 64
  image : rxRelative c.imagePath false = true
  /-- The stage is below `dev`, in a directory of the task. -/
  stage : ∃ task attempt, slash ∉ task ∧ task ≠ [] ∧
    c.stage = ascii "dev" ++ slash :: (task ++ slash :: decimal attempt)
  lock : ∃ target, c.lock = ascii ".locks" ++ slash :: target
  kind : rxString c.owner "taskType" 7 = some (ascii "capture") ∨
    rxString c.owner "taskType" 7 = some (ascii "deploy")

lemma rxU64_lt {o : Json} {key : String} {n : ℕ} (h : rxU64 o key = some n) : n < 2 ^ 64 := by
  unfold rxU64 at h
  split at h
  · split at h
    next hn =>
      obtain rfl := Option.some.inj h
      omega
    next => cases h
  · cases h

lemma strtoull_lt {s : Bytes} {n : ℕ} (h : strtoull s = some n) : n < 2 ^ 64 := by
  unfold strtoull at h
  split at h
  · split at h
    next hn =>
      obtain rfl := Option.some.inj h
      exact hn
    next => cases h
  · cases h

lemma rxSequence_lt {o : Json} {n : ℕ} (h : rxSequence o = some n) : n < 2 ^ 64 := by
  unfold rxSequence at h
  simp only [Option.bind_eq_bind, Option.bind_eq_some_iff] at h
  obtain ⟨s, -, h⟩ := h
  split at h
  · cases h
  · exact strtoull_lt h

/-- What `execution` has checked. -/
lemma execution_ok {owner : Json} {task target : Bytes} {attempt : ℕ}
    (h : execution owner = some (task, attempt, target)) :
    task.length ≤ 64 ∧ target.length ≤ 64 ∧ attempt < 2 ^ 64 ∧ slash ∉ task ∧ task ≠ [] ∧
      (rxString owner "taskType" 7 = some (ascii "capture") ∨
        rxString owner "taskType" 7 = some (ascii "deploy")) := by
  unfold execution at h
  simp only [Option.bind_eq_bind, Option.bind_eq_some_iff] at h
  obtain ⟨domain, -, kind, hkind, task', htask, nonce, -, target', htarget, revision, -, attempt',
      hattempt, h⟩ := h
  split at h
  next hc =>
    obtain ⟨-, hk, hne, -, hslash, -⟩ := hc
    obtain ⟨rfl, rfl, rfl⟩ : task' = task ∧ attempt' = attempt ∧
        target' = target := by simpa using h
    refine ⟨?_, ?_, rxU64_lt hattempt, hslash, hne, ?_⟩
    · exact (rxString_spec htask).1
    · exact (rxString_spec htarget).1
    · rw [hkind]
      rcases hk with rfl | rfl
      · exact .inl rfl
      · exact .inr rfl
  next => cases h

/-- What `rx_load_context` has read for the context `c`: the server, and the task, the target and
the attempt. -/
structure Loaded (json : Json) (c : Context) (server task target : Bytes) (attempt : ℕ) : Prop where
  protocol : (rxString json "protocol" 3).bind protocolOf = some c.protocol
  read : rxString json "server" 255 = some server
  exportPath : rxString json "exportPath" 4095 = some c.exportPath
  server_ne : server ≠ []
  image : rxRelative c.imagePath false = true
  printable : server.any serverByte = false
  host : serverPort c.protocol server = some (c.server, c.port)
  sequence : initialSequence json = some c.sequence
  fields : execution c.owner = some (task, attempt, target)
  version : versionOk c.protocol c.version = true
  client : identity json c.protocol c.exportPath = some (c.uid, c.gid)
  stage : c.stage = snprintf 256 (ascii "dev/" ++ task ++ slash :: decimal attempt)
  lock : c.lock = snprintf 128 (ascii ".locks/" ++ target)

lemma rxLoadContext_loaded {json : Json} {c : Context} (h : rxLoadContext json = some c) :
    ∃ server task target attempt, Loaded json c server task target attempt := by
  unfold rxLoadContext at h
  obtain ⟨v, -, h⟩ := Option.bind_eq_some_iff.mp h
  obtain ⟨p, hp, h⟩ := Option.bind_eq_some_iff.mp h
  obtain ⟨server, hserver, h⟩ := Option.bind_eq_some_iff.mp h
  obtain ⟨root, hroot, h⟩ := Option.bind_eq_some_iff.mp h
  obtain ⟨image, -, h⟩ := Option.bind_eq_some_iff.mp h
  obtain ⟨dir, -, h⟩ := Option.bind_eq_some_iff.mp h
  obtain ⟨protocol, hprotocol, h⟩ := Option.bind_eq_some_iff.mp h
  split at h
  next hchecks =>
    obtain ⟨-, hne, -, himage, -, hbytes⟩ := hchecks
    obtain ⟨⟨host, port⟩, hhost, h⟩ := Option.bind_eq_some_iff.mp h
    obtain ⟨sequence, hseq, h⟩ := Option.bind_eq_some_iff.mp h
    obtain ⟨owner, -, h⟩ := Option.bind_eq_some_iff.mp h
    obtain ⟨⟨task, attempt, target⟩, hexec, h⟩ := Option.bind_eq_some_iff.mp h
    obtain ⟨version, -, h⟩ := Option.bind_eq_some_iff.mp h
    obtain ⟨⟨uid, gid⟩, hid, h⟩ := Option.bind_eq_some_iff.mp h
    dsimp only at h
    split at h
    next hlast =>
      obtain rfl := Option.some.inj h
      refine ⟨server, task, target, attempt, ?_⟩
      exact {
        protocol := by
          rw [hp]
          exact hprotocol
        read := hserver
        exportPath := hroot
        server_ne := hne
        image := himage
        printable := Bool.eq_false_iff.mpr hbytes
        host := hhost
        sequence := hseq
        fields := hexec
        version := hlast.2
        client := hid
        stage := rfl
        lock := rfl }
    next => cases h
  next => cases h

lemma Loaded.stage_eq {json : Json} {c : Context} {server task target : Bytes} {attempt : ℕ}
    (h : Loaded json c server task target attempt) :
    c.stage = ascii "dev" ++ slash :: (task ++ slash :: decimal attempt) := by
  obtain ⟨htask, -, hattempt, -⟩ := execution_ok h.fields
  have hdigits := decimal_length hattempt
  have hlen : (ascii "dev/" ++ task ++ slash :: decimal attempt).length ≤ 255 := by
    rw [List.length_append, List.length_append, List.length_cons,
      show (ascii "dev/").length = 4 from rfl]
    omega
  rw [h.stage]
  unfold snprintf
  rw [List.take_of_length_le hlen, List.append_assoc]
  rfl

/-- **What an accepted context is.** -/
theorem rxLoadContext_accepted {json : Json} {c : Context} (h : rxLoadContext json = some c) :
    c.Accepted := by
  obtain ⟨server, task, target, attempt, hl⟩ := rxLoadContext_loaded h
  obtain ⟨-, htarget, -, hslash, hne, hkind⟩ := execution_ok hl.fields
  refine ⟨?_, hl.image, ⟨task, attempt, hslash, hne, hl.stage_eq⟩, ⟨target, ?_⟩, hkind⟩
  · have hseq := hl.sequence
    unfold initialSequence at hseq
    split at hseq
    · rw [← Option.some.inj hseq]
      decide
    · exact rxSequence_lt hseq
  · have hlen : (ascii ".locks/" ++ target).length ≤ 127 := by
      rw [List.length_append, show (ascii ".locks/").length = 7 from rfl]
      omega
    rw [hl.lock]
    unfold snprintf
    rw [List.take_of_length_le hlen]
    rfl

/-! ### Paths that may be changed -/

lemma relative_false {path : Bytes} (h : rxRelative path true = true) (hne : path ≠ []) :
    rxRelative path false = true := by
  unfold rxRelative at h ⊢
  simp only [if_neg hne] at h ⊢
  exact h

lemma relative_ne_nil {path : Bytes} (h : rxRelative path false = true) : path ≠ [] := by
  rintro rfl
  simp [rxRelative] at h

/-- **`path_allowed` for a mutation**: the task is a capture, and the path is its own. -/
theorem owned_of_pathAllowed {c : Context} (hc : c.Accepted) {path : Bytes}
    (h : pathAllowed c path true = true) :
    c.isCapture = true ∧ Owned c path := by
  obtain ⟨task, attempt, hslash, hne, hstage⟩ := hc.stage
  obtain ⟨target, hlock⟩ := hc.lock
  unfold pathAllowed at h
  split at h
  · cases h
  next hrel =>
    have hrel : rxRelative path true = true := by simpa using hrel
    simp only [Bool.not_true, Bool.false_eq_true, if_false] at h
    split at h
    · cases h
    next hcap =>
      have hcap : c.isCapture = true := by simpa using hcap
      simp only [Bool.or_eq_true, Bool.and_eq_true, decide_eq_true_eq, beq_iff_eq] at h
      refine ⟨hcap, ?_, ?_⟩
      · refine relative_false hrel ?_
        rintro rfl
        have h1 : contained c.stage [] = false :=
          contained_nil (by rw [hstage]; exact List.cons_ne_nil _ _)
        have h2 : contained c.lock [] = false :=
          contained_nil (by rw [hlock]; exact List.cons_ne_nil _ _)
        have h3 : contained c.imagePath [] = false := contained_nil (relative_ne_nil hc.image)
        rw [h1, h2, h3, hstage] at h
        revert h
        simp [ascii, slash]
      · rcases h with ((((h | h) | h) | h) | h) | h
        · exact .inl (inside_of_contained h)
        · exact .inr (.inl (inside_of_contained h))
        · exact .inr (.inr (.inl (inside_of_contained h)))
        · refine .inr (.inr (.inr (.inl ?_)))
          rw [h, hstage]
          exact above_of_slash (List.prefix_append _ _) (by rw [List.drop_left]; rfl)
        · exact .inr (.inr (.inr (.inr h)))
        · exact .inr (.inr (.inr (.inl (above_of_slash h.1 h.2))))

/-! ### Components -/

lemma relativeLoop_ne_nil {ps : List Bytes} {atoms : ℕ} (h : relativeLoop atoms ps = true) :
    ∀ p ∈ ps, p ≠ [] := by
  induction ps generalizing atoms with
  | nil => simp
  | cons p ps ih =>
    unfold relativeLoop at h
    split at h
    · cases h
    next hno =>
      split at h
      · cases h
      · rw [not_or] at hno
        intro q hq
        rcases List.mem_cons.mp hq with rfl | hq
        · exact hno.1
        · exact ih h q hq

/-- No component of a relative path is empty. -/
lemma components_relative {path : Bytes} (h : rxRelative path false = true) :
    ∀ p ∈ components path, p ≠ [] := by
  unfold rxRelative at h
  split at h
  · cases h
  · split at h
    · cases h
    · split at h
      · cases h
      · exact relativeLoop_ne_nil h

lemma parts_eq {path : Bytes} (h : ∀ p ∈ components path, p ≠ []) :
    parts path = components path := by
  unfold parts
  exact List.filter_eq_self.mpr fun p hp => by simpa using h p hp

lemma slash_notMem_baseName (path : Bytes) : slash ∉ baseName path := by
  unfold baseName
  rw [List.mem_reverse]
  intro h
  simpa using List.mem_takeWhile_imp h

/-- A path with a slash in it. -/
lemma path_split {path : Bytes} (h : slash ∈ path) :
    path = parentPath path ++ slash :: baseName path := by
  have hsplit := List.takeWhile_append_dropWhile (p := (· ≠ slash)) (l := path.reverse)
  have hd : path.reverse.dropWhile (· ≠ slash) ≠ [] := by
    intro hnil
    rw [List.dropWhile_eq_nil_iff] at hnil
    simpa using hnil slash (List.mem_reverse.mpr h)
  obtain ⟨x, rest, hrest⟩ := List.exists_cons_of_ne_nil hd
  have hx : x = slash := by
    have hhead := List.head?_dropWhile_not (fun c => decide (c ≠ slash)) path.reverse
    rw [hrest] at hhead
    simpa using hhead
  subst hx
  unfold parentPath baseName
  rw [hrest] at hsplit ⊢
  have := congrArg List.reverse hsplit
  simpa using this.symm

/-- **Where the last component of a path stands.** -/
lemma components_parent {path : Bytes} (h : rxRelative path false = true) :
    components path = parts (parentPath path) ++ [baseName path] := by
  have hne := components_relative h
  have hbase : components (baseName path) = [baseName path] :=
    List.splitOn_eq_singleton (slash_notMem_baseName path)
  by_cases hs : slash ∈ path
  · have hcomp : components path = components (parentPath path) ++ [baseName path] := by
      rw [← hbase, ← components_join, ← path_split hs]
    rw [parts_eq fun p hp => hne p (by rw [hcomp]; exact List.mem_append_left _ hp)]
    exact hcomp
  · have hrev : ∀ c ∈ path.reverse, decide (c ≠ slash) = true := by
      intro c hc
      simp only [decide_eq_true_eq]
      rintro rfl
      exact hs (List.mem_reverse.mp hc)
    have h1 : baseName path = path := by
      unfold baseName
      rw [List.takeWhile_eq_self_iff.mpr hrev, List.reverse_reverse]
    have h2 : parentPath path = [] := by
      unfold parentPath
      rw [List.dropWhile_eq_nil_iff.mpr hrev]
      rfl
    rw [h2, h1]
    exact List.splitOn_eq_singleton hs

end Pxeos.Storage
