import Pxeos.Storage.Owned
import Pxeos.Storage.Session
import Mathlib.Logic.Function.Basic

/-!
# Open descriptors

What every open descriptor stands for, followed through a run: the names that were opened one after
another from the root of the storage, and what `statx` has said about each node.  A mutation is
confined when the directories it is applied to were reached along a path of the task, with every
node on the way as the proof of the command has it.
-/

namespace Pxeos.Storage

open Pxeos.Lib

/-- A node on the way: its name in the directory before it, how it was opened, and what `statx` has
said about it. -/
structure Node where
  name : Bytes
  nofollow : Bool
  status : Option Stat

/-- The way to an open node: what `statx` has said about the root, and the nodes below it. -/
structure Walk where
  root : Option Stat
  nodes : List Node

namespace Walk

/-- The names on the way. -/
def names (w : Walk) : List Bytes := w.nodes.map Node.name

/-- One more name. -/
def push (w : Walk) (name : Bytes) (nofollow : Bool) : Walk :=
  { w with nodes := w.nodes ++ [⟨name, nofollow, none⟩] }

/-- The last node is seen. -/
def see (w : Walk) (st : Option Stat) : Walk :=
  match w.nodes.reverse with
  | [] => { w with root := st }
  | node :: rest => { w with nodes := rest.reverse ++ [{ node with status := st }] }

end Walk

/-- What is followed through a run: the table of descriptors, the device of the root, the proof of
the command, and the descriptor in the directory stream. -/
structure World where
  table : Fd → Option Walk
  device : Option (ℕ × ℕ)
  proof : Option Json
  stream : Option Fd

/-- The table with one entry changed. -/
def World.set (s : World) (fd : Fd) (w : Option Walk) : World :=
  { s with table := Function.update s.table fd w }

/-- No descriptor is open. -/
def World.initial : World := ⟨fun _ => none, none, none, none⟩

/-- What a new descriptor stands for. -/
def World.opened (s : World) (fd : Option Fd) (w : Option Walk) : World :=
  match fd with
  | some fd => s.set fd w
  | none => s

/-- What a status says; the first one is that of the root. -/
def World.seen (s : World) (fd : Fd) (st : Option Stat) : World :=
  match st with
  | some st =>
    { s.set fd ((s.table fd).map (·.see st)) with device := some (s.device.getD st.device) }
  | none => s

/-- The stream takes the descriptor, where `fdopendir` succeeds. -/
def World.streamed (s : World) (fd : Fd) (ok : Bool) : World :=
  if ok then { s with stream := some fd } else s

/-- The descriptor of the stream is closed with it. -/
def World.unstreamed (s : World) : World :=
  match s.stream with
  | some fd => { s.set fd none with stream := none }
  | none => s

/-- The world after a step. -/
def World.step (s : World) : Step → World
  | ⟨.openRoot, fd⟩ => s.opened fd (some ⟨none, []⟩)
  | ⟨.dup d, fd⟩ => s.opened fd ((s.table d).map (·.see none))
  | ⟨.openat d name flags, fd⟩ => s.opened fd ((s.table d).map (·.push name flags.nofollow))
  | ⟨.statx d, st⟩ => s.seen d st
  | ⟨.close d, _⟩ => s.set d none
  | ⟨.fdopendir d, ok⟩ => s.streamed d ok
  | ⟨.closedir, _⟩ => s.unstreamed
  | ⟨.note (.accepted event a), _⟩ =>
    if phase event = some .intent then { s with proof := a.get (ascii "proof") } else s
  | _ => s

/-- A descriptor that is returned is one that was not open. -/
def World.Fresh (s : World) (fd : Option Fd) : Prop := ∀ n, fd = some n → s.table n = none

/-- What the kernel keeps to: a descriptor that is returned is not open, and the root stays on its
device. -/
def World.Kernel (s : World) : Step → Prop
  | ⟨.openRoot, fd⟩ => s.Fresh fd
  | ⟨.dup _, fd⟩ => s.Fresh fd
  | ⟨.openat _ _ _, fd⟩ => s.Fresh fd
  | ⟨.statx d, st⟩ =>
    ∀ t w v, st = some t → s.table d = some w → w.nodes = [] → s.device = some v → t.device = v
  | _ => True

instance World.decidableFresh (s : World) (fd : Option Fd) : Decidable (s.Fresh fd) :=
  match fd with
  | none => isTrue fun _ h => by cases h
  | some n => decidable_of_iff ((s.table n).isNone = true) (by simp [World.Fresh])

instance World.decidableSteady (s : World) (d : Fd) (st : Option Stat) :
    Decidable (∀ t w v, st = some t → s.table d = some w → w.nodes = [] → s.device = some v →
      t.device = v) :=
  decidable_of_iff (∀ t ∈ st, ∀ w ∈ s.table d, w.nodes.isEmpty = true → ∀ v ∈ s.device,
    t.device = v) (by
    simp only [Option.mem_def, List.isEmpty_iff]
    exact ⟨fun h t w v ht hw hn hv => h t ht w hw hn v hv,
      fun h t ht w hw hn v hv => h t w v ht hw hn hv⟩)

instance World.decidableKernel (s : World) : ∀ e : Step, Decidable (s.Kernel e)
  | ⟨.openRoot, fd⟩ => s.decidableFresh fd
  | ⟨.dup _, fd⟩ => s.decidableFresh fd
  | ⟨.openat _ _ _, fd⟩ => s.decidableFresh fd
  | ⟨.statx d, st⟩ => s.decidableSteady d st
  | ⟨.parentAlive, _⟩ | ⟨.emit _, _⟩ | ⟨.line, _⟩ | ⟨.mountInfo _, _⟩ | ⟨.statxAt _ _,
      _⟩ | ⟨.close _, _⟩ | ⟨.mkdirat _ _, _⟩
  | ⟨.unlinkat _ _ _, _⟩ | ⟨.renameat2 _ _ _ _, _⟩ | ⟨.renameat _ _ _ _, _⟩ | ⟨.fdopendir _,
      _⟩ | ⟨.readdir, _⟩
  | ⟨.closedir, _⟩ | ⟨.read _ _, _⟩ | ⟨.write _ _, _⟩ | ⟨.fsync _, _⟩ | ⟨.rewind _, _⟩ | ⟨.digest,
      _⟩ | ⟨.note _, _⟩ =>
    isTrue trivial

/-! ### Confined mutations -/

/-- A node is as the proof has it: its inode and its kind, and the size and the time of a file. -/
def Matches (L : Libs) (proof : Json) (path : Bytes) (st : Stat) : Prop :=
  ∃ entry, proofEntry L proof path = some entry ∧
    rxString entry "fileId" 16 = some (snprintf 17 (hexadecimal st.ino)) ∧
    ((rxString entry "kind" 4 = some (ascii "dir") ∧ st.isDir = true) ∨
      (rxString entry "kind" 4 = some (ascii "file") ∧ st.isReg = true ∧
        rxString entry "size" 20 = some (snprintf 21 (decimal st.size)) ∧
        rxString entry "mtimeSec" 21 = some (snprintf 22 (signedDecimal st.mtimeSec)) ∧
        rxString entry "mtimeNsec" 9 = some (snprintf 10 (decimal st.mtimeNsec))))

/-- The path of a list of names. -/
def joined (names : List Bytes) : Bytes := names.foldl extend []

/-- Every node on the way is on the device and as the proof has it, and no link was followed. -/
structure Walk.Bound (L : Libs) (proof : Json) (device : ℕ × ℕ) (w : Walk) : Prop where
  root : ∃ st, w.root = some st ∧ st.device = device ∧ Matches L proof [] st
  nodes : ∀ pre node post, w.nodes = pre ++ node :: post → node.nofollow = true ∧
    ∃ st, node.status = some st ∧ st.device = device ∧
      Matches L proof (joined (pre.map Node.name ++ [node.name])) st

/-- A directory that was reached along the path of a name that the task may change. -/
def Reached (L : Libs) (c : Context) (s : World) (d : Fd) (name : Bytes) : Prop :=
  ∃ path w proof device, Owned c path ∧ components path = w.names ++ [name] ∧ s.table d = some w ∧
    s.proof = some proof ∧
    s.device = some device ∧ w.Bound L proof device

/-- The contract: only a capture changes anything, and only where it has reached. -/
def confinement (L : Libs) (c : Context) : Contract Call.Answer World where
  rely := World.Kernel
  guard := fun s e => ∀ x ∈ targets e, c.isCapture = true ∧ Reached L c s x.1 x.2
  next := World.step

/-! ### Tables -/

section Set

variable {s : World} {fd fd' : Fd} {w w' : Option Walk}

@[simp] lemma set_table_self : (s.set fd w).table fd = w := Function.update_self _ _ _

lemma set_table_ne (h : fd' ≠ fd) : (s.set fd w).table fd' = s.table fd' :=
  Function.update_of_ne h _ _

@[simp] lemma set_device : (s.set fd w).device = s.device := rfl
@[simp] lemma set_proof : (s.set fd w).proof = s.proof := rfl
@[simp] lemma set_stream : (s.set fd w).stream = s.stream := rfl

@[simp] lemma set_set : (s.set fd w).set fd w' = s.set fd w' := by
  unfold World.set
  simp

lemma set_comm (h : fd ≠ fd') : (s.set fd w).set fd' w' = (s.set fd' w').set fd w := by
  unfold World.set
  simp only [Function.update_comm h]

/-- Closing a descriptor that was not open before. -/
lemma set_none (h : s.table fd = none) : s.set fd none = s := by
  unfold World.set
  rw [← h, Function.update_eq_self]

end Set

/-! ### Ways -/

@[simp] lemma push_names (w : Walk) (name : Bytes) (b : Bool) :
    (w.push name b).names = w.names ++ [name] := by
  simp [Walk.push, Walk.names]

lemma see_push (w : Walk) (name : Bytes) (b : Bool) (st : Option Stat) :
    (w.push name b).see st = { w with nodes := w.nodes ++ [⟨name, b, st⟩] } := by
  simp [Walk.push, Walk.see]

@[simp] lemma see_names (w : Walk) (st : Option Stat) : (w.see st).names = w.names := by
  unfold Walk.see Walk.names
  split
  next h => rfl
  next node rest h =>
    have hn : w.nodes = rest.reverse ++ [node] := by
      have := congrArg List.reverse h
      simpa using this
    simp [hn]

lemma joined_concat (names : List Bytes) (name : Bytes) :
    joined (names ++ [name]) = extend (joined names) name := by
  simp [joined]

/-- The root, as it was seen. -/
lemma bound_root {L : Libs} {proof : Json} {device : ℕ × ℕ} {st : Stat} (hd : st.device = device)
    (hm : Matches L proof [] st) : Walk.Bound L proof device ⟨some st, []⟩ :=
  ⟨⟨st, rfl, hd, hm⟩, fun pre node post h => by simp at h⟩

/-- **One more node.** -/
lemma Walk.Bound.push {L : Libs} {proof : Json} {device : ℕ × ℕ} {w : Walk}
    (h : w.Bound L proof device) {name : Bytes} {st : Stat} (hd : st.device = device)
    (hm : Matches L proof (extend (joined w.names) name) st) :
    Walk.Bound L proof device ((w.push name true).see st) := by
  rw [see_push]
  refine ⟨h.root, fun pre node post heq => ?_⟩
  rcases List.append_eq_append_iff.mp heq with ⟨a, ha, hb⟩ | ⟨a, ha, hb⟩
  · cases a with
    | nil =>
      simp only [List.nil_append, List.cons.injEq] at hb
      obtain ⟨rfl, -⟩ := hb
      refine ⟨rfl, st, rfl, hd, ?_⟩
      rw [List.append_nil] at ha
      rw [joined_concat, ha]
      exact hm
    | cons x a =>
      simp at hb
  · cases a with
    | nil =>
      simp only [List.nil_append, List.cons.injEq] at hb
      obtain ⟨rfl, -⟩ := hb
      refine ⟨rfl, st, rfl, hd, ?_⟩
      rw [List.append_nil] at ha
      rw [joined_concat, ← ha]
      exact hm
    | cons x a =>
      rw [List.cons_append, List.cons.injEq] at hb
      obtain ⟨rfl, -⟩ := hb
      exact h.nodes pre node a ha

/-- What `proof_matches` says. -/
lemma matches_of_proofMatches {L : Libs} {proof : Json} {path : Bytes} {st : Stat}
    (h : proofMatches L proof path st = true) :
    Matches L proof path st := by
  unfold proofMatches at h
  split at h
  · cases h
  next p hp =>
    split at h
    next id kind hid hkind =>
      split at h
      · cases h
      next hne =>
        have hid' : id = snprintf 17 (hexadecimal st.ino) := by simpa using hne
        refine ⟨p, hp, by rw [hid, hid'], ?_⟩
        split at h
        next hdir => exact .inl ⟨by rw [hkind, hdir], h⟩
        next =>
          split at h
          · cases h
          next hfile =>
            rw [not_or, not_not] at hfile
            split at h
            next size seconds nanos hsize hseconds hnanos =>
              simp only [Bool.and_eq_true, beq_iff_eq] at h
              refine .inr ⟨by rw [hkind, hfile.1], by simpa using hfile.2, ?_, ?_, ?_⟩
              · rw [hsize, h.1.1]
              · rw [hseconds, h.1.2]
              · rw [hnanos, h.2]
            next => cases h
    next => cases h

end Pxeos.Storage
