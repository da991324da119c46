import Pxeos.Storage.Guarantees

/-!
# The data of a command

What `write` stores of the data pipe and what `read` delivers of a file, over whole runs of a
command: any chunks, any interruption, partial writes, and any length.
-/

namespace Pxeos.Storage

open Pxeos.Lib

/-! ### What is moved in a run -/

/-- The bytes a step has read from a stream. -/
def readBy (s : Stream) : Step → Bytes
  | ⟨.read s' _, .got bytes _⟩ => if s' = s then bytes else []
  | _ => []

/-- The bytes a step has written to a stream. -/
def writtenBy (s : Stream) : Step → Bytes
  | ⟨.write s' bytes, .wrote n _⟩ => if s' = s then bytes.take n else []
  | _ => []

def readFrom (s : Stream) (τ : List Step) : Bytes := τ.flatMap (readBy s)

def writtenTo (s : Stream) (τ : List Step) : Bytes := τ.flatMap (writtenBy s)

/-- A step that moves no data. -/
def Idle (e : Step) : Prop := (∀ s n, e.1 ≠ .read s n) ∧ ∀ s b, e.1 ≠ .write s b

/-- A step that opens nothing. -/
def Closed (e : Step) : Prop := (∀ d n f, e.1 ≠ .openat d n f) ∧ ∀ d, e.1 ≠ .dup d

/-- A step that moves no data and opens nothing. -/
def Plain (e : Step) : Prop := Idle e ∧ Closed e

/-- What the file of a descriptor has after a step: nothing where it is created, and `found` where
it was there. -/
def contentStep (found : Option Bytes) (fd : Fd) (content : Option Bytes) : Step → Option Bytes
  | ⟨.openat _ _ flags, some fd'⟩ =>
    if fd' = fd then (if flags.exclusive then some [] else found) else content
  | ⟨.dup _, some fd'⟩ => if fd' = fd then none else content
  | e => content.map (· ++ writtenBy (.file fd) e)

/-- What the file of a descriptor has, when what is written to it is stored. -/
def contentFrom (found : Option Bytes) (fd : Fd) (τ : List Step) : Option Bytes :=
  τ.foldl (contentStep found fd) none

/-- What a file has that was created in the run. -/
def contentOf (fd : Fd) (τ : List Step) : Option Bytes := contentFrom none fd τ

section Moved

variable {s : Stream} {τ σ : List Step}

@[simp] lemma readFrom_nil : readFrom s [] = [] := rfl
@[simp] lemma writtenTo_nil : writtenTo s [] = [] := rfl
@[simp] lemma readFrom_append : readFrom s (τ ++ σ) = readFrom s τ ++ readFrom s σ :=
  List.flatMap_append
@[simp] lemma writtenTo_append : writtenTo s (τ ++ σ) = writtenTo s τ ++ writtenTo s σ :=
  List.flatMap_append
@[simp] lemma readFrom_cons (e : Step) : readFrom s (e :: τ) = readBy s e ++ readFrom s τ :=
  List.flatMap_cons
@[simp] lemma writtenTo_cons (e : Step) : writtenTo s (e :: τ) = writtenBy s e ++ writtenTo s τ :=
  List.flatMap_cons

lemma readBy_eq_nil {e : Step} (h : ∀ n, e.1 ≠ .read s n) : readBy s e = [] := by
  unfold readBy
  split
  next s' n bytes le =>
    rw [if_neg]
    rintro rfl
    exact h n rfl
  next => rfl

lemma writtenBy_eq_nil {e : Step} (h : ∀ b, e.1 ≠ .write s b) : writtenBy s e = [] := by
  unfold writtenBy
  split
  next s' bytes n le =>
    rw [if_neg]
    rintro rfl
    exact h bytes rfl
  next => rfl

lemma readFrom_eq_nil (h : ∀ e ∈ τ, ∀ n, e.1 ≠ .read s n) : readFrom s τ = [] :=
  List.flatMap_eq_nil_iff.mpr fun e he => readBy_eq_nil (h e he)

lemma writtenTo_eq_nil (h : ∀ e ∈ τ, ∀ b, e.1 ≠ .write s b) : writtenTo s τ = [] :=
  List.flatMap_eq_nil_iff.mpr fun e he => writtenBy_eq_nil (h e he)

lemma readFrom_idle (h : ∀ e ∈ τ, Idle e) : readFrom s τ = [] :=
  readFrom_eq_nil fun e he => (h e he).1 s

lemma writtenTo_idle (h : ∀ e ∈ τ, Idle e) : writtenTo s τ = [] :=
  writtenTo_eq_nil fun e he => (h e he).2 s

lemma contentStep_closed {found : Option Bytes} {fd : Fd} {content : Option Bytes} {e : Step}
    (h : Closed e) :
    contentStep found fd content e = content.map (· ++ writtenBy (.file fd) e) := by
  unfold contentStep
  split
  · exact absurd rfl (h.1 _ _ _)
  · exact absurd rfl (h.2 _)
  · rfl

/-- As long as nothing is opened, a file grows by what is written to it. -/
lemma foldl_contentStep {found : Option Bytes} {fd : Fd} : ∀ {τ : List Step} {content : Bytes},
    (∀ e ∈ τ, Closed e) →
    τ.foldl (contentStep found fd) (some content) = some (content ++ writtenTo (.file fd) τ)
  | [], content, _ => by rw [writtenTo_nil, List.append_nil]; rfl
  | e :: τ, content, h => by
    rw [List.foldl_cons, contentStep_closed (h e List.mem_cons_self), Option.map_some,
      foldl_contentStep fun e he => h e (List.mem_cons_of_mem _ he), writtenTo_cons,
        List.append_assoc]

/-- The content of a file, from where it was created. -/
lemma contentOf_created {fd dir : Fd} {name : Bytes} {flags : Flags} {pre mid : List Step}
    (hf : flags.exclusive = true) (hmid : ∀ e ∈ mid, Closed e) :
    contentOf fd (pre ++ ⟨.openat dir name flags, some fd⟩ :: mid) =
      some (writtenTo (.file fd) mid) := by
  unfold contentOf contentFrom
  rw [List.foldl_append, List.foldl_cons]
  have hcreate : contentStep none fd (pre.foldl (contentStep none fd) none) ⟨.openat dir name flags,
      some fd⟩ = some [] := by
    simp [contentStep, hf]
  rw [hcreate, foldl_contentStep hmid, List.nil_append]

end Moved

/-! ### Programs that move no data -/

section Plain

variable {L : Libs}

lemma plain_of {e : Step} (h1 : ∀ s n, e.1 ≠ .read s n) (h2 : ∀ s b, e.1 ≠ .write s b)
    (h3 : ∀ d n f, e.1 ≠ .openat d n f) (h4 : ∀ d, e.1 ≠ .dup d) : Plain e := ⟨⟨h1, h2⟩, h3, h4⟩

lemma plain_alive : (ask .parentAlive).Only Plain :=
  Prog.only_ask fun _ => plain_of (by simp) (by simp) (by simp) (by simp)

lemma plain_stat (fd : Fd) : (rxStatFd fd).Only Plain :=
  Prog.only_ask fun _ => plain_of (by simp) (by simp) (by simp) (by simp)

lemma plain_close (fd : Fd) : (close fd).Only Plain :=
  Prog.only_ask fun _ => plain_of (by simp) (by simp) (by simp) (by simp)

lemma plain_digest : (ask .digest).Only Plain :=
  Prog.only_ask fun _ => plain_of (by simp) (by simp) (by simp) (by simp)

lemma plain_note (n : Note) : (note n).Only Plain :=
  Prog.only_ask fun _ => plain_of (by simp) (by simp) (by simp) (by simp)

lemma plain_emit (event : Json) : (rxEmit L event).Only Plain := by
  unfold rxEmit
  split
  · exact Prog.only_ask fun _ => plain_of (by simp) (by simp) (by simp) (by simp)
  · trivial

lemma plain_readJson : (rxReadJson L).Only Plain :=
  (Prog.only_ask fun _ => plain_of (by simp) (by simp) (by simp) (by simp)).bind fun _ => trivial

lemma plain_reject {α : Type} : (reject : Helper (Option α)).Only Plain :=
  (plain_note _).bind fun _ => trivial

lemma plain_ack (c : Context) (event : Json) : (ack L c event).Only Plain := by
  refine plain_alive.bind fun alive => ?_
  show Prog.Only Plain (if _ then _ else _)
  split
  · exact plain_reject
  refine (plain_emit event).bind fun sent => ?_
  show Prog.Only Plain (if _ then _ else _)
  split
  · exact plain_reject
  refine plain_readJson.bind fun a => ?_
  cases a with
  | none => exact plain_reject
  | some a =>
    dsimp only
    cases ackProof L c event a with
    | none => exact plain_reject
    | some p =>
      refine plain_alive.bind fun alive => ?_
      show Prog.Only Plain (if _ then _ else _)
      split
      · exact plain_reject
      · show Prog.Only Plain (if _ then _ else _)
        split
        · exact (plain_note _).bind fun _ => trivial
        · exact plain_reject

lemma plain_progressAt (stage : String) (count progress : ℕ) :
    (progressAt L stage count progress).Only Plain := by
  unfold progressAt
  split
  · refine Prog.Only.bind (plain_emit _) fun r => ?_
    cases r <;> trivial
  · trivial

lemma plain_digestFinal (bytes : Bytes) : (digestFinal L bytes).Only Plain :=
  plain_digest.bind fun _ => trivial

lemma plain_closeIf (fd : Option Fd) : (closeIf fd).Only Plain := by
  cases fd with
  | none => trivial
  | some fd => exact plain_close fd

lemma plain_release (o : Outcome) : (release o).Only Plain :=
  (plain_closeIf o.fd).bind fun _ => (plain_closeIf o.parent).bind fun _ => trivial

lemma idle_of_plain {α : Type} {p : Helper α} (h : p.Only Plain) : p.Only Idle :=
  h.mono fun _ he => he.1

lemma idle_openat (dir : Fd) (name : Bytes) (flags : Flags) :
    (ask (.openat dir name flags)).Only Idle :=
  Prog.only_ask fun _ => ⟨by simp, by simp⟩

lemma idle_close_none {α : Type} (fd : Fd) :
    Prog.Only Idle (do let _ ← close fd; pure (none : Option α)) :=
  (idle_of_plain (plain_close fd)).bind fun _ => trivial

lemma idle_openParts {fs : Fs} {proof : Json} {flags : Flags} :
    ∀ (ps : List Bytes) (fd : Fd) (path : Bytes),
    (openParts L fs proof flags fd path ps).Only Idle
  | [], _, _ => trivial
  | part :: next, fd, path => by
    refine (idle_openat _ _ _).bind fun child => ?_
    cases child with
    | none => exact idle_close_none fd
    | some child =>
      refine (idle_of_plain (plain_close fd)).bind fun _ =>
        (idle_of_plain (plain_stat child)).bind fun st => ?_
      cases st with
      | none => exact idle_close_none child
      | some st =>
        show Prog.Only Idle (if _ then _ else _)
        split
        · exact idle_close_none child
        · exact idle_openParts next child _

lemma idle_openBound (fs : Fs) (path : Bytes) (proof : Json) (flags : Flags) :
    (openBound L fs path proof flags).Only Idle := by
  unfold openBound
  split
  · trivial
  refine (Prog.only_ask fun _ => ⟨by simp, by simp⟩).bind fun fd => ?_
  cases fd with
  | none => trivial
  | some fd =>
    refine (idle_of_plain (plain_stat fd)).bind fun st => ?_
    cases st with
    | none => exact idle_close_none fd
    | some st =>
      show Prog.Only Idle (if _ then _ else _)
      split
      · exact idle_close_none fd
      · exact idle_openParts _ _ _

end Plain

/-! ### The loop -/

/-- Where the data comes from. -/
def source (writing : Bool) (fd : Fd) : Stream := if writing then .data else .file fd

/-- Where it goes. -/
def sink (writing : Bool) (fd : Fd) : Stream := if writing then .file fd else .data

/-- A step that reads from one stream at most, writes to one other, and opens nothing. -/
structure Copies (src dst : Stream) (e : Step) : Prop where
  reads : ∀ s n, e.1 = .read s n → s = src
  writes : ∀ s b, e.1 = .write s b → s = dst
  closed : Closed e

lemma Plain.copies {e : Step} (h : Plain e) (src dst : Stream) : Copies src dst e :=
  ⟨fun s n he => absurd he (h.1.1 s n), fun s b he => absurd he (h.1.2 s b), h.2⟩

/-- `rx_write_all` writes all, in any number of pieces. -/
lemma rxWriteAll_runs {target : Stream} (src : Stream) :
    ∀ {fuel : ℕ} {bytes : Bytes} {τ : List Step},
    (rxWriteAll target fuel bytes).Runs τ (some true) →
      writtenTo target τ = bytes ∧ (∀ s, readFrom s τ = []) ∧ ∀ e ∈ τ, Copies src target e
  | 0, [], τ, h => by
    obtain ⟨rfl, -⟩ := Prog.Runs.of_pure h
    exact ⟨rfl, fun _ => rfl, by simp⟩
  | _ + 1, [], τ, h => by
    obtain ⟨rfl, -⟩ := Prog.Runs.of_pure h
    exact ⟨rfl, fun _ => rfl, by simp⟩
  | 0, _ :: _, τ, h => by cases h
  | fuel + 1, b :: bytes, τ, h => by
    obtain ⟨r, σ, ρ, rfl, hask, hk⟩ := Prog.Runs.of_bind h
    obtain rfl := Prog.Runs.of_ask hask
    have hstep : ∀ r : Written (b :: bytes).length,
        Copies src target ⟨.write target (b :: bytes), r⟩ :=
      fun r => ⟨by simp, by simp, by simp [Closed]⟩
    have hstart : ∀ {rest : List Step}, (∀ e ∈ rest, Copies src target e) →
        ∀ e ∈ [⟨Call.write target (b :: bytes), r⟩] ++ rest, Copies src target e := by
      intro rest hrest e he
      rcases List.mem_append.mp he with he | he
      · obtain rfl := List.mem_singleton.mp he
        exact hstep r
      · exact hrest e he
    cases r with
    | interrupted =>
      obtain ⟨h1, h2, h3⟩ := rxWriteAll_runs src hk
      refine ⟨?_, fun s => ?_, hstart h3⟩
      · rw [writtenTo_append, h1]
        rfl
      · rw [readFrom_append, h2]
        rfl
    | failed => cases (Prog.Runs.of_pure hk).2
    | wrote n le =>
      dsimp only at hk
      split at hk
      · cases (Prog.Runs.of_pure hk).2
      · obtain ⟨h1, h2, h3⟩ := rxWriteAll_runs src hk
        refine ⟨?_, fun s => ?_, hstart h3⟩
        · have htaken : writtenTo target [⟨.write target (b :: bytes), .wrote n le⟩] =
            (b :: bytes).take n := by
            simp [writtenTo, writtenBy]
          rw [writtenTo_append, h1, htaken, List.take_append_drop]
        · rw [readFrom_append, h2]
          rfl

/-- What the loop of `stream_file` has done when it ends. -/
structure Moves (fd : Fd) (writing : Bool) (limit size : ℕ) (moved out : Bytes) (τ : List Step) :
    Prop where
  read : moved ++ readFrom (source writing fd) τ = out
  written : moved ++ writtenTo (sink writing fd) τ = out
  steps : ∀ e ∈ τ, Copies (source writing fd) (sink writing fd) e
  short : moved.length ≤ i64Max → out.length ≤ i64Max
  within : writing = false → moved.length ≤ size → out.length ≤ size
  ended : wantedBytes writing limit size out.length = 0 ∨
    writing = true ∧ ∃ σ want le, τ = σ ++ [⟨.read .data want, .got [] le⟩]

/-- Steps that read and write nothing come before. -/
lemma Moves.prepend {fd : Fd} {writing : Bool} {limit size : ℕ} {moved out : Bytes}
    {σ τ : List Step} (h : Moves fd writing limit size moved out τ)
    (hread : readFrom (source writing fd) σ = []) (hwritten : writtenTo (sink writing fd) σ = [])
    (hσ : ∀ e ∈ σ, Copies (source writing fd) (sink writing fd) e) :
    Moves fd writing limit size moved out (σ ++ τ) := by
  refine ⟨?_, ?_, ?_, h.short, h.within, ?_⟩
  · rw [readFrom_append, hread]
    exact h.read
  · rw [writtenTo_append, hwritten]
    exact h.written
  · intro e he
    rcases List.mem_append.mp he with he | he
    · exact hσ e he
    · exact h.steps e he
  · rcases h.ended with h | ⟨hw, ρ, want, le, rfl⟩
    · exact .inl h
    · exact .inr ⟨hw, σ ++ ρ, want, le, (List.append_assoc _ _ _).symm⟩

lemma Moves.plain {fd : Fd} {writing : Bool} {limit size : ℕ} {moved out : Bytes} {σ τ : List Step}
    (h : Moves fd writing limit size moved out τ) (hσ : ∀ e ∈ σ, Plain e) :
    Moves fd writing limit size moved out (σ ++ τ) :=
  h.prepend (readFrom_idle fun e he => (hσ e he).1) (writtenTo_idle fun e he => (hσ e he).1)
    fun e he => (hσ e he).copies _ _

/-- A chunk is read and written before. -/
lemma Moves.chunk {fd : Fd} {writing : Bool} {limit size : ℕ} {moved out bytes : Bytes}
    {σ τ : List Step} (h : Moves fd writing limit size (moved ++ bytes) out τ)
    (hread : readFrom (source writing fd) σ = bytes)
    (hwritten : writtenTo (sink writing fd) σ = bytes)
    (hσ : ∀ e ∈ σ, Copies (source writing fd) (sink writing fd) e)
    (hshort : (moved ++ bytes).length ≤ i64Max)
    (hwithin : writing = false → moved.length ≤ size → (moved ++ bytes).length ≤ size) :
    Moves fd writing limit size moved out (σ ++ τ) := by
  refine ⟨?_, ?_, ?_, fun _ => h.short hshort, fun hw hm => h.within hw (hwithin hw hm), ?_⟩
  · rw [readFrom_append, hread, ← List.append_assoc]
    exact h.read
  · rw [writtenTo_append, hwritten, ← List.append_assoc]
    exact h.written
  · intro e he
    rcases List.mem_append.mp he with he | he
    · exact hσ e he
    · exact h.steps e he
  · rcases h.ended with h | ⟨hw, ρ, want, le, rfl⟩
    · exact .inl h
    · exact .inr ⟨hw, σ ++ ρ, want, le, (List.append_assoc _ _ _).symm⟩

/-- **The loop of `stream_file`** writes what it reads, chunk by chunk. -/
lemma streamLoop_runs {L : Libs} {fd : Fd} {writing : Bool} {limit size steps : ℕ} :
    ∀ {fuel progress : ℕ} {moved out : Bytes}
    {τ : List Step}, (streamLoop L fd writing limit size steps fuel progress moved).Runs τ
      (some (some out)) →
      Moves fd writing limit size moved out τ
  | 0, _, _, _, τ, h => by cases h
  | fuel + 1, progress, moved, out, τ, h => by
    obtain ⟨alive, σ, ρ, rfl, halive, hk⟩ := Prog.Runs.of_bind h
    have hplain : ∀ e ∈ σ, Plain e := plain_alive.of_runs halive
    split at hk
    · cases (Prog.Runs.of_pure hk).2
    split at hk
    next hzero =>
      -- nothing more is wanted
      obtain ⟨rfl, hout⟩ := Prog.Runs.of_pure hk
      obtain rfl := Option.some.inj hout
      refine Moves.plain ⟨?_, ?_, by simp, id, fun _ => id, .inl hzero⟩ hplain
      · exact List.append_nil moved
      · exact List.append_nil moved
    next hwant =>
      obtain ⟨r, σr, ρ, rfl, hread, hr⟩ := Prog.Runs.of_bind hk
      obtain rfl := Prog.Runs.of_ask hread
      have hsrc : ∀ r, Copies (source writing fd) (sink writing fd)
          ⟨.read (source writing fd) (wantedBytes writing limit size moved.length), r⟩ :=
        fun r => ⟨by simp, by simp, by simp [Closed]⟩
      refine Moves.plain ?_ hplain
      cases r with
      | interrupted =>
        refine (streamLoop_runs hr).prepend rfl rfl fun e he => ?_
        obtain rfl := List.mem_singleton.mp he
        exact hsrc .interrupted
      | failed => cases (Prog.Runs.of_pure hr).2
      | got bytes le =>
        dsimp only at hr
        split at hr
        next hnil =>
          -- the end of the data, or of a file that is too short
          obtain ⟨rfl, hout⟩ := Prog.Runs.of_pure hr
          subst hnil
          cases writing with
          | false => cases hout
          | true =>
            obtain rfl : moved = out := Option.some.inj hout
            refine ⟨?_, ?_, fun e he => ?_, id, fun hw => (by cases hw), .inr ⟨rfl, [], _, le, rfl⟩⟩
            · simp [readFrom, readBy]
            · simp [writtenTo, writtenBy]
            · obtain rfl := List.mem_singleton.mp he
              exact hsrc (.got [] le)
        split at hr
        · cases (Prog.Runs.of_pure hr).2
        next hshort =>
          obtain ⟨written, σw, ρ, rfl, hwrite, hw⟩ := Prog.Runs.of_bind hr
          cases written with
          | false => cases (Prog.Runs.of_pure hw).2
          | true =>
            obtain ⟨hashed, σd, ρ, rfl, hdigest, hd⟩ := Prog.Runs.of_bind hw
            cases hashed with
            | false => cases (Prog.Runs.of_pure hd).2
            | true =>
              obtain ⟨progress', σp, ρ, rfl, hprogress, hp⟩ := Prog.Runs.of_bind hd
              cases progress' with
              | none => cases (Prog.Runs.of_pure hp).2
              | some progress' =>
                have hloop :=
                  ((streamLoop_runs hp).plain ((plain_progressAt _ _ _).of_runs hprogress)).plain
                  (plain_digest.of_runs hdigest)
                obtain ⟨hw1, hw2, hw3⟩ := rxWriteAll_runs (source writing fd) hwrite
                refine Moves.chunk
                  (σ := [⟨.read (source writing fd) (wantedBytes writing limit size moved.length),
                  .got bytes le⟩] ++ σw) hloop ?_ ?_ ?_ ?_ ?_
                · rw [readFrom_append, hw2, List.append_nil]
                  simp [readFrom, readBy]
                · rw [writtenTo_append]
                  exact hw1
                · intro e he
                  rcases List.mem_append.mp he with he | he
                  · obtain rfl := List.mem_singleton.mp he
                    exact hsrc (.got bytes le)
                  · exact hw3 e he
                · rw [List.length_append]
                  omega
                · intro hw hm
                  rw [List.length_append]
                  have : wantedBytes writing limit size moved.length ≤ size - moved.length := by
                    rw [hw, wantedBytes]
                    exact Nat.min_le_left _ _
                  omega

/-! ### The end of a stream -/

/-- A step that at most reads a file again. -/
structure Rereads (fd : Fd) (e : Step) : Prop where
  reads : ∀ s n, e.1 = .read s n → s = .file fd
  writes : ∀ s b, e.1 ≠ .write s b
  closed : Closed e

lemma Plain.rereads {e : Step} (h : Plain e) (fd : Fd) : Rereads fd e :=
  ⟨fun s n he => absurd he (h.1.1 s n), h.1.2, h.2⟩

section Ends

variable {L : Libs} {fuel : ℕ} {fd : Fd} {τ : List Step}

lemma rereads_of_plain {α : Type} {p : Helper α} (h : p.Only Plain) : p.Only (Rereads fd) :=
  h.mono fun _ he => he.rereads fd

lemma rereads_readbackLoop {count : ℕ} : ∀ (fuel progress : ℕ) (got : Bytes),
    (readbackLoop L fd count fuel progress got).Only (Rereads fd)
  | 0, _, _ => trivial
  | fuel + 1, progress, got => by
    unfold readbackLoop
    split
    · trivial
    refine (Prog.only_ask fun _ => ⟨by simp, by simp, by simp [Closed]⟩).bind fun r => ?_
    cases r with
    | interrupted => exact rereads_readbackLoop fuel progress got
    | failed => trivial
    | got bytes _ =>
      show Prog.Only (Rereads fd) (if _ then _ else _)
      split
      · trivial
      refine (rereads_of_plain plain_digest).bind fun hashed => ?_
      show Prog.Only (Rereads fd) (if _ then _ else _)
      split
      · trivial
      refine (rereads_of_plain (plain_progressAt _ _ _)).bind fun p => ?_
      cases p with
      | none => trivial
      | some p => exact rereads_readbackLoop fuel p _

lemma rereads_readback (count : ℕ) (digest : Bytes) (before : Stat) :
    (readback L fuel fd count digest before).Only (Rereads fd) := by
  refine (Prog.only_ask fun _ => ⟨by simp, by simp, by simp [Closed]⟩).bind fun r => ?_
  show Prog.Only (Rereads fd) (if _ then _ else _)
  split
  · trivial
  refine (rereads_of_plain plain_digest).bind fun r => ?_
  show Prog.Only (Rereads fd) (if _ then _ else _)
  split
  · trivial
  refine (rereads_readbackLoop fuel 0 []).bind fun got => ?_
  cases got with
  | none => trivial
  | some got =>
    refine (rereads_of_plain (plain_digestFinal got)).bind fun verified => ?_
    cases verified with
    | none => trivial
    | some verified =>
      show Prog.Only (Rereads fd) (if _ then _ else _)
      split
      · trivial
      refine (rereads_of_plain (plain_stat fd)).bind fun after => ?_
      cases after <;> trivial

lemma digestFinal_runs {bytes digest : Bytes}
    (h : (digestFinal L bytes).Runs τ (some (some digest))) :
    L.sha256 bytes = some digest := by
  obtain ⟨ok, σ, ρ, rfl, -, hk⟩ := Prog.Runs.of_bind h
  have hout := (Prog.Runs.of_pure hk).2
  split at hout
  · exact (Option.filter_eq_some_iff.mp hout).1
  · cases hout

/-- A written file that has been read again has not changed. -/
lemma readback_runs {count : ℕ} {digest : Bytes} {before after : Stat}
    (h : (readback L fuel fd count digest before).Runs τ (some (some after))) : after = before := by
  obtain ⟨ok, σ, ρ, rfl, -, h1⟩ := Prog.Runs.of_bind h
  cases ok with
  | false => cases (Prog.Runs.of_pure h1).2
  | true =>
    obtain ⟨ok, σ, ρ, rfl, -, h2⟩ := Prog.Runs.of_bind h1
    cases ok with
    | false => cases (Prog.Runs.of_pure h2).2
    | true =>
      obtain ⟨got, σ, ρ, rfl, -, h3⟩ := Prog.Runs.of_bind h2
      cases got with
      | none => cases (Prog.Runs.of_pure h3).2
      | some got =>
        obtain ⟨verified, σ, ρ, rfl, -, h4⟩ := Prog.Runs.of_bind h3
        cases verified with
        | none => cases (Prog.Runs.of_pure h4).2
        | some verified =>
          dsimp only at h4
          split at h4
          · cases (Prog.Runs.of_pure h4).2
          · obtain ⟨st, σ, ρ, rfl, -, h5⟩ := Prog.Runs.of_bind h4
            cases st with
            | none => cases (Prog.Runs.of_pure h5).2
            | some st =>
              have hout := (Prog.Runs.of_pure h5).2
              split at hout
              next hsame =>
                obtain rfl := Option.some.inj hout
                exact (of_decide_eq_true hsame).symm
              next => cases hout

/-- **The end of a stream**: the node has the size of what was moved, and the digest is that of what
was moved. -/
structure Ends (L : Libs) (fd : Fd) (writing : Bool) (before : Stat) (moved : Bytes) (after : Stat)
    (digest : Bytes) (τ : List Step) : Prop where
  size : after.size = moved.length
  digest : L.sha256 moved = some digest
  steps : ∀ e ∈ τ, Rereads fd e
  /-- A file that was read is as it was before. -/
  same : writing = false → after = before ∧ ∃ ρ, τ = ⟨.statx fd, some after⟩ :: ρ ∧ ∀ e ∈ ρ, Plain e

lemma streamEnd_runs {writing : Bool} {before after : Stat} {moved digest : Bytes}
    (h : (streamEnd L fuel fd writing before moved).Runs τ (some (some (after, digest)))) :
    Ends L fd writing before moved after digest τ := by
  have honly : ∀ e ∈ τ, Rereads fd e := by
    refine Prog.Only.of_runs ?_ h
    refine Prog.Only.bind ?_ fun synced => ?_
    · cases writing
      · trivial
      · exact Prog.only_ask fun _ => ⟨by simp, by simp, by simp [Closed]⟩
    show Prog.Only (Rereads fd) (if _ then _ else _)
    split
    · trivial
    refine (rereads_of_plain (plain_stat fd)).bind fun after => ?_
    cases after with
    | none => trivial
    | some after =>
      show Prog.Only (Rereads fd) (if _ then _ else _)
      split
      · trivial
      refine (rereads_of_plain (plain_digestFinal moved)).bind fun digest => ?_
      cases digest with
      | none => trivial
      | some digest =>
        show Prog.Only (Rereads fd) (if _ then _ else _)
        split
        · refine (rereads_readback _ digest after).bind fun r => ?_
          cases r <;> trivial
        · trivial
  obtain ⟨synced, σs, ρ, rfl, hsync, h1⟩ := Prog.Runs.of_bind h
  cases synced with
  | false => cases (Prog.Runs.of_pure h1).2
  | true =>
    obtain ⟨st, σt, ρ, rfl, hstat, h2⟩ := Prog.Runs.of_bind h1
    cases st with
    | none => cases (Prog.Runs.of_pure h2).2
    | some st =>
      dsimp only at h2
      split at h2
      · cases (Prog.Runs.of_pure h2).2
      next hchecks =>
        rw [Bool.or_eq_true, not_or, bne_iff_ne, not_not] at hchecks
        obtain ⟨d, σd, ρ, rfl, hdigest, h3⟩ := Prog.Runs.of_bind h2
        cases d with
        | none => cases (Prog.Runs.of_pure h3).2
        | some d =>
          have hsha := digestFinal_runs hdigest
          cases writing with
          | true =>
            obtain ⟨st', σr, ρ, rfl, hback, h4⟩ := Prog.Runs.of_bind h3
            cases st' with
            | none => cases (Prog.Runs.of_pure h4).2
            | some st' =>
              obtain ⟨rfl, hout⟩ := Prog.Runs.of_pure h4
              obtain ⟨rfl, rfl⟩ := Prod.mk.inj (Option.some.inj hout)
              obtain rfl := readback_runs hback
              exact ⟨hchecks.2, hsha, honly, fun hw => by cases hw⟩
          | false =>
            obtain ⟨rfl, hout⟩ := Prog.Runs.of_pure h3
            obtain ⟨rfl, rfl⟩ := Prod.mk.inj (Option.some.inj hout)
            have hsame : before = st := by simpa [Stat.sameRuntime] using hchecks.1
            refine ⟨hchecks.2, hsha, honly, fun _ => ⟨hsame.symm, σd, ?_, ?_⟩⟩
            · obtain ⟨rfl, -⟩ := Prog.Runs.of_pure hsync
              obtain rfl := Prog.Runs.of_ask hstat
              rw [List.append_nil]
              rfl
            · exact (plain_digestFinal moved).of_runs hdigest

end Ends

/-! ### Commands -/

/-- The details of a stream: the node, and the digest of the bytes. -/
def streamDetails (st : Stat) (digest : Bytes) : Json :=
  (rxNodeJson st).add "sha256" (.string (hexBytes digest))

section Commands

variable {L : Libs} {fuel : ℕ} {fd : Fd} {τ : List Step}

/-- **A run of `stream_file`**: a status, the loop, and the end. -/
lemma streamFile_runs {writing : Bool} {limit : ℕ} {details : Json}
    (h : (streamFile L fuel fd writing limit).Runs τ (some (some details))) :
    ∃ before moved after digest σ ρ, τ = ⟨.statx fd, some before⟩ :: (⟨.digest, true⟩ :: σ ++ ρ) ∧
      Moves fd writing limit before.size [] moved σ ∧
      Ends L fd writing before moved after digest ρ ∧
      details = streamDetails after digest := by
  obtain ⟨st, σ1, ρ, rfl, hstat, h1⟩ := Prog.Runs.of_bind h
  obtain rfl := Prog.Runs.of_ask hstat
  cases st with
  | none => cases (Prog.Runs.of_pure h1).2
  | some before =>
    dsimp only at h1
    split at h1
    · cases (Prog.Runs.of_pure h1).2
    · obtain ⟨ok, σ2, ρ, rfl, hdigest, h2⟩ := Prog.Runs.of_bind h1
      obtain rfl := Prog.Runs.of_ask hdigest
      cases ok with
      | false => cases (Prog.Runs.of_pure h2).2
      | true =>
        obtain ⟨moved, σ3, ρ, rfl, hloop, h3⟩ := Prog.Runs.of_bind h2
        cases moved with
        | none => cases (Prog.Runs.of_pure h3).2
        | some moved =>
          obtain ⟨r, σ4, ρ, rfl, hend, h4⟩ := Prog.Runs.of_bind h3
          cases r with
          | none => cases (Prog.Runs.of_pure h4).2
          | some r =>
            obtain ⟨rfl, hout⟩ := Prog.Runs.of_pure h4
            obtain rfl := Option.some.inj hout
            refine ⟨before, moved, r.1, r.2, σ3, σ4, ?_, streamLoop_runs hloop,
              streamEnd_runs hend, rfl⟩
            rw [List.append_nil]
            rfl

/-- What a `write` has done with its data. -/
structure Stored (L : Libs) (fd : Fd) (expected : Option ℕ) (details : Json) (τ : List Step) :
    Prop where
  closed : ∀ e ∈ τ, Closed e
  same : writtenTo (.file fd) τ = readFrom .data τ
  short : (readFrom .data τ).length ≤ i64Max
  reported : ∃ st digest, details = streamDetails st digest ∧ st.size = (readFrom .data τ).length ∧
    L.sha256 (readFrom .data τ) = some digest
  /-- The data has ended, or one byte more than expected has come. -/
  ended : (∃ σ want le ρ, τ = σ ++ ⟨.read .data want, .got [] le⟩ :: ρ ∧ ∀ e ∈ ρ, ∀ n,
    e.1 ≠ .read .data n) ∨
    ∃ n, expected = some n ∧ n < (readFrom .data τ).length
  /-- The last status has the expected size. -/
  sealed : ∀ n, expected = some n → ∃ σ st, τ = σ ++ [⟨.statx fd, some st⟩] ∧ st.size = n

/-- The data a `write` has read is what it has written. -/
lemma writeData_stream {limit : ℕ} {details : Json}
    (h : (streamFile L fuel fd true limit).Runs τ (some (some details))) :
    (∀ e ∈ τ, Closed e) ∧ writtenTo (.file fd) τ = readFrom .data τ ∧
    (readFrom .data τ).length ≤ i64Max ∧
      (∃ st digest, details = streamDetails st digest ∧ st.size = (readFrom .data τ).length ∧
        L.sha256 (readFrom .data τ) = some digest) ∧
      ((∃ σ want le ρ, τ = σ ++ ⟨.read .data want, .got [] le⟩ :: ρ ∧ ∀ e ∈ ρ, ∀ n,
        e.1 ≠ .read .data n) ∨
        wantedBytes true limit 0 (readFrom .data τ).length = 0) := by
  obtain ⟨before, moved, after, digest, σ, ρ, rfl, hloop, hend, rfl⟩ := streamFile_runs h
  have hρ : readFrom .data ρ = [] := readFrom_eq_nil fun e he n hr => by
    have := (hend.steps e he).reads _ _ hr
    cases this
  have hρw : writtenTo (.file fd) ρ = [] := writtenTo_eq_nil fun e he b =>
    (hend.steps e he).writes _ b
  have hread : readFrom .data (⟨.statx fd, some before⟩ :: (⟨.digest, true⟩ :: σ ++ ρ)) =
      moved := by
    rw [readFrom_cons, readFrom_append, hρ, List.append_nil, readFrom_cons]
    exact hloop.read
  have hwritten : writtenTo (.file fd) (⟨.statx fd, some before⟩ :: (⟨.digest, true⟩ :: σ ++ ρ)) =
      moved := by
    rw [writtenTo_cons, writtenTo_append, hρw, List.append_nil, writtenTo_cons]
    exact hloop.written
  rw [hread, hwritten]
  refine ⟨?_, rfl, hloop.short (Nat.zero_le _), ⟨after, digest, rfl, hend.size, hend.digest⟩, ?_⟩
  · intro e he
    rw [List.mem_cons, List.cons_append, List.mem_cons, List.mem_append] at he
    rcases he with rfl | rfl | he | he
    · exact ⟨by simp, by simp⟩
    · exact ⟨by simp, by simp⟩
    · exact (hloop.steps e he).closed
    · exact (hend.steps e he).closed
  · rcases hloop.ended with hzero | ⟨-, σ', want, le, rfl⟩
    · exact .inr hzero
    · refine .inl ⟨⟨.statx fd, some before⟩ :: ⟨.digest, true⟩ :: σ', want, le, ρ, by simp,
        fun e he n hr => ?_⟩
      have := (hend.steps e he).reads _ _ hr
      cases this

/-- **The data of a `write`.** -/
lemma writeData_runs {expected : Option ℕ} {details : Json}
    (h : (writeData L fuel fd expected).Runs τ (some (some details))) :
    Stored L fd expected details τ := by
  unfold writeData at h
  obtain ⟨r, σ, ρ, rfl, hstream, h1⟩ := Prog.Runs.of_bind h
  cases r with
  | none => cases (Prog.Runs.of_pure h1).2
  | some details' =>
    obtain ⟨hclosed, hsame, hshort, hreport, hended⟩ := writeData_stream hstream
    cases expected with
    | none =>
      obtain ⟨rfl, hout⟩ := Prog.Runs.of_pure h1
      obtain rfl := Option.some.inj hout
      rw [List.append_nil]
      refine ⟨hclosed, hsame, hshort, hreport, hended.imp_right fun hzero => ?_,
        fun n hn => by cases hn⟩
      -- without a limit there is always room for more
      simp [wantedBytes, dataMax] at hzero
    | some n =>
      obtain ⟨st, σ2, ρ, rfl, hstat, h2⟩ := Prog.Runs.of_bind h1
      obtain rfl := Prog.Runs.of_ask hstat
      cases st with
      | none => cases (Prog.Runs.of_pure h2).2
      | some st =>
        obtain ⟨rfl, hout⟩ := Prog.Runs.of_pure h2
        split at hout
        next hsize =>
          obtain rfl := Option.some.inj hout
          have hread : readFrom .data (σ ++ ([⟨.statx fd, some st⟩] ++ [])) = readFrom .data σ := by
            rw [readFrom_append]
            exact List.append_nil _
          have hwritten : writtenTo (.file fd) (σ ++ ([⟨.statx fd, some st⟩] ++ [])) =
              writtenTo (.file fd) σ := by
            rw [writtenTo_append]
            exact List.append_nil _
          refine ⟨?_, ?_, ?_, ?_, ?_, ?_⟩
          · intro e he
            rcases List.mem_append.mp he with he | he
            · exact hclosed e he
            · obtain rfl := List.mem_singleton.mp he
              exact ⟨by simp, by simp⟩
          · rw [hread, hwritten]
            exact hsame
          · rw [hread]
            exact hshort
          · rw [hread]
            exact hreport
          · rw [hread]
            rcases hended with ⟨σ', want, le, ρ, rfl, hρ⟩ | hzero
            · refine .inl ⟨σ', want, le, ρ ++ [⟨.statx fd, some st⟩], by simp, fun e he m => ?_⟩
              rcases List.mem_append.mp he with he | he
              · exact hρ e he m
              · obtain rfl := List.mem_singleton.mp he
                simp
            · refine .inr ⟨n, rfl, ?_⟩
              have hwant : wantedBytes true (n + 1) 0 (readFrom .data σ).length =
                  min (n + 1 - (readFrom .data σ).length) dataMax := by simp [wantedBytes]
              have hmax : dataMax = 131072 := rfl
              rw [hwant] at hzero
              omega
          · rintro m hm
            obtain rfl := Option.some.inj hm
            exact ⟨σ, st, by simp, hsize⟩
        next => cases hout

/-- **A run of `ack` that is accepted** has sent its event. -/
lemma ack_runs {c : Context} {event p : Json} (h : (ack L c event).Runs τ (some (some p))) :
    ∃ a, ⟨.note (.accepted event a), ()⟩ ∈ τ := by
  obtain ⟨alive, σ1, ρ, rfl, -, h1⟩ := Prog.Runs.of_bind h
  cases alive with
  | false =>
    obtain ⟨_, _, _, rfl, -, h2⟩ := Prog.Runs.of_bind h1
    cases (Prog.Runs.of_pure h2).2
  | true =>
    obtain ⟨sent, σ2, ρ, rfl, -, h2⟩ := Prog.Runs.of_bind h1
    cases sent with
    | false =>
      obtain ⟨_, _, _, rfl, -, h3⟩ := Prog.Runs.of_bind h2
      cases (Prog.Runs.of_pure h3).2
    | true =>
      obtain ⟨a, σ3, ρ, rfl, -, h3⟩ := Prog.Runs.of_bind h2
      cases a with
      | none =>
        obtain ⟨_, _, _, rfl, -, h4⟩ := Prog.Runs.of_bind h3
        cases (Prog.Runs.of_pure h4).2
      | some a =>
        dsimp only at h3
        cases hproof : ackProof L c event a with
        | none =>
          rw [hproof] at h3
          obtain ⟨_, _, _, rfl, -, h4⟩ := Prog.Runs.of_bind h3
          cases (Prog.Runs.of_pure h4).2
        | some p' =>
          rw [hproof] at h3
          obtain ⟨alive, σ4, ρ, rfl, -, h4⟩ := Prog.Runs.of_bind h3
          cases alive with
          | false =>
            obtain ⟨_, _, _, rfl, -, h5⟩ := Prog.Runs.of_bind h4
            cases (Prog.Runs.of_pure h5).2
          | true =>
            simp only [Bool.not_true, Bool.false_eq_true, if_false] at h4
            split at h4
            · obtain ⟨u, σ5, ρ, rfl, hnote, h5⟩ := Prog.Runs.of_bind h4
              obtain rfl := Prog.Runs.of_ask hnote
              exact ⟨a, by simp⟩
            · obtain ⟨_, _, _, rfl, -, h5⟩ := Prog.Runs.of_bind h4
              cases (Prog.Runs.of_pure h5).2

/-- **A run of `write`**: the file is created, and then its data is moved. -/
lemma writeNew_runs {fs : Fs} {t : Task} {parent : Fd} {o : Outcome} {details : Json}
    (hd : o.details = some details) (h : (writeNew L fuel fs t parent).Runs τ (some o)) :
    ∃ fd expected σ ρ, τ = ⟨.openat parent (baseName t.path) ⟨false, true, true⟩,
      some fd⟩ :: (σ ++ ρ) ∧
      (∀ e ∈ σ, Plain e) ∧ expectedSize t.command = some expected ∧
      Stored L fd expected details ρ := by
  unfold writeNew at h
  split at h
  · obtain ⟨-, rfl⟩ := Prog.Runs.of_pure h
    cases hd
  split at h
  · obtain ⟨-, rfl⟩ := Prog.Runs.of_pure h
    cases hd
  next expected hexpected =>
    obtain ⟨fd, σ1, ρ, rfl, hopen, h1⟩ := Prog.Runs.of_bind h
    obtain rfl := Prog.Runs.of_ask hopen
    cases fd with
    | none =>
      obtain ⟨-, rfl⟩ := Prog.Runs.of_pure h1
      cases hd
    | some fd =>
      obtain ⟨st, σ2, ρ, rfl, hstat, h2⟩ := Prog.Runs.of_bind h1
      cases st with
      | none =>
        obtain ⟨-, rfl⟩ := Prog.Runs.of_pure h2
        cases hd
      | some st =>
        obtain ⟨p, σ3, ρ, rfl, hack, h3⟩ := Prog.Runs.of_bind h2
        cases p with
        | none =>
          obtain ⟨-, rfl⟩ := Prog.Runs.of_pure h3
          cases hd
        | some p =>
          obtain ⟨r, σ4, ρ, rfl, hwrite, h4⟩ := Prog.Runs.of_bind h3
          obtain ⟨rfl, rfl⟩ := Prog.Runs.of_pure h4
          obtain rfl : r = some details := hd
          refine ⟨fd, expected, σ2 ++ σ3, σ4, by simp, fun e he => ?_, hexpected,
            writeData_runs hwrite⟩
          rcases List.mem_append.mp he with he | he
          · exact (plain_stat fd).of_runs hstat e he
          · exact (plain_ack _ _).of_runs hack e he

/-- The steps of `create` before a `write` of a new file. -/
lemma create_write_runs {fs : Fs} {t : Task} {o : Outcome} {details : Json}
    (hd : o.details = some details) (h : (create L fuel fs t .write).Runs τ (some o)) :
    ∃ parent σ ρ, τ = σ ++ ρ ∧ (∀ e ∈ σ, Idle e) ∧
      (writeNew L fuel fs t parent).Runs ρ (some o) := by
  unfold create at h
  obtain ⟨parent, σ, ρ, rfl, hparent, h1⟩ := Prog.Runs.of_bind h
  cases parent with
  | none =>
    obtain ⟨-, rfl⟩ := Prog.Runs.of_pure h1
    cases hd
  | some parent =>
    refine ⟨parent, σ, ρ, rfl, (idle_openBound _ _ _ _).of_runs hparent, ?_⟩
    dsimp only at h1
    split at h1
    · obtain ⟨-, rfl⟩ := Prog.Runs.of_pure h1
      cases hd
    next key =>
      split at h1
      · obtain ⟨-, rfl⟩ := Prog.Runs.of_pure h1
        cases hd
      · exact h1

/-- What comes before the work of a command moves no data. -/
lemma plain_took (command : Json) {pre : List Step} (hpre : ∀ e ∈ pre, Plain e) :
    ∀ e ∈ (⟨.note (.took command), ()⟩ :: pre : List Step), Plain e := by
  intro e he
  rcases List.mem_cons.mp he with rfl | he
  · exact plain_of (by simp) (by simp) (by simp) (by simp)
  · exact hpre e he

/-- The result of a command. -/
def resultEvent (fs : Fs) (t : Task) (details : Json) : Json :=
  let writes := decide (Operation.of t.op = .write)
  (eventFor fs.context "result" t.op t.path t.toPath
    ((t.seq + if writes then 2 else 1) % 2 ^ 64)).add "node" details

/-- **A command that succeeds**: it is taken and announced, its work has details, and these are in
the result that is acknowledged. -/
lemma rxCommand_runs {fs fs' : Fs} {command : Json}
    (h : (rxCommand L fuel fs command).Runs τ (some (some fs'))) :
    ∃ t o details a pre mid post, τ = ⟨.note (.took command), ()⟩ :: pre ++ (mid ++ post) ∧
      (∀ e ∈ pre, Plain e) ∧
      (∀ e ∈ post, Plain e) ∧ t.command = command ∧ rxString command "operation" 24 = some t.op ∧
      rxString command "path" 4095 = some t.path ∧ t.seq < 2 ^ 64 ∧
      (ack L fs.context (eventFor fs.context "intent" t.op t.path t.toPath t.seq)).Runs pre
        (some (some t.proof)) ∧
      (perform L fuel fs t).Runs mid (some o) ∧ o.details = some details ∧
      ⟨.note (.accepted (resultEvent fs t details) a), ()⟩ ∈ post := by
  unfold rxCommand at h
  obtain ⟨_, σ1, ρ, rfl, hnote, h1⟩ := Prog.Runs.of_bind h
  have hreject : ∀ {σ : List Step}, ¬ (reject : Helper (Option Fs)).Runs σ (some (some fs')) := by
    intro σ hr
    obtain ⟨_, _, _, rfl, -, h2⟩ := Prog.Runs.of_bind hr
    cases (Prog.Runs.of_pure h2).2
  split at h1
  next op path seq hop hpath hseq =>
    dsimp only at h1
    split at h1
    · exact absurd h1 hreject
    next hadm =>
      have hlt : seq < 2 ^ 64 := by
        simp only [Bool.not_eq_true', Bool.not_eq_false, admitted, Bool.and_eq_true,
          decide_eq_true_eq] at hadm
        have := hadm.1.1.1.1.1
        unfold u64Max at this
        omega
      obtain ⟨proof, σ2, ρ, rfl, hack, h2⟩ := Prog.Runs.of_bind h1
      cases proof with
      | none => cases (Prog.Runs.of_pure h2).2
      | some proof =>
        obtain ⟨o, σ3, ρ, rfl, hperform, h3⟩ := Prog.Runs.of_bind h2
        obtain ⟨r, σ4, ρ, rfl, hrelease, h4⟩ := Prog.Runs.of_bind h3
        cases r with
        | none => cases (Prog.Runs.of_pure h4).2
        | some details =>
          have hdetails : o.details = some details := by
            obtain ⟨c1, _, _, rfl, -, r1⟩ := Prog.Runs.of_bind hrelease
            obtain ⟨c2, _, _, rfl, -, r2⟩ := Prog.Runs.of_bind r1
            have hout := (Prog.Runs.of_pure r2).2
            split at hout
            · exact hout
            · cases hout
          unfold report at h4
          dsimp only at h4
          split at h4
          · cases (Prog.Runs.of_pure h4).2
          · obtain ⟨p, σ5, ρ, rfl, hack', h5⟩ := Prog.Runs.of_bind h4
            cases p with
            | none => cases (Prog.Runs.of_pure h5).2
            | some p =>
              obtain ⟨_, σ6, ρ, rfl, hnote', h6⟩ := Prog.Runs.of_bind h5
              obtain ⟨rfl, -⟩ := Prog.Runs.of_pure h6
              obtain ⟨a, ha⟩ := ack_runs hack'
              obtain rfl := Prog.Runs.of_ask hnote
              refine ⟨⟨command, op, path, rxString command "to" 4095, seq, proof⟩, o,
                details, a, σ2, σ3,
                σ4 ++ (σ5 ++ σ6), by
                  simp, (plain_ack _ _).of_runs hack, fun e he => ?_, rfl, hop, hpath, hlt, hack,
                hperform, hdetails, ?_⟩
              · rcases List.mem_append.mp he with he | he
                · exact (plain_release o).of_runs hrelease e he
                · rcases List.mem_append.mp he with he | he
                  · exact (plain_ack _ _).of_runs hack' e he
                  · exact (plain_note _).of_runs hnote' e he
              · refine List.mem_append_right _ (List.mem_append_left _ ?_)
                exact ha
  next => exact absurd h1 hreject

end Commands

/-! ### What a write stores -/

/-- What is relied on: the data pipe delivers `data`, in any chunks and then its end, and the status
of a file that was created in the run has the size of what was written to it. -/
def Fits (data : Bytes) (h : List Step) : Step → Prop
  | ⟨.read .data _, .got bytes _⟩ =>
    readFrom .data h ++ bytes <+: data ∧ (bytes = [] → readFrom .data h = data)
  | ⟨.statx fd, some st⟩ =>
    match contentOf fd h with
    | some content => st.size = content.length
    | none => True
  | _ => True

/-- **What a `write` command stores.** -/
structure WriteExact (L : Libs) (fs : Fs) (command : Json) (data : Bytes) (τ : List Step) :
    Prop where
  /-- The mode is `stream`, or it is `fixed` with the size of the data. -/
  mode : expectedSize command = some none ∨ expectedSize command = some (some data.length)
  short : data.length ≤ i64Max
  /-- A file with the name of the command is created, has the data, and is reported with its size
  and its digest in a result that is acknowledged. -/
  stored : ∃ t fd dir st digest a,
    ⟨.openat dir (baseName t.path) ⟨false, true, true⟩, some fd⟩ ∈ τ ∧
    contentOf fd τ = some data ∧ t.command = command ∧ rxString command "path" 4095 = some t.path ∧
    st.size = data.length ∧ L.sha256 data = some digest ∧
    ⟨.note (.accepted (resultEvent fs t (streamDetails st digest)) a), ()⟩ ∈ τ

section Write

variable {L : Libs} {fuel : ℕ} {fs fs' : Fs} {command : Json} {op data : Bytes} {τ : List Step}

/-- A status fits what was written. -/
lemma fits_size {h : List Step} {fd : Fd} {st : Stat} {content : Bytes}
    (hfits : Fits data h ⟨.statx fd, some st⟩) (hc : contentOf fd h = some content) :
    st.size = content.length := by
  have hfits : match contentOf fd h with
    | some content => st.size = content.length
    | none => True := hfits
  rw [hc] at hfits
  exact hfits

/-- The data a run has read when it has met its end. -/
lemma fits_end {h : List Step} {want : ℕ} {le : ([] : Bytes).length ≤ want}
    (hfits : Fits data h ⟨.read .data want, .got [] le⟩) : readFrom .data h = data :=
  hfits.2 rfl

theorem write_exact (hop : rxString command "operation" 24 = some op)
    (hwrite : Operation.of op = .write) (h : (rxCommand L fuel fs command).Runs τ (some (some fs')))
    (hfits : (history (Fits data)).Along (Fits data) [] τ) :
    WriteExact L fs command data τ := by
  obtain ⟨t, o, details, a, pre', mid, post, rfl, hpre', hpost, htc, hto, hpath, -, -, hperform,
      hdetails, ha⟩ :=
    rxCommand_runs h
  obtain rfl : op = t.op := Option.some.inj (hop.symm.trans hto)
  have hpre := plain_took command hpre'
  generalize (⟨.note (.took command), ()⟩ :: pre' : List Step) = pre at hpre hfits ⊢
  unfold perform at hperform
  rw [hwrite] at hperform
  obtain ⟨parent, σ, ρ, rfl, hσ, hnew⟩ := create_write_runs hdetails hperform
  obtain ⟨fd, expected, σ', ρ', rfl, hσ', hexpected, hstored⟩ := writeNew_runs hdetails hnew
  rw [htc] at hexpected
  -- the run, cut where the file is created and where its data begins
  set create : Step := ⟨.openat parent (baseName t.path) ⟨false, true, true⟩, some fd⟩ with hcreate
  have hτ : pre ++ (σ ++ create :: (σ' ++ ρ') ++ post) = (pre ++ σ) ++
      create :: (σ' ++ (ρ' ++ post)) := by simp
  have hreadBefore : ∀ ρ : List Step, readFrom .data ((pre ++ σ) ++ create :: (σ' ++ ρ)) =
      readFrom .data ρ := by
    intro ρ
    rw [readFrom_append, readFrom_append, readFrom_cons, readFrom_append,
      readFrom_idle fun e he => (hpre e he).1,
      readFrom_idle hσ, readFrom_idle fun e he => (hσ' e he).1]
    rfl
  have hcontent : ∀ ρ : List Step, (∀ e ∈ ρ, Closed e) →
      contentOf fd ((pre ++ σ) ++ create :: (σ' ++ ρ)) = some (writtenTo (.file fd) ρ) := by
    intro ρ hρ
    rw [contentOf_created rfl, writtenTo_append, writtenTo_idle fun e he => (hσ' e he).1]
    · rfl
    · intro e he
      rcases List.mem_append.mp he with he | he
      · exact (hσ' e he).2
      · exact hρ e he
  rw [hτ] at hfits ⊢
  -- the status a fixed length is compared with has the size of the data
  have hsealed : ∀ n, expected = some n → n = (readFrom .data ρ').length := by
    intro n hn
    obtain ⟨ρ1, st, rfl, hsize⟩ := hstored.sealed n hn
    have hpos : (pre ++ σ) ++ create :: (σ' ++ (ρ1 ++ [⟨.statx fd, some st⟩] ++ post)) =
        ((pre ++ σ) ++ create :: (σ' ++ ρ1)) ++ ⟨.statx fd, some st⟩ :: post := by simp
    rw [hpos] at hfits
    have hst :=
      fits_size (along_history hfits)
        (hcontent ρ1 fun e he => hstored.closed e (List.mem_append_left _ he))
    have hlast : writtenTo (.file fd) (ρ1 ++ [⟨.statx fd, some st⟩]) = writtenTo (.file fd) ρ1 := by
      rw [writtenTo_append]
      exact List.append_nil _
    rw [← hstored.same, hlast, ← hst, hsize]
  have hdata : readFrom .data ρ' = data := by
    rcases hstored.ended with ⟨ρ1, want, le, ρ2, rfl, hρ2⟩ | ⟨n, hn, hlt⟩
    · have hpos :
          (pre ++ σ) ++ create :: (σ' ++ (ρ1 ++ ⟨.read .data want, .got [] le⟩ :: ρ2 ++ post)) =
          ((pre ++ σ) ++ create :: (σ' ++ ρ1)) ++ ⟨.read .data want, .got [] le⟩ ::
            (ρ2 ++ post) := by simp
      rw [hpos] at hfits
      have hend := fits_end (along_history hfits)
      rw [List.nil_append, hreadBefore] at hend
      rw [readFrom_append, readFrom_cons, readFrom_eq_nil hρ2, hend]
      exact List.append_nil _
    · have := hsealed n hn
      omega
  obtain ⟨st, digest, rfl, hsize, hsha⟩ := hstored.reported
  rw [hdata] at hsize hsha
  refine ⟨?_, hdata ▸ hstored.short, t, fd, parent, st, digest, a, by simp [hcreate], ?_, htc,
    hpath, hsize, hsha,
    by simp [ha]⟩
  · rw [hexpected]
    cases expected with
    | none => exact .inl rfl
    | some n =>
      rw [hsealed n rfl, hdata]
      exact .inr rfl
  · rw [hcontent _ fun e he => ?_, writtenTo_append, hstored.same, hdata,
      writtenTo_idle fun e he => (hpost e he).1,
      List.append_nil]
    rcases List.mem_append.mp he with he | he
    · exact hstored.closed e he
    · exact (hpost e he).2

end Write

/-! ### What a read delivers -/

/-- A descriptor was opened along a path, with every node on the way as the acknowledged proof has
it, and nothing has been opened since. -/
def Opened (L : Libs) (fs : Fs) (s : World) (path : Bytes) (fd : Fd) (τ : List Step) : Prop :=
  ∃ pre rest w proof, τ = pre ++ rest ∧ (∀ e ∈ pre, Idle e) ∧ (∀ e ∈ rest, Closed e) ∧
    ((confinement L fs.context).after s pre).table fd = some w ∧
    ((confinement L fs.context).after s pre).proof = some proof ∧
    w.names = parts path ∧ w.Bound L proof fs.rootStat.device

/-- **What a `read` command delivers.** -/
structure ReadExact (L : Libs) (fs : Fs) (s : World) (command : Json) (τ : List Step) (fd : Fd)
    (st : Stat) : Prop where
  /-- The descriptor is that of the path of the command. -/
  opened : ∃ path, rxString command "path" 4095 = some path ∧ Opened L fs s path fd τ
  /-- The status of the file is the same before and after all the data. -/
  same : ∃ pre mid post, τ = pre ++ ⟨.statx fd, some st⟩ :: (mid ++ ⟨.statx fd, some st⟩ :: post) ∧
    (∀ e ∈ pre, Idle e) ∧ ∀ e ∈ post, Idle e
  delivered : writtenTo .data τ = readFrom (.file fd) τ
  size : (writtenTo .data τ).length = st.size
  /-- It is reported with the digest of the data in a result that is acknowledged. -/
  reported : ∃ t digest a, t.command = command ∧ L.sha256 (writtenTo .data τ) = some digest ∧
    ⟨.note (.accepted (resultEvent fs t (streamDetails st digest)) a), ()⟩ ∈ τ

/-- All of a file is delivered, when what is read from it are its bytes. -/
lemma ReadExact.file {L : Libs} {fs : Fs} {s : World} {command : Json} {τ : List Step} {fd : Fd}
    {st : Stat} (h : ReadExact L fs s command τ fd st) {file : Bytes}
    (hsize : st.size = file.length) (hread : readFrom (.file fd) τ <+: file) :
    writtenTo .data τ = file := by
  have hlen := h.size
  rw [h.delivered] at hlen ⊢
  exact hread.eq_of_length (hlen.trans hsize)

section Read

variable {L : Libs} {fuel : ℕ} {fs fs' : Fs} {command : Json} {op : Bytes} {τ : List Step}

/-- **A run of `read`**: the file is opened, and streamed between two looks at it. -/
lemma inspect_read_runs {t : Task} {o : Outcome} {details : Json} (hd : o.details = some details)
    (h : (inspect L fuel fs t .read).Runs τ (some o)) :
    ∃ fd σ σ' mid ρ, τ = σ ++ (σ' ++ (mid ++ ρ)) ∧
      (openBound L fs t.path t.proof readOnly).Runs σ (some (some fd)) ∧ (∀ e ∈ σ', Plain e) ∧
      (∀ e ∈ ρ, Plain e) ∧ (streamFile L fuel fd false 0).Runs mid (some (some details)) := by
  unfold inspect at h
  obtain ⟨fd, σ1, ρ, rfl, hopen, h1⟩ := Prog.Runs.of_bind h
  cases fd with
  | none =>
    obtain ⟨-, rfl⟩ := Prog.Runs.of_pure h1
    cases hd
  | some fd =>
    obtain ⟨st, σ2, ρ, rfl, hstat, h2⟩ := Prog.Runs.of_bind h1
    cases st with
    | none =>
      obtain ⟨-, rfl⟩ := Prog.Runs.of_pure h2
      cases hd
    | some before =>
      obtain ⟨r, σ3, ρ, rfl, hnode, h3⟩ := Prog.Runs.of_bind h2
      cases r with
      | none =>
        obtain ⟨-, rfl⟩ := Prog.Runs.of_pure h3
        cases hd
      | some details' =>
        obtain ⟨after, σ4, ρ, rfl, hstat', h4⟩ := Prog.Runs.of_bind h3
        cases after with
        | none =>
          obtain ⟨-, rfl⟩ := Prog.Runs.of_pure h4
          cases hd
        | some after =>
          obtain ⟨rfl, rfl⟩ := Prog.Runs.of_pure h4
          obtain rfl : details' = details := by simpa using hd
          refine ⟨fd, σ1, σ2, σ3, σ4, by simp, hopen, (plain_stat fd).of_runs hstat,
            (plain_stat fd).of_runs hstat', ?_⟩
          unfold inspectNode at hnode
          dsimp only at hnode
          split at hnode
          · cases (Prog.Runs.of_pure hnode).2
          · exact hnode

/-- After the intent of a command is acknowledged, its path is opened along its proof. -/
lemma opened_runs {s : World} {t : Task} {fd : Fd} {pre σ : List Step} (hs : Rooted fs s)
    (hlt : t.seq < 2 ^ 64)
    (hack : (ack L fs.context (eventFor fs.context "intent" t.op t.path t.toPath t.seq)).Runs pre
      (some (some t.proof)))
    (hopen : (openBound L fs t.path t.proof readOnly).Runs σ (some (some fd)))
    (hk : (confinement L fs.context).Along World.Kernel s (pre ++ σ)) :
    ∃ w, ((confinement L fs.context).after s (pre ++ σ)).table fd = some w ∧
      ((confinement L fs.context).after s (pre ++ σ)).proof = some t.proof ∧
      w.names = parts t.path ∧
      w.Bound L t.proof fs.rootStat.device := by
  obtain ⟨hk1, hk2⟩ := Contract.Along.append _ hk
  have hi : phase (eventFor fs.context "intent" t.op t.path t.toPath t.seq) = some .intent := by
    rw [eventFor_eq]
    exact (event_number .intent fs.context t.op t.path t.toPath [] hlt).1
  obtain ⟨hs1, hproof⟩ := ((ack_confined hs).along hack hk1).2 _ rfl
  have hflags : readOnly.exclusive = false := rfl
  have hopens := ((openBound_confined (c := fs.context) t.path hflags hs1).along hopen hk2).2 _ rfl
  obtain ⟨-, w, hafter, hnames, hbound⟩ := hopens.2 fd rfl
  refine ⟨w, ?_, ?_, hnames, hbound⟩
  · rw [Contract.after_append, hafter, set_table_self]
  · rw [Contract.after_append, hafter, set_proof]
    exact hproof _ rfl hi

theorem read_exact {s : World} (hop : rxString command "operation" 24 = some op)
    (hread : Operation.of op = .read) (h : (rxCommand L fuel fs command).Runs τ (some (some fs')))
    (hs : Rooted fs s) (hk : (confinement L fs.context).Along World.Kernel s τ) :
    ∃ fd st, ReadExact L fs s command τ fd st := by
  obtain ⟨t, o, details, a, pre, mid, post, rfl, hpre, hpost, htc, hto, hpath, hlt, hack, hperform,
      hdetails, ha⟩ :=
    rxCommand_runs h
  obtain rfl : op = t.op := Option.some.inj (hop.symm.trans hto)
  unfold perform at hperform
  rw [hread] at hperform
  obtain ⟨fd, σ, σ', mid, ρ, rfl, hopen, hσ', hρ, hstream⟩ := inspect_read_runs hdetails hperform
  obtain ⟨before, moved, after, digest, σl, ρe, rfl, hloop, hend, rfl⟩ := streamFile_runs hstream
  obtain ⟨rfl, ρp, rfl, hρp⟩ := hend.same rfl
  -- the data lies between the two looks of `stream_file`
  set look : Step := ⟨.statx fd, some after⟩ with hlook
  set took : Step := ⟨.note (.took command), ()⟩ with htook
  have hcut :
      took :: pre ++ (σ ++ (σ' ++ (look :: (⟨.digest, true⟩ :: σl ++ look :: ρp) ++ ρ)) ++ post) =
      (took :: pre ++ σ) ++
        (σ' ++ look :: (⟨.digest, true⟩ :: σl ++ look :: (ρp ++ (ρ ++ post)))) := by simp
  have hpre := plain_took command hpre
  have hbegin : ∀ e ∈ took :: pre ++ σ, Idle e := by
    intro e he
    rcases List.mem_append.mp he with he | he
    · exact (hpre e he).1
    · exact (idle_openBound _ _ _ _).of_runs hopen e he
  have hafter : ∀ e ∈ ρp ++ (ρ ++ post), Plain e := by
    intro e he
    rcases List.mem_append.mp he with he | he
    · exact hρp e he
    rcases List.mem_append.mp he with he | he
    · exact hρ e he
    · exact hpost e he
  rw [hcut] at hk ⊢
  have hopened : Opened L fs s t.path fd
      ((took :: pre ++ σ) ++
        (σ' ++ look :: (⟨.digest, true⟩ :: σl ++ look :: (ρp ++ (ρ ++ post))))) := by
    obtain ⟨w, htable, hproof, hnames, hbound⟩ :=
      opened_runs (s := s) hs hlt hack hopen (Contract.Along.append _ hk).1.2
    refine ⟨took :: pre ++ σ, _, w, t.proof, rfl, hbegin, fun e he => ?_, htable, hproof,
      hnames, hbound⟩
    have hplain : ∀ e, e = look ∨ e = ⟨.digest, true⟩ → Closed e := by
      rintro e (rfl | rfl)
      · exact ⟨by simp [hlook], by simp [hlook]⟩
      · exact ⟨by simp, by simp⟩
    simp only [List.mem_append, List.mem_cons] at he
    rcases he with he | he | (he | he) | he | he
    · exact (hσ' e he).2
    · exact hplain e (.inl he)
    · exact hplain e (.inr he)
    · exact (hloop.steps e he).closed
    · exact hplain e (.inl he)
    · exact (hafter e (by simpa using he)).2
  have hbefore : ∀ e ∈ (took :: pre ++ σ) ++ σ', Idle e := by
    intro e he
    rcases List.mem_append.mp he with he | he
    · exact hbegin e he
    · exact (hσ' e he).1
  have hidle : ∀ e ∈ ρp ++ (ρ ++ post), Idle e := fun e he => (hafter e he).1
  rw [← List.append_assoc] at hopened ⊢
  have hlength : moved.length = after.size := hend.size.symm
  have hreadFrom : readFrom (.file fd) (((took :: pre ++ σ) ++ σ') ++
      look :: (⟨.digest, true⟩ :: σl ++ look :: (ρp ++ (ρ ++ post)))) = moved := by
    rw [readFrom_append, readFrom_idle hbefore, readFrom_cons, readFrom_append,
      readFrom_cons, readFrom_cons,
      readFrom_idle hidle, List.append_nil]
    exact (List.append_nil _).trans hloop.read
  have hwrittenTo : writtenTo .data (((took :: pre ++ σ) ++ σ') ++
      look :: (⟨.digest, true⟩ :: σl ++ look :: (ρp ++ (ρ ++ post)))) = moved := by
    rw [writtenTo_append, writtenTo_idle hbefore, writtenTo_cons, writtenTo_append, writtenTo_cons,
      writtenTo_cons,
      writtenTo_idle hidle, List.append_nil]
    exact (List.append_nil _).trans hloop.written
  refine ⟨fd, after, ⟨t.path, hpath, hopened⟩,
    ⟨(took :: pre ++ σ) ++ σ', ⟨.digest, true⟩ :: σl, ρp ++ (ρ ++ post), rfl, hbefore, hidle⟩, ?_,
      ?_, t, digest, a,
    htc, ?_, by simp [ha]⟩
  · rw [hreadFrom, hwrittenTo]
  · rw [hwrittenTo]
    exact hlength
  · rw [hwrittenTo]
    exact hend.digest

end Read

end Pxeos.Storage
