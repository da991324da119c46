import Pxeos.Storage.Complete

/-!
# Data is moved exactly

The two commands that move data: what holds when one is acknowledged, and that nothing but a failure
of the system keeps it from its end.
-/

namespace Pxeos.Storage

open Pxeos.Lib

/-- **Data is moved exactly.**  A `write` that is acknowledged has stored all that the pipe
delivered, and has reported its size and its digest; the data is stored whatever its length, and of
a fixed length when that is its own.  A `read` that is acknowledged has delivered the file at the
path of the command, which is the same before and after; and where no call fails, the whole file is
delivered. -/
theorem data_moved_exactly (L : Libs) :
    (∀ fuel fs fs' command op data τ, rxString command "operation" 24 = some op →
      Operation.of op = .write → (rxCommand L fuel fs command).Runs τ (some (some fs')) →
      (history (Fits data)).Along (Fits data) [] τ → WriteExact L fs command data τ) ∧
    (L.Sound → ∀ fuel found fd data stamp most expected h,
      (∀ content, (stamp content).isReg = true ∧ (stamp content).size = content.length) →
      data.length ≤ i64Max → (expected = none ∨ expected = some data.length) →
      data.length + most < fuel → Known found fd most [] [] h →
      (history (Benign found data fd stamp most)).Sure (writeData L fuel fd expected) h fun r h' =>
        (∃ details, r = some details) ∧ readFrom .data h' = data ∧
        contentFrom found fd h' = some data) ∧
    (∀ fuel fs fs' command op τ s, rxString command "operation" 24 = some op →
      Operation.of op = .read →
      (rxCommand L fuel fs command).Runs τ (some (some fs')) → Rooted fs s →
      (confinement L fs.context).Along World.Kernel s τ →
      ∃ fd st, ReadExact L fs s command τ fd st ∧
        ∀ file : Bytes, st.size = file.length → readFrom (.file fd) τ <+: file →
          writtenTo .data τ = file) ∧
    (L.Sound → ∀ fuel found fd data stamp most read file h, (stamp file).isReg = true →
      (stamp file).size = file.length → file.length ≤ i64Max → file.length + most < fuel →
      Known found fd most read file h → offset fd h = 0 →
      (history (Benign found data fd stamp most)).Sure (streamFile L fuel fd false 0) h fun r h' =>
        (∃ digest, r = some (streamDetails (stamp file) digest) ∧ L.sha256 file = some digest) ∧
          writtenTo .data h' = writtenTo .data h ++ file) := by
  refine ⟨?_, ?_, ?_, ?_⟩
  · intro fuel fs fs' command op data τ hop hwrite h hfits
    exact write_exact hop hwrite h hfits
  · intro hL fuel found fd data stamp most expected h hstamp hdata hexpected hfuel hk
    exact writeData_sure hL hstamp hdata hexpected hfuel hk
  · intro fuel fs fs' command op τ s hop hread h hs hk
    obtain ⟨fd, st, hexact⟩ := read_exact hop hread h hs hk
    exact ⟨fd, st, hexact, fun file => hexact.file⟩
  · intro hL fuel found fd data stamp most read file h hreg hsize hfile hfuel hk hoff
    exact streamFile_read_sure hL hfile hreg hsize hfuel hk hoff

/-! ### A file of three bytes -/

/-- The command to write `dev/t1`, whatever its length. -/
def writeCommand : Json :=
  .object [(ascii "operation", .string (ascii "write")), (ascii "path", .string (ascii "dev/t1")),
    (ascii "sequence", .string (ascii "1")), (ascii "execution", captureOwner),
    (ascii "lengthMode", .string (ascii "stream"))]

/-- The execution of a deployment. -/
def deployOwner : Json :=
  .object [(ascii "domainId", .string (List.replicate 32 97)),
    (ascii "taskType", .string (ascii "deploy")), (ascii "taskId", .string (ascii "t2")),
    (ascii "nonce", .string (List.replicate 32 98)),
    (ascii "targetKey", .string (List.replicate 64 99)),
    (ascii "configRevision", .string (List.replicate 64 100)), (ascii "executionAttempt", .int 1)]

/-- Its context: the image is in `a`. -/
def deployJson : Json :=
  .object [(ascii "version", .int 1), (ascii "protocol", .string (ascii "nfs")),
    (ascii "server", .string (ascii "10.0.0.1")), (ascii "exportPath", .string (ascii "/srv")),
    (ascii "imagePath", .string (ascii "a")), (ascii "direction", .string (ascii "read")),
    (ascii "sequence", .string (ascii "0")), (ascii "execution", deployOwner),
    (ascii "nfsVersion", .string (ascii "4.1")), (ascii "nfsUid", .int 0), (ascii "nfsGid", .int 0)]

def deployContext : Context := (rxLoadContext deployJson).get (by decide +kernel)

/-- The command to read `a/f`. -/
def readCommand : Json :=
  .object [(ascii "operation", .string (ascii "read")), (ascii "path", .string (ascii "a/f")),
    (ascii "sequence", .string (ascii "1")), (ascii "execution", deployOwner)]

/-- The acknowledgement of a phase of it, with what is known about the root, `a` and `a/f`. -/
def readAck (phase seq : String) : Json :=
  .object [(ascii "event", .string (ascii "ack")), (ascii "phase", .string (ascii phase)),
    (ascii "operation", .string (ascii "read")), (ascii "path", .string (ascii "a/f")),
    (ascii "sequence", .string (ascii seq)), (ascii "execution", deployOwner),
    (ascii "proof", .object
      [(ascii "e3b0c44298fc1c149afbf4c8996fb92427ae41e4649b934ca495991b7852b855",
        .object [(ascii "fileId", .string (ascii "2")), (ascii "kind", .string (ascii "dir"))]),
      (ascii "ca978112ca1bbdcafac231b39a23dc4da786eff8147c4e72b9807785afee48bb",
        .object [(ascii "fileId", .string (ascii "3")), (ascii "kind", .string (ascii "dir"))]),
      (ascii "850d60cc15111df3e1a3e1500dfc06a08a35cde640119e6d974ab67300eff080",
        .object [(ascii "fileId", .string (ascii "4")), (ascii "kind", .string (ascii "file")),
          (ascii "size", .string (ascii "3")), (ascii "mtimeSec", .string (ascii "0")),
          (ascii "mtimeNsec", .string (ascii "0"))])])]

def writeAcks : List Json :=
  [ackOf "write" "dev/t1" "intent" "1", ackOf "write" "dev/t1" "created" "2",
    ackOf "write" "dev/t1" "result" "3"]

def readAcks : List Json := [readAck "intent" "1", readAck "result" "2"]

/-- The libraries, on the texts of the commands and of the file. -/
def dataLibs : Libs where
  parse text := (writeAcks ++ readAcks).find? fun j => render j == text
  serialize := render
  equal a b := render a == render b
  sha256 text :=
    if text = ascii "abc" then
      some [186, 120, 22, 191, 143, 1, 207, 234, 65, 65, 64, 222, 93, 174, 34, 35, 176,
        3, 97, 163, 150,
        23, 122, 156, 180, 16, 255, 97, 242, 0, 21, 173]
    else if text = ascii "a" then
      some [202, 151, 129, 18, 202, 27, 189, 202, 250, 194, 49, 179, 154, 35, 220, 77,
        167, 134, 239, 248,
        20, 124, 78, 114, 185, 128, 119, 133, 175, 238, 72, 187]
    else if text = ascii "a/f" then
      some [133, 13, 96, 204, 21, 17, 29, 243, 225, 163, 225, 80, 13, 252, 6, 160, 138,
        53, 205, 230, 64,
        17, 158, 109, 151, 74, 182, 115, 0, 239, 240, 128]
    else some ((captureLibs.sha256 text).getD (List.replicate 32 0))

/-- The reads of a stream. -/
def readsOf (s : Stream) (seen : List Step) : ℕ := seen.countP fun e => match e.1 with
  | .read s' _ => s' == s
  | _ => false

def answered {want : ℕ} (bytes : Bytes) : Read want :=
  .got (bytes.take want) (List.length_take_le _ _)

/-- Interrupted once, then two bytes, then one, and the end. -/
def chunks {want : ℕ} : ℕ → Read want
  | 0 => .interrupted
  | 1 => answered (ascii "ab")
  | 2 => answered (ascii "c")
  | _ => answered []

/-- A system in which the pipe is read in these chunks. -/
def writeEnv (seen : List Step) : (k : Call) → k.Answer
  | .line => match writeAcks.drop (linesRead seen) with
    | j :: _ => (render j, .newline)
    | [] => ([], .eof)
  | .statx fd =>
    match contentOf fd seen.reverse with
    | some content => some ⟨4, 0, 40, 0x8180, content.length, 0, 0, 0, 0⟩
    | none => some ⟨inodeOf fd seen, 0, 40, 0x41c0, 0, 0, 0, 0, 0⟩
  | .read .data _ => chunks (readsOf .data seen)
  | .read (.file fd) _ =>
    answered (((contentOf fd seen.reverse).getD []).drop (offset fd seen.reverse))
  | .write _ bytes => .wrote (min 1 bytes.length) (min_le_right 1 bytes.length)
  | k => captureEnv seen k

/-- The status of a descriptor: `a` is a directory, and `f` a file of three bytes. -/
def statusOf (fd : Fd) : List Step → Stat
  | [] => ⟨2, 0, 40, 0x41c0, 0, 0, 0, 0, 0⟩
  | ⟨.dup d, r⟩ :: seen => if returns r fd then statusOf d seen else statusOf fd seen
  | ⟨.openat _ name _, r⟩ :: seen =>
    if returns r fd then
      if name = ascii "a" then ⟨3, 0, 40, 0x41c0, 0, 0, 0, 0, 0⟩
      else ⟨4, 0, 40, 0x8180, 3, 0, 0, 0, 0⟩
    else statusOf fd seen
  | _ :: seen => statusOf fd seen

/-- A system in which the file is read in these chunks. -/
def readEnv (seen : List Step) : (k : Call) → k.Answer
  | .line => match readAcks.drop (linesRead seen) with
    | j :: _ => (render j, .newline)
    | [] => ([], .eof)
  | .statx fd => some (statusOf fd seen)
  | .read s _ => chunks (readsOf s seen)
  | .write _ bytes => .wrote (min 1 bytes.length) (min_le_right 1 bytes.length)
  | k => captureEnv seen k

/-- The states before the commands. -/
def writeFs : Fs := ⟨captureContext, 3, ⟨2, 0, 40, 0x41c0, 0, 0, 0, 0, 0⟩, 0, 0⟩
def readFs : Fs := ⟨deployContext, 3, ⟨2, 0, 40, 0x41c0, 0, 0, 0, 0, 0⟩, 0, 0⟩

/-- The root is open. -/
def readWorld : World :=
  { World.initial.set 3 (some ⟨some ⟨2, 0, 40, 0x41c0, 0, 0, 0, 0, 0⟩, []⟩) with device := some (0,
    40) }

/-- The runs of the commands. -/
def writeRun : List Step × Option (Option Fs) :=
  (rxCommand dataLibs 9 writeFs writeCommand).exec writeEnv []
def readRun : List Step × Option (Option Fs) :=
  (rxCommand dataLibs 9 readFs readCommand).exec readEnv []

instance Fits.decidable (data : Bytes) (h : List Step) : ∀ e : Step, Decidable (Fits data h e)
  | ⟨.read .data _, .got bytes _⟩ =>
    inferInstanceAs (Decidable
      (readFrom .data h ++ bytes <+: data ∧ (bytes = [] → readFrom .data h = data)))
  | ⟨.read .data _, .interrupted⟩ | ⟨.read .data _, .failed⟩ | ⟨.read (.file _) _, _⟩ =>
    isTrue trivial
  | ⟨.statx fd, some st⟩ =>
    decidable_of_iff (∀ content ∈ contentOf fd h, st.size = content.length) (by
      show _ ↔ match contentOf fd h with
        | some content => st.size = content.length
        | none => True
      cases contentOf fd h <;> simp)
  | ⟨.statx _, none⟩ => isTrue trivial
  | ⟨.openRoot, _⟩ | ⟨.dup _, _⟩ | ⟨.openat _ _ _, _⟩ | ⟨.parentAlive, _⟩ | ⟨.emit _, _⟩
  | ⟨.line, _⟩ | ⟨.mountInfo _, _⟩ | ⟨.statxAt _ _, _⟩ | ⟨.close _, _⟩ | ⟨.mkdirat _ _, _⟩
  | ⟨.unlinkat _ _ _, _⟩ | ⟨.renameat2 _ _ _ _, _⟩ | ⟨.renameat _ _ _ _, _⟩ | ⟨.fdopendir _, _⟩
  | ⟨.readdir, _⟩ | ⟨.closedir, _⟩ | ⟨.write _ _, _⟩ | ⟨.fsync _, _⟩ | ⟨.rewind _, _⟩
  | ⟨.digest, _⟩ | ⟨.note _, _⟩ => isTrue trivial

/-- The commands are acknowledged, with three events and with two. -/
lemma writeRun_facts : writeRun.2.map (·.map Fs.lastSequence) = some (some 3) ∧
    (history (Fits (ascii "abc"))).Along (Fits (ascii "abc")) [] writeRun.1 := by
  decide +kernel

lemma readRun_facts : readRun.2.map (·.map Fs.lastSequence) = some (some 2) ∧
    (confinement dataLibs readFs.context).Along World.Kernel readWorld readRun.1 ∧
    writtenTo .data readRun.1 = ascii "abc" := by
  decide +kernel

lemma length_render_string (s : Bytes) : (render (.string s)).length ≤ 2 * s.length + 2 := by
  have hflat : (s.flatMap fun b => if b = slash then ascii "\\/" else [b]).length ≤
      2 * s.length := by
    induction s with
    | nil => simp
    | cons b s ih =>
      rw [List.flatMap_cons, List.length_append, List.length_cons]
      have hone : (if b = slash then ascii "\\/" else [b]).length ≤ 2 := by
        split <;> simp [ascii]
      omega
  have hquote : (ascii "\"").length = 1 := by decide
  unfold render
  rw [List.length_append, List.length_append, hquote]
  omega

lemma dataLibs_sound : dataLibs.Sound := by
  refine ⟨fun bytes => ?_, fun stage hstage count => ?_⟩
  · unfold dataLibs captureLibs
    simp only
    split_ifs <;> exact ⟨_, rfl, rfl⟩
  · have hcount := length_render_string (snprintf 21 (decimal count))
    have hshort : (snprintf 21 (decimal count)).length ≤ 20 := List.length_take_le _ _
    have hstage : (ascii stage).length ≤ 8 := by
      simp only [List.mem_cons, List.not_mem_nil, or_false] at hstage
      rcases hstage with rfl | rfl | rfl <;> decide
    have hname := length_render_string (ascii stage)
    have hevent := length_render_string (ascii "progress")
    have hkeys : [ascii "\x7b", ascii "\x7d", ascii "\"", ascii "\":", ascii ",", ascii "event",
        ascii "stage", ascii "bytes", ascii "progress"].map List.length = [1, 1, 1, 2, 1,
          5, 5, 5, 8] := by
      decide
    simp only [List.map_cons, List.map_nil, List.cons.injEq, and_true] at hkeys
    show (render _).length < 65536
    unfold render
    simp only [render.renderFields, List.length_append]
    omega

/-- One run stores the file and another delivers it, and so does any other with the same system
calls. -/
theorem data_moved_exactly_abc :
    WriteExact dataLibs writeFs writeCommand (ascii "abc") writeRun.1 ∧
    (history (Benign none (ascii "abc") 4
        (fun content => ⟨4, 0, 40, 0x8180, content.length, 0, 0, 0, 0⟩) 1)).Sure
      (writeData dataLibs 9 4 none) [⟨.openat 5 (ascii "t1") ⟨false, true, true⟩, some 4⟩]
        (fun r h' =>
        (∃ details, r = some details) ∧ readFrom .data h' = ascii "abc" ∧
          contentFrom none 4 h' = some (ascii "abc")) ∧
    (writtenTo .data readRun.1 = ascii "abc" ∧
      ∃ fd st, ReadExact dataLibs readFs readWorld readCommand readRun.1 fd st) ∧
    (history (Benign (some (ascii "abc")) [] 4
        (fun content => ⟨4, 0, 40, 0x8180, content.length, 0, 0, 0, 0⟩) 1)).Sure
      (streamFile dataLibs 9 4 false 0) [⟨.openat 5 (ascii "f") readOnly, some 4⟩] fun r h' =>
        (∃ digest, r = some (streamDetails ⟨4, 0, 40, 0x8180, 3, 0, 0, 0, 0⟩ digest) ∧
          dataLibs.sha256 (ascii "abc") = some digest) ∧ writtenTo .data h' = ascii "abc" := by
  obtain ⟨hwrite, hstored, hread, hdelivered⟩ := data_moved_exactly dataLibs
  obtain ⟨hdone, hfits⟩ := writeRun_facts
  obtain ⟨hdone', hk, habc⟩ := readRun_facts
  obtain ⟨r, hr, hsome⟩ := Option.map_eq_some_iff.mp hdone
  obtain ⟨fs', rfl, -⟩ := Option.map_eq_some_iff.mp hsome
  obtain ⟨r', hr', hsome'⟩ := Option.map_eq_some_iff.mp hdone'
  obtain ⟨fs'', rfl, -⟩ := Option.map_eq_some_iff.mp hsome'
  refine ⟨?_, ?_, ⟨habc, ?_⟩, ?_⟩
  · refine hwrite 9 writeFs fs' writeCommand (ascii "write") (ascii "abc") writeRun.1
      (by decide +kernel) (by decide) ?_ hfits
    rw [← hr]
    exact Prog.runs_exec writeEnv _ []
  · refine hstored dataLibs_sound 9 none 4 (ascii "abc") _ 1 none _
      (fun content => ⟨by simp [Stat.isReg], rfl⟩) (by decide) (.inl rfl) (by decide) ?_
    exact ⟨rfl, rfl, by decide⟩
  · have hrooted : Rooted readFs readWorld :=
      ⟨⟨_, rfl, rfl⟩, rfl, by simp [readWorld, World.initial]⟩
    obtain ⟨fd, st, hexact, -⟩ := hread 9 readFs fs'' readCommand (ascii "read") readRun.1 readWorld
      (by decide +kernel) (by decide) (by rw [← hr']; exact Prog.runs_exec readEnv _ []) hrooted hk
    exact ⟨fd, st, hexact⟩
  · exact hdelivered dataLibs_sound 9 (some (ascii "abc")) 4 [] _ 1 [] (ascii "abc")
      [⟨.openat 5 (ascii "f") readOnly, some 4⟩] (by decide) rfl (by decide) (by decide)
      ⟨rfl, rfl, by decide⟩ rfl

end Pxeos.Storage
