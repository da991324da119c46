import Pxeos.Storage.Confined

/-!
# What the server and the storage may rely on

The two guarantees of the helper over a whole run, from the context it has accepted to any moment of
its work, and a run of a capture that lists the storage and makes its own directory below `dev`.
-/

namespace Pxeos.Storage

open Pxeos.Lib

/-! ### A task -/

/-- The text of a JSON value whose strings have nothing to escape but slashes. -/
def render : Json → Bytes
  | .null => ascii "null"
  | .bool b => ascii (if b then "true" else "false")
  | .int n => signedDecimal n
  | .double text => text
  | .string s =>
    ascii "\"" ++ s.flatMap (fun b => if b = slash then ascii "\\/" else [b]) ++ ascii "\""
  | .array _ => ascii "[]"
  | .object fields => ascii "\x7b" ++ renderFields fields ++ ascii "\x7d"
where
  renderFields : List (Bytes × Json) → Bytes
    | [] => []
    | [(key, v)] => ascii "\"" ++ key ++ ascii "\":" ++ render v
    | (key, v) :: f :: fields =>
      ascii "\"" ++ key ++ ascii "\":" ++ render v ++ ascii "," ++ renderFields (f :: fields)

/-- The execution of a capture. -/
def captureOwner : Json :=
  .object [(ascii "domainId", .string (List.replicate 32 97)),
    (ascii "taskType", .string (ascii "capture")),
    (ascii "taskId", .string (ascii "t1")), (ascii "nonce", .string (List.replicate 32 98)),
    (ascii "targetKey", .string (List.replicate 64 99)),
      (ascii "configRevision", .string (List.replicate 64 100)),
    (ascii "executionAttempt", .int 1)]

/-- Its context. -/
def captureJson : Json :=
  .object [(ascii "version", .int 1), (ascii "protocol", .string (ascii "nfs")),
    (ascii "server", .string (ascii "10.0.0.1")),
    (ascii "exportPath", .string (ascii "/srv")), (ascii "imagePath", .string (ascii "images/a")),
    (ascii "direction", .string (ascii "write")), (ascii "sequence", .string (ascii "0")),
      (ascii "execution", captureOwner),
    (ascii "nfsVersion", .string (ascii "4.1")), (ascii "nfsUid", .int 0), (ascii "nfsGid", .int 0)]

def captureContext : Context := (rxLoadContext captureJson).get (by decide +kernel)

/-- A command of the capture. -/
def commandOf (op path seq : String) : Json :=
  .object [(ascii "operation", .string (ascii op)), (ascii "path", .string (ascii path)),
    (ascii "sequence", .string (ascii seq)), (ascii "execution", captureOwner)]

/-- The acknowledgement of a phase of it, with what is known about the root and about `dev`. -/
def ackOf (op path phase seq : String) : Json :=
  .object [(ascii "event", .string (ascii "ack")), (ascii "phase", .string (ascii phase)),
    (ascii "operation", .string (ascii op)), (ascii "path", .string (ascii path)),
    (ascii "sequence", .string (ascii seq)), (ascii "execution", captureOwner),
    (ascii "proof", .object
      [(ascii "e3b0c44298fc1c149afbf4c8996fb92427ae41e4649b934ca495991b7852b855",
        .object [(ascii "fileId", .string (ascii "2")), (ascii "kind", .string (ascii "dir"))]),
      (ascii "ef260e9aa3c673af240d17a2660480361a8e081d1ffeca2a5ed0e3219fc18567",
        .object [(ascii "fileId", .string (ascii "3")), (ascii "kind", .string (ascii "dir"))])])]

/-- What the server sends: to list the storage, and to make `dev/t1`. -/
def serverLines : List Json :=
  [commandOf "list" "" "1", ackOf "list" "" "intent" "1", ackOf "list" "" "result" "2",
    commandOf "mkdir-owned" "dev/t1" "3", ackOf "mkdir-owned" "dev/t1" "intent" "3",
    ackOf "mkdir-owned" "dev/t1" "result" "4"]

/-- The libraries, on the texts of the task. -/
def captureLibs : Libs where
  parse text := serverLines.find? fun j => render j == text
  serialize := render
  equal a b := render a == render b
  sha256 text :=
    if text = [] then
      some [227, 176, 196, 66, 152, 252, 28, 20, 154, 251, 244, 200, 153, 111, 185, 36, 39, 174, 65,
        228, 100, 155, 147, 76,
        164, 149, 153, 27, 120, 82, 184, 85]
    else if text = ascii "dev" then
      some [239, 38, 14, 154, 163, 198, 115, 175, 36, 13, 23, 162, 102, 4, 128, 54, 26, 142, 8, 29,
        31, 254, 202, 42,
        94, 208, 227, 33, 159, 193, 133, 103]
    else if text = ascii "dev/t1" then
      some [70, 56, 249, 183, 215, 133, 132, 104, 203, 213, 96, 120, 118, 108, 72, 104, 45, 71, 164,
        91, 112, 27, 39, 150,
        96, 158, 204, 34, 141, 116, 195, 38]
    else none

def returns (r : Option Fd) (fd : Fd) : Bool := r == some fd

/-- The inode of a descriptor: the root has `2`, `dev` has `3`, and what is new has `4`. -/
def inodeOf (fd : Fd) : List Step → ℕ
  | [] => 2
  | ⟨.dup d, r⟩ :: seen => if returns r fd then inodeOf d seen else inodeOf fd seen
  | ⟨.openat _ name _, r⟩ :: seen =>
    if returns r fd then (if name = ascii "dev" then 3 else 4) else inodeOf fd seen
  | _ :: seen => inodeOf fd seen

/-- The descriptor that the stream took last. -/
def streamOf : List Step → List Fd
  | [] => []
  | ⟨.fdopendir fd, _⟩ :: _ => [fd]
  | _ :: seen => streamOf seen

/-- The descriptors that are open. -/
def openFds : List Step → List Fd
  | [] => []
  | ⟨.openRoot, r⟩ :: seen => Option.toList r ++ openFds seen
  | ⟨.dup _, r⟩ :: seen => Option.toList r ++ openFds seen
  | ⟨.openat _ _ _, r⟩ :: seen => Option.toList r ++ openFds seen
  | ⟨.close fd, _⟩ :: seen => (openFds seen).filter (· ≠ fd)
  | ⟨.closedir, _⟩ :: seen => (openFds seen).filter (· ∉ streamOf seen)
  | _ :: seen => openFds seen

/-- The lowest descriptor that is free. -/
def freeFd (seen : List Step) : Option Fd := ((List.range 16).map (· + 4)).find? (· ∉ openFds seen)

/-- One entry, and the end of the directory. -/
def nextEntry : List Step → DirEntry
  | ⟨.readdir, _⟩ :: _ => .done
  | _ => .entry (ascii "dev")

/-- The lines that have been read. -/
def linesRead (seen : List Step) : ℕ := seen.countP fun e => match e.1 with
  | .line => true
  | _ => false

/-- A system in which every call succeeds, with the lowest descriptor that is free. -/
def captureEnv (seen : List Step) : (k : Call) → k.Answer
  | .parentAlive => true
  | .emit _ => true
  | .line => match serverLines.drop (linesRead seen) with
    | j :: _ => (render j, .newline)
    | [] => ([], .eof)
  | .openRoot => freeFd seen
  | .mountInfo _ => some (.object [])
  | .dup _ => freeFd seen
  | .statx fd => some ⟨inodeOf fd seen, 0, 40, 0x41c0, 0, 0, 0, 0, 0⟩
  | .statxAt _ _ => .missing
  | .openat _ _ _ => freeFd seen
  | .close _ => true
  | .mkdirat _ _ => true
  | .unlinkat _ _ _ => true
  | .renameat2 _ _ _ _ => .renamed
  | .renameat _ _ _ _ => true
  | .fdopendir _ => true
  | .readdir => nextEntry seen
  | .closedir => true
  | .read _ _ => .failed
  | .write _ _ => .failed
  | .fsync _ => true
  | .rewind _ => true
  | .digest => true
  | .note _ => ()

/-- The run of the helper, with its exit status. -/
def captureRun : List Step × Option ℕ := (helper captureLibs 8 captureContext).exec captureEnv []

/-- A descriptor is put in a stream. -/
def takenBy (fd : Fd) : Step → Bool
  | ⟨.fdopendir d, _⟩ => d == fd
  | _ => false

/-- It ends, with four numbered events and one change, the name `t1` in the directory it has opened;
the descriptor of the directory is the one that the stream of the list had. -/
lemma captureRun_facts : captureRun.2 = some 0 ∧
    (captureRun.1.map (act captureLibs)).filterMap Act.number? = [1, 2, 3, 4] ∧
    (captureRun.1.map (act captureLibs)).countP Act.isMutated = 1 ∧
    (confinement captureLibs captureContext).Along World.Kernel World.initial captureRun.1 ∧
    captureRun.1.map targets = List.replicate 42 [] ++ [(6, ascii "t1")] :: List.replicate 14 [] ∧
    (captureRun.1.take 42).any (takenBy 6) = true := by
  decide +kernel

/-! ### The protocol -/

/-- **The helper is orderly.**  In every run, whatever is sent to it and whatever the storage
does. -/
theorem helper_orderly (L : Libs) (fuel : ℕ) {json : Json} {c : Context}
    (hc : rxLoadContext json = some c) {τ : List Step} {o : Option ℕ}
    (hr : Prog.Runs (helper L fuel c) τ o) :
    Orderly L c c.sequence (τ.map (act L)) := by
  have hsafe := helper_safe (L := L) fuel (rxLoadContext_accepted hc).sequence
  -- nothing is asked of the environment
  exact orderly_of_along (hsafe.along hr (Contract.along_of_forall _ (fun _ _ => trivial) _ _)).1

/-- The capture lists the storage and makes its directory, between events that are acknowledged, and
ends. -/
theorem helper_orderly_mkdir :
    rxLoadContext captureJson = some captureContext ∧ captureRun.2 = some 0 ∧
    (captureRun.1.map (act captureLibs)).filterMap Act.number? = [1, 2, 3, 4] ∧
    (captureRun.1.map (act captureLibs)).countP Act.isMutated = 1 ∧
    Orderly captureLibs captureContext captureContext.sequence
      (captureRun.1.map (act captureLibs)) := by
  have hc : rxLoadContext captureJson = some captureContext := (Option.some_get _).symm
  refine ⟨hc, captureRun_facts.1, captureRun_facts.2.1, captureRun_facts.2.2.1, ?_⟩
  exact helper_orderly captureLibs 8 hc (Prog.runs_exec captureEnv _ [])

/-! ### The name space -/

/-- **The helper changes what its task owns.**  A deployment changes nothing; a capture changes
names of its own, in directories it has reached from the root, each of them on the device of the
root and as the proof has it. -/
theorem helper_changes_owned (L : Libs) (fuel : ℕ) {json : Json} {c : Context}
    (hc : rxLoadContext json = some c) {τ : List Step} {o : Option ℕ}
    (hr : Prog.Runs (helper L fuel c) τ o)
    (hk : (confinement L c).Along World.Kernel World.initial τ) {pre post : List Step} {e : Step}
    (hτ : τ = pre ++ e :: post) :
    (rxString c.owner "taskType" 7 = some (ascii "deploy") → targets e = []) ∧
      ∀ x ∈ targets e, rxString c.owner "taskType" 7 = some (ascii "capture") ∧
        Reached L c ((confinement L c).after World.initial pre) x.1 x.2 := by
  have hsafe := helper_confined (L := L) fuel (rxLoadContext_accepted hc)
  have halong := (hsafe.along hr hk).1
  rw [hτ] at halong
  have hguard : ∀ x ∈ targets e, c.isCapture = true ∧
      Reached L c ((confinement L c).after World.initial pre) x.1 x.2 :=
    (halong.append _).2.1
  have hkind : c.isCapture = true → rxString c.owner "taskType" 7 = some (ascii "capture") := by
    intro h
    simpa [Context.isCapture] using h
  refine ⟨fun hdeploy => ?_, fun x hx => ⟨hkind (hguard x hx).1, (hguard x hx).2⟩⟩
  refine List.eq_nil_iff_forall_not_mem.mpr fun x hx => ?_
  have hcapture := hkind (hguard x hx).1
  rw [hdeploy] at hcapture
  exact absurd (Option.some.inj hcapture) (by decide)

/-- In that run, `t1` is made in a directory that has been reached, on the descriptor that a stream
had before. -/
theorem helper_changes_owned_mkdir : ∃ pre e post, captureRun.1 = pre ++ e :: post ∧ ∃ d,
    pre.any (takenBy d) = true ∧ targets e = [(d, ascii "t1")] ∧
    Reached captureLibs captureContext
      ((confinement captureLibs captureContext).after World.initial pre) d
      (ascii "t1") := by
  have hc : rxLoadContext captureJson = some captureContext := (Option.some_get _).symm
  obtain ⟨-, -, -, hk, hmap, htaken⟩ := captureRun_facts
  obtain ⟨pre, rest, hsplit, hpre, hrest⟩ := List.map_eq_append_iff.mp hmap
  obtain ⟨e, post, rfl, htargets, -⟩ := List.map_eq_cons_iff.mp hrest
  have hlength : pre.length = 42 := by
    have := congrArg List.length hpre
    simpa using this
  have hstream : pre.any (takenBy 6) = true := by
    rw [hsplit, List.take_left' hlength] at htaken
    exact htaken
  refine ⟨_, _, _, hsplit, 6, hstream, htargets, ?_⟩
  have h := helper_changes_owned captureLibs 8 hc (Prog.runs_exec captureEnv _ []) hk hsplit
  exact (h.2 (6, ascii "t1") (by rw [htargets]; exact List.mem_singleton_self _)).2

end Pxeos.Storage
