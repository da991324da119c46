import Pxeos.Storage.Bound

/-!
# Commands

`rx_command` and what it calls, and the loop of the helper.  A command is announced by an intent,
worked on, and reported by a result; a write reports the file it has created before it takes the
data.  Each of these events has a sequence number of its own and is acknowledged by the server.
-/

namespace Pxeos.Storage

open Pxeos.Lib

def u64Max : ℕ := 2 ^ 64 - 1
def i64Max : ℕ := 2 ^ 63 - 1

/-- `rx_node_json`. -/
def rxNodeJson (s : Stat) : Json :=
  .object [(ascii "fileId", .string (snprintf 17 (hexadecimal s.ino))),
    (ascii "kind",
      .string (ascii (if s.isDir then "dir" else if s.isReg then "file" else "unsafe"))),
    (ascii "size", .string (snprintf 32 (decimal s.size)))]

/-! ### Events and acknowledgements -/

/-- `event_for`. -/
def eventFor (c : Context) (phase : String) (op path : Bytes) (toPath : Option Bytes) (seq : ℕ) :
    Json :=
  .object ([(ascii "event", .string (ascii phase)), (ascii "operation", .string op),
    (ascii "path", .string path)] ++
    (match toPath with
      | some t => if t = [] then [] else [(ascii "to", .string t)]
      | none => []) ++
    [(ascii "sequence", .string (snprintf 21 (decimal seq))), (ascii "execution", c.owner)])

/-- The first part of the comparison in `ack`: the proof of an acknowledgement of the sequence
number. -/
def ackProof (L : Libs) (c : Context) (event a : Json) : Option Json := do
  let kind ← rxString a "event" 8
  let seq ← rxString event "sequence" 20
  let as ← rxString a "sequence" 20
  let owner ← a.get (ascii "execution")
  let p ← a.get (ascii "proof")
  if kind = ascii "ack" ∧ seq = as ∧ L.equal owner c.owner ∧ p.isObject then some p else none

/-- Both strings are there and are the same. -/
def sameString (s t : Option Bytes) : Bool := s.isSome && s == t

/-- The second part: the operation, the path, the phase and the destination. -/
def ackNames (event a : Json) : Bool :=
  sameString (rxString event "operation" 24) (rxString a "operation" 24) &&
  sameString (rxString event "path" 4095) (rxString a "path" 4095) &&
  sameString (rxString event "event" 8) (rxString a "phase" 8) &&
  rxString event "to" 4095 == rxString a "to" 4095

/-- The helper gives up. -/
def reject {α : Type} : Helper (Option α) := do
  note .rejected
  pure none

/-- `ack`: the event is sent, and the proof of its acknowledgement is returned. -/
def ack (L : Libs) (c : Context) (event : Json) : Helper (Option Json) := do
  if !(← ask .parentAlive) then reject
  else if !(← rxEmit L event) then reject
  else
    match ← rxReadJson L with
    | none => reject
    | some a =>
      match ackProof L c event a with
      | none => reject
      | some p =>
        if !(← ask .parentAlive) then reject
        else if ackNames event a then do
          note (.accepted event a)
          pure (some p)
        else reject

/-! ### Data -/

/-- `stream_progress`. -/
def streamProgress (L : Libs) (stage : String) (bytes : ℕ) : Helper Bool :=
  rxEmit L
    (.object [(ascii "event", .string (ascii "progress")), (ascii "stage", .string (ascii stage)),
    (ascii "bytes", .string (snprintf 21 (decimal bytes)))])

/-- A progress event for every mebibyte; what is returned is the count it was sent at. -/
def progressAt (L : Libs) (stage : String) (count progress : ℕ) : Helper (Option ℕ) := do
  if 1048576 ≤ count - progress then
    if ← streamProgress L stage count then pure (some count) else pure none
  else pure (some progress)

/-- The bytes the loop asks for next, after `count` of them: up to the limit of a write, or to the
size of what is read. -/
def wantedBytes (writing : Bool) (limit size count : ℕ) : ℕ :=
  min (if writing then (if limit = 0 then dataMax else limit - count) else size - count) dataMax

/-- The loop of `stream_file`: the bytes it has moved when it ends. -/
def streamLoop (L : Libs) (fd : Fd) (writing : Bool) (limit size steps : ℕ) : ℕ → ℕ → Bytes →
    Helper (Option Bytes)
  | 0, _, _ => .stop
  | fuel + 1, progress, moved => do
    if !(← ask .parentAlive) then pure none
    else
      if wantedBytes writing limit size moved.length = 0 then pure (some moved)
      else
        match ← ask
          (.read (if writing then .data else .file fd)
            (wantedBytes writing limit size moved.length)) with
        | .interrupted => streamLoop L fd writing limit size steps fuel progress moved
        | .failed => pure none
        | .got bytes _ =>
          if bytes = [] then pure (if writing then some moved else none)
          else if i64Max < moved.length + bytes.length then pure none
          else if !(← rxWriteAll (if writing then .file fd else .data) steps bytes) then pure none
          else if !(← ask .digest) then pure none
          else
            match ← progressAt L (if writing then "write" else "read")
              (moved.length + bytes.length) progress with
            | none => pure none
            | some progress =>
              streamLoop L fd writing limit size steps fuel progress (moved ++ bytes)

/-- The loop that reads a written file again. -/
def readbackLoop (L : Libs) (fd : Fd) (count : ℕ) : ℕ → ℕ → Bytes → Helper (Option Bytes)
  | 0, _, _ => .stop
  | fuel + 1, progress, got => do
    if count ≤ got.length then pure (some got)
    else
      match ← ask (.read (.file fd) (min (count - got.length) dataMax)) with
      | .interrupted => readbackLoop L fd count fuel progress got
      | .failed => pure none
      | .got bytes _ =>
        if bytes = [] then pure none
        else if !(← ask .digest) then pure none
        else
          match ← progressAt L "readback" (got.length + bytes.length) progress with
          | none => pure none
          | some progress => readbackLoop L fd count fuel progress (got ++ bytes)

/-- The digest of what was hashed, when OpenSSL succeeds. -/
def digestFinal (L : Libs) (bytes : Bytes) : Helper (Option Bytes) := do
  let ok : Bool ← ask .digest
  pure (if ok then (L.sha256 bytes).filter fun d => d.length = 32 else none)

/-- The second half of a write: the file is read again and has not changed. -/
def readback (L : Libs) (fuel : ℕ) (fd : Fd) (count : ℕ) (digest : Bytes) (sealed : Stat) :
    Helper (Option Stat) := do
  if !(← ask (.rewind fd)) then pure none
  else if !(← ask .digest) then pure none
  else
    match ← readbackLoop L fd count fuel 0 [] with
    | none => pure none
    | some got =>
      match ← digestFinal L got with
      | none => pure none
      | some verified =>
        if digest ≠ verified then pure none
        else
          match ← rxStatFd fd with
          | none => pure none
          | some after => pure (if sealed.sameRuntime after then some after else none)

def fsync (fd : Fd) : Helper Bool := ask (.fsync fd)

/-- A written file is synced. -/
def syncIf (writing : Bool) (fd : Fd) : Helper Bool := if writing then fsync fd else pure true

/-- What is checked when the loop has ended: the node, and the digest of what was moved. -/
def streamEnd (L : Libs) (fuel : ℕ) (fd : Fd) (writing : Bool) (before : Stat) (moved : Bytes) :
    Helper (Option (Stat × Bytes)) := do
  if !(← syncIf writing fd) then pure none
  else
    match ← rxStatFd fd with
    | none => pure none
    | some after =>
      if (!writing && !before.sameRuntime after) || after.size != moved.length then pure none
      else
        match ← digestFinal L moved with
        | none => pure none
        | some digest =>
          if writing then do
            match ← readback L fuel fd moved.length digest after with
            | none => pure none
            | some after => pure (some (after, digest))
          else pure (some (after, digest))

/-- `stream_file`. -/
def streamFile (L : Libs) (fuel : ℕ) (fd : Fd) (writing : Bool) (limit : ℕ) :
    Helper (Option Json) := do
  match ← rxStatFd fd with
  | none => pure none
  | some before =>
    if !before.isReg then pure none
    else if !(← ask .digest) then pure none
    else
      match ← streamLoop L fd writing limit before.size fuel fuel 0 [] with
      | none => pure none
      | some moved =>
        match ← streamEnd L fuel fd writing before moved with
        | none => pure none
        | some (after, digest) =>
          pure (some ((rxNodeJson after).add "sha256" (.string (hexBytes digest))))

/-! ### Operations -/

/-- The operations of a command. -/
inductive Operation where
  | stat
  | list
  | read
  | sealed
  | write
  | mkdirOwned
  | renameOwned
  | removeOwned
  | other
  deriving DecidableEq, Repr

/-- The operation of a name. -/
def Operation.of (op : Bytes) : Operation :=
  if op = ascii "stat" then .stat
  else if op = ascii "list" then .list
  else if op = ascii "read" then .read
  else if op = ascii "seal" then .sealed
  else if op = ascii "write" then .write
  else if op = ascii "mkdir-owned" then .mkdirOwned
  else if op = ascii "rename-owned" then .renameOwned
  else if op = ascii "remove-owned" then .removeOwned
  else .other

/-- `mutate`. -/
def Operation.mutates : Operation → Bool
  | .write | .mkdirOwned | .renameOwned | .removeOwned => true
  | _ => false

/-- A command that has been accepted, with the proof of its intent. -/
structure Task where
  command : Json
  op : Bytes
  path : Bytes
  toPath : Option Bytes
  seq : ℕ
  proof : Json

/-- What an operation leaves at `out`: the details of its result, if it succeeds, and the
descriptors that are open. -/
structure Outcome where
  details : Option Json
  fd : Option Fd
  parent : Option Fd

/-- The names of a directory, after `count` of them. -/
def listLoop : ℕ → ℕ → List Json → Helper (Option (List Json))
  | 0, _, _ => .stop
  | fuel + 1, count, names => do
    match ← ask .readdir with
    | .done => do
      let closed : Bool ← ask .closedir
      pure (if closed then some names else none)
    | .failed => do
      let _ ← ask .closedir
      pure none
    | .entry name =>
      if name = ascii "." ∨ name = ascii ".." then listLoop fuel count names
      else if 4096 < count + 1 ∨ !rxRelative name false ∨ slash ∈ name then do
        let _ ← ask .closedir
        pure none
      else listLoop fuel (count + 1) (names ++ [.string name])

/-- The `names` of a directory. -/
def listNames (fuel : ℕ) (fd : Fd) : Helper (Option (List Json)) := do
  match ← ask (.dup fd) with
  | none => pure none
  | some copy =>
    if !(← ask (.fdopendir copy)) then pure none
    else listLoop fuel 0 []

/-- The details of `stat`, `list`, `read` and `seal`, on an open node. -/
def inspectNode (L : Libs) (fuel : ℕ) (fs : Fs) (op : Operation) (fd : Fd) (before : Stat) :
    Helper (Option Json) := do
  match op with
  | .list =>
    if !before.isDir then pure none
    else
      match ← listNames fuel fd with
      | none => pure none
      | some names => pure (some ((rxNodeJson before).add "names" (.array names)))
  | .read => if fs.context.dataWrite then pure none else streamFile L fuel fd false 0
  | _ => pure (some (rxNodeJson before))

/-- `stat`, `list`, `read` and `seal`. -/
def inspect (L : Libs) (fuel : ℕ) (fs : Fs) (t : Task) (op : Operation) : Helper Outcome := do
  match ← openBound L fs t.path t.proof readOnly with
  | none => pure ⟨none, none, none⟩
  | some fd =>
    match ← rxStatFd fd with
    | none => pure ⟨none, some fd, none⟩
    | some before =>
      match ← inspectNode L fuel fs op fd before with
      | none => pure ⟨none, some fd, none⟩
      | some details =>
        match ← rxStatFd fd with
        | none => pure ⟨none, some fd, none⟩
        | some after =>
          pure ⟨if op = .list ∧ !before.sameRuntime after then
            none else some details, some fd, none⟩

/-- `mkdir-owned` of a directory that the proof says is there. -/
def mkdirExisting (L : Libs) (fs : Fs) (t : Task) (parent : Fd) : Helper Outcome := do
  match ← openBound L fs t.path t.proof readDirectory with
  | none => pure ⟨none, none, some parent⟩
  | some fd =>
    match ← rxStatFd fd with
    | none => pure ⟨none, some fd, some parent⟩
    | some after =>
      pure ⟨some ((rxNodeJson after).add "created" (.bool false)), some fd, some parent⟩

/-- `mkdir-owned` of a new directory. -/
def mkdirNew (t : Task) (parent : Fd) : Helper Outcome := do
  if !(← ask (.mkdirat parent (baseName t.path))) then pure ⟨none, none, some parent⟩
  else
    match ← ask (.openat parent (baseName t.path) { readDirectory with nofollow := true }) with
    | none => pure ⟨none, none, some parent⟩
    | some fd =>
      match ← rxStatFd fd with
      | none => pure ⟨none, some fd, some parent⟩
      | some after =>
        pure ⟨some ((rxNodeJson after).add "created" (.bool true)), some fd, some parent⟩

/-- The size a `write` expects: `some none` when its length is not fixed. -/
def expectedSize (command : Json) : Option (Option ℕ) := do
  let mode ← rxString command "lengthMode" 6
  if mode = ascii "stream" then some none
  else if mode = ascii "fixed" then do
    let size ← strtoull (← rxString command "expectedSize" 20)
    if i64Max < size then none else some (some size)
  else none

/-- The data of a `write`, and its size when that is fixed. -/
def writeData (L : Libs) (fuel : ℕ) (fd : Fd) (expected : Option ℕ) : Helper (Option Json) := do
  let limit := match expected with
    | some size => size + 1
    | none => 0
  match ← streamFile L fuel fd true limit with
  | none => pure none
  | some details =>
    match expected with
    | none => pure (some details)
    | some size =>
      match ← rxStatFd fd with
      | none => pure none
      | some sealed => pure (if sealed.size = size then some details else none)

/-- `write`: the file is created and announced before its data is taken. -/
def writeNew (L : Libs) (fuel : ℕ) (fs : Fs) (t : Task) (parent : Fd) : Helper Outcome := do
  if !fs.context.dataWrite then pure ⟨none, none, some parent⟩
  else
    match expectedSize t.command with
    | none => pure ⟨none, none, some parent⟩
    | some expected =>
      match ← ask (.openat parent (baseName t.path) ⟨false, true, true⟩) with
      | none => pure ⟨none, none, some parent⟩
      | some fd =>
        match ← rxStatFd fd with
        | none => pure ⟨none, some fd, some parent⟩
        | some after =>
          let created := eventFor fs.context "created" t.op t.path t.toPath ((t.seq + 1) % 2 ^ 64)
          match ← ack L fs.context
            (created.add "node" ((rxNodeJson after).add "created" (.bool true))) with
          | none => pure ⟨none, some fd, some parent⟩
          | some _ => do
            let details ← writeData L fuel fd expected
            pure ⟨details, some fd, some parent⟩

/-- `mkdir-owned` and `write`. -/
def create (L : Libs) (fuel : ℕ) (fs : Fs) (t : Task) (op : Operation) : Helper Outcome := do
  match ← boundParent L fs t.path t.proof with
  | none => pure ⟨none, none, none⟩
  | some parent =>
    match proofKey L t.path with
    | none => pure ⟨none, none, some parent⟩
    | some key =>
      if (t.proof.get key).isSome then
        if op ≠ .mkdirOwned then pure ⟨none, none, some parent⟩ else mkdirExisting L fs t parent
      else if op = .mkdirOwned then mkdirNew t parent
      else writeNew L fuel fs t parent

/-- The proof allows a rename that could replace its target. -/
def controlledRename (proof : Json) : Bool :=
  match proof.get (ascii "controlledRename") with
  | some (.bool true) => true
  | _ => false

def renameat (dir : Fd) (name : Bytes) (target : Fd) (dest : Bytes) : Helper Bool :=
  ask (.renameat dir name target dest)

/-- `renameat`, where `renameat2` is not supported: the source is still the same, and there is still
no destination. -/
def renameControlled (L : Libs) (fs : Fs) (t : Task) (before : Stat) (parent target : Fd)
    (dest : Bytes) : Helper Bool := do
  if !controlledRename t.proof then pure false
  else
    match ← openBound L fs t.path t.proof readOnly with
    | none => pure false
    | some verify =>
      match ← rxStatFd verify with
      | none => do
        let _ ← close verify
        pure false
      | some after => do
        let _ ← close verify
        if !before.sameRuntime after then pure false
        else
          match ← ask (.statxAt target dest) with
          | .missing => renameat parent (baseName t.path) target dest
          | _ => pure false

/-- The rename, when nothing has the name of the destination. -/
def renameInto (L : Libs) (fs : Fs) (t : Task) (before : Stat) (parent target : Fd) (dest : Bytes) :
    Helper Bool := do
  match ← ask (.statxAt target dest) with
  | .missing => do
    match ← ask (.renameat2 parent (baseName t.path) target dest) with
    | .renamed => pure true
    | .unsupported => renameControlled L fs t before parent target dest
    | .failed => pure false
  | _ => pure false

/-- `rename-owned`. -/
def rename (L : Libs) (fs : Fs) (t : Task) (before : Stat) (parent : Fd) : Helper Outcome := do
  match t.toPath with
  | none => pure ⟨none, none, some parent⟩
  | some toPath =>
    match ← boundParent L fs toPath t.proof with
    | none => pure ⟨none, none, some parent⟩
    | some target =>
      if !(← renameInto L fs t before parent target (baseName toPath)) then do
        let _ ← close target
        pure ⟨none, none, some parent⟩
      else
        let fd ← ask (.openat target (baseName toPath) { readOnly with nofollow := true })
        let _ ← close target
        match fd with
        | none => pure ⟨none, none, some parent⟩
        | some fd =>
          match ← rxStatFd fd with
          | none => pure ⟨none, some fd, some parent⟩
          | some after =>
            pure ⟨if after.ino = before.ino ∧ after.device = before.device then
              some (rxNodeJson after) else none, some fd,
              some parent⟩

/-- `remove-owned`. -/
def remove (t : Task) (before : Stat) (parent : Fd) : Helper Outcome := do
  if !(← ask (.unlinkat parent (baseName t.path) before.isDir)) then pure ⟨none, none, some parent⟩
  else pure ⟨some ((rxNodeJson before).add "removed" (.bool true)), none, some parent⟩

/-- `rename-owned` and `remove-owned`. -/
def relocate (L : Libs) (fs : Fs) (t : Task) (op : Operation) : Helper Outcome := do
  match ← openBound L fs t.path t.proof readOnly with
  | none => pure ⟨none, none, none⟩
  | some fd =>
    match ← rxStatFd fd with
    | none => pure ⟨none, some fd, none⟩
    | some before => do
      let _ ← close fd
      match ← boundParent L fs t.path t.proof with
      | none => pure ⟨none, none, none⟩
      | some parent =>
        if op = .removeOwned then remove t before parent else rename L fs t before parent

/-- The work of a command. -/
def perform (L : Libs) (fuel : ℕ) (fs : Fs) (t : Task) : Helper Outcome :=
  match Operation.of t.op with
  | .stat => inspect L fuel fs t .stat
  | .list => inspect L fuel fs t .list
  | .read => inspect L fuel fs t .read
  | .sealed => inspect L fuel fs t .sealed
  | .mkdirOwned => create L fuel fs t .mkdirOwned
  | .write => create L fuel fs t .write
  | .renameOwned => relocate L fs t .renameOwned
  | .removeOwned => relocate L fs t .removeOwned
  | .other => pure ⟨none, none, none⟩

/-! ### The command -/

/-- A descriptor that is open is closed. -/
def closeIf : Option Fd → Helper Bool
  | some fd => close fd
  | none => pure true

/-- `out`: the descriptors are closed, and the details are left if all went well. -/
def release (o : Outcome) : Helper (Option Json) := do
  let closedFd ← closeIf o.fd
  let closedParent ← closeIf o.parent
  pure (if closedFd && closedParent then o.details else none)

/-- The checks of a command before anything is done. -/
def admitted (L : Libs) (fs : Fs) (command : Json) (op path : Bytes) (toPath : Option Bytes)
    (seq : ℕ) : Bool :=
  decide (seq < u64Max - 2) && decide (fs.lastSequence ≠ u64Max) &&
    seq == (fs.lastSequence + 1) % 2 ^ 64 &&
  (match command.get (ascii "execution") with
    | some owner => L.equal owner fs.context.owner
    | none => false) &&
  pathAllowed fs.context path (Operation.of op).mutates &&
  (match toPath with
    | some t => pathAllowed fs.context t (Operation.of op).mutates
    | none => true)

/-- The end of a command that has succeeded: its result is sent, and `last_sequence` is written when
it is acknowledged. -/
def report (L : Libs) (fs : Fs) (t : Task) (details : Json) : Helper (Option Fs) := do
  let writes := decide (Operation.of t.op = .write)
  match if writes then (rxString details "size" 20).map digitsValue else some fs.lastCount with
  | none => pure none
  | some count =>
    let seq := (t.seq + if writes then 2 else 1) % 2 ^ 64
    let event := (eventFor fs.context "result" t.op t.path t.toPath seq).add "node" details
    match ← ack L fs.context event with
    | none => pure none
    | some _ => do
      note (.advanced seq)
      pure (some { fs with lastCount := count, lastSequence := seq })

/-- `rx_command`: the state after a command that succeeds. -/
def rxCommand (L : Libs) (fuel : ℕ) (fs : Fs) (command : Json) : Helper (Option Fs) := do
  note (.took command)
  match rxString command "operation" 24, rxString command "path" 4095, rxSequence command with
  | some op, some path, some seq =>
    let toPath := rxString command "to" 4095
    if !admitted L fs command op path toPath seq then reject
    else
      match ← ack L fs.context (eventFor fs.context "intent" op path toPath seq) with
      | none => pure none
      | some proof => do
        let outcome ← perform L fuel fs ⟨command, op, path, toPath, seq, proof⟩
        match ← release outcome with
        | none => pure none
        | some details => report L fs ⟨command, op, path, toPath, seq, proof⟩ details
  | _, _, _ => reject

/-! ### The helper -/

/-- The root is closed, and the exit status is returned. -/
def shutdown (fs : Fs) (status : ℕ) : Helper ℕ := do
  if !(← close fs.root) then pure 7 else pure status

/-- The loop of `main`. -/
def serve (L : Libs) (steps : ℕ) : ℕ → Fs → Helper ℕ
  | 0, _ => .stop
  | fuel + 1, fs => do
    if !(← ask .parentAlive) then shutdown fs 0
    else
      match ← rxReadJson L with
      | none => shutdown fs 0
      | some command =>
        match ← rxCommand L steps fs command with
        | none => shutdown fs 7
        | some fs' =>
          let complete := .object [(ascii "event", .string (ascii "done")),
            (ascii "sequence", .string (snprintf 21 (decimal fs'.lastSequence)))]
          if !(← rxEmit L complete) then shutdown fs 7
          else serve L steps fuel fs'

/-- `main` with an accepted context, when the process has its descriptors and its identity: the root
is opened, the connection is announced, and commands are served. -/
def helper (L : Libs) (fuel : ℕ) (c : Context) : Helper ℕ := do
  match ← ask .openRoot with
  | none => pure 5
  | some root =>
    match ← rxStatFd root with
    | none => pure 5
    | some st =>
      match ← ask (.mountInfo root) with
      | none => do
        let _ ← close root
        pure 5
      | some info =>
        let ready :=
          .object [(ascii "event", .string (ascii "connection-info")), (ascii "connection", info),
          (ascii "node", rxNodeJson st)]
        if !(← rxEmit L ready) then do
          let _ ← close root
          pure 6
        else serve L fuel fuel ⟨c, root, st, 0, c.sequence⟩

end Pxeos.Storage
