import Pxeos.Storage.Steps

/-!
# The helper keeps to the protocol

Every program of `Pxeos.Storage.Command` is checked against the machine of `Pxeos.Storage.Session`:
most of them show nothing, `ack` sends an event and waits, and each operation mutates the name space
at most once.
-/

namespace Pxeos.Storage

open Pxeos.Lib

/-! ### Programs that show nothing -/

/-- A step that shows nothing. -/
def QuietStep (L : Libs) (e : Step) : Prop := act L e = .quiet

lemma quiet_of_still {L : Libs} {α : Type} {p : Helper α} (h : p.Only (StillStep L)) :
    p.Only (QuietStep L) :=
  h.mono fun _ he => he.1

section Quiet

variable {L : Libs} {fs : Fs} {proof : Json} {flags : Flags}

lemma quiet_stat (fd : Fd) : (rxStatFd fd).Only (QuietStep L) := quiet_of_still (still_stat fd)

lemma quiet_close (fd : Fd) : (close fd).Only (QuietStep L) := Prog.only_ask fun _ => rfl

lemma quiet_openat {fd : Fd} {name : Bytes} (h : flags.exclusive = false) :
    (ask (.openat fd name flags)).Only (QuietStep L) :=
  Prog.only_ask fun r => by
    show mutateAct (flags.exclusive && Option.isSome r) = .quiet
    rw [h]
    rfl

/-- Closing a descriptor on the way out. -/
lemma quiet_close_none {α : Type} (fd : Fd) :
    Prog.Only (QuietStep L) (do let _ ← close fd; pure (none : Option α)) :=
  (quiet_close fd).bind fun _ => Prog.only_pure _

lemma quiet_openParts (hflags : flags.exclusive = false) :
    ∀ (ps : List Bytes) (fd : Fd) (path : Bytes),
    (openParts L fs proof flags fd path ps).Only (QuietStep L)
  | [], fd, path => trivial
  | part :: next, fd, path => by
    have hhow : ∀ how : Flags, how.exclusive = false →
        ({ how with nofollow := true } : Flags).exclusive = false :=
      fun how h => h
    refine (quiet_openat (hhow _ ?_)).bind fun r => ?_
    · split
      · exact hflags
      · rfl
    · cases r with
      | none => exact quiet_close_none fd
      | some child =>
        refine (quiet_close fd).bind fun _ => (quiet_stat child).bind fun st => ?_
        cases st with
        | none => exact quiet_close_none child
        | some st =>
          show Prog.Only (QuietStep L) (if _ then _ else _)
          split
          · exact quiet_close_none child
          · exact quiet_openParts hflags next child _

lemma quiet_openBound (path : Bytes) (hflags : flags.exclusive = false) :
    (openBound L fs path proof flags).Only (QuietStep L) := by
  unfold openBound
  split
  · trivial
  · refine (Prog.only_ask fun _ => rfl).bind fun r => ?_
    cases r with
    | none => trivial
    | some fd =>
      refine (quiet_stat fd).bind fun st => ?_
      cases st with
      | none => exact quiet_close_none fd
      | some st =>
        show Prog.Only (QuietStep L) (if _ then _ else _)
        split
        · exact quiet_close_none fd
        · exact quiet_openParts hflags _ _ _

lemma quiet_boundParent (path : Bytes) : (boundParent L fs path proof).Only (QuietStep L) :=
  quiet_openBound _ rfl

end Quiet

/-! ### Events -/

/-- The name of a phase. -/
def Phase.text : Phase → String
  | .intent => "intent"
  | .created => "created"
  | .result => "result"

/-- The fields of an event, with what is added to it. -/
def eventWith (c : Context) (phase : String) (op path : Bytes) (toPath : Option Bytes) (seq : ℕ)
    (extra : List (Bytes × Json)) :
    Json :=
  .object ([(ascii "event", .string (ascii phase)), (ascii "operation", .string op),
    (ascii "path", .string path)] ++
    (match toPath with
      | some t => if t = [] then [] else [(ascii "to", .string t)]
      | none => []) ++
    [(ascii "sequence", .string (snprintf 21 (decimal seq))), (ascii "execution", c.owner)] ++
      extra)

lemma eventFor_eq (c : Context) (phase : String) (op path : Bytes) (toPath : Option Bytes)
    (seq : ℕ) :
    eventFor c phase op path toPath seq = eventWith c phase op path toPath seq [] := by
  have hfields : ∀ fields : List (Bytes × Json), Json.object fields = .object (fields ++ []) := by
    intro fields
    rw [List.append_nil]
  exact hfields _

lemma eventFor_add (c : Context) (phase : String) (op path : Bytes) (toPath : Option Bytes)
    (seq : ℕ) (node : Json) :
    (eventFor c phase op path toPath seq).add "node" node = eventWith c phase op path toPath seq
      [(ascii "node", node)] := rfl

section Events

variable {c : Context} {phase : String} {op path : Bytes} {toPath : Option Bytes} {seq : ℕ}
  {extra : List (Bytes × Json)}

lemma event_phase (ph : Phase) :
    rxString (eventWith c ph.text op path toPath seq extra) "event" 8 = some (ascii ph.text) := by
  refine rxString_some rfl ?_ ?_
  · cases ph <;> decide
  · cases ph <;> decide

lemma event_operation (h : op.length ≤ 24 ∧ (0 : UInt8) ∉ op) :
    rxString (eventWith c phase op path toPath seq extra) "operation" 24 = some op :=
  rxString_some rfl h.1 h.2

lemma event_path (h : path.length ≤ 4095 ∧ (0 : UInt8) ∉ path) :
    rxString (eventWith c phase op path toPath seq extra) "path" 4095 = some path :=
  rxString_some rfl h.1 h.2

lemma event_sequence (h : seq < 2 ^ 64) :
    rxString (eventWith c phase op path toPath seq extra) "sequence" 20 = some (decimal seq) := by
  have hlen := decimal_length h
  have htake : snprintf 21 (decimal seq) = decimal seq := List.take_of_length_le hlen
  refine rxString_some ?_ hlen (zero_notMem_decimal seq)
  unfold eventWith
  rw [htake]
  cases toPath with
  | none => rfl
  | some t =>
    simp only
    split <;> rfl

lemma event_toPath (h : ∀ t ∈ toPath, t.length ≤ 4095 ∧ (0 : UInt8) ∉ t)
    (hextra : ∀ f ∈ extra, f.1 = ascii "node") :
    rxString (eventWith c phase op path toPath seq extra) "to" 4095 = toPath.filter (· ≠ []) := by
  have hnone : ∀ fs : List (Bytes × Json), (∀ f ∈ fs, f.1 = ascii "node") →
      fs.find? (fun f => f.1 == ascii "to") = none := by
    intro fs hfs
    rw [List.find?_eq_none]
    intro f hf
    rw [hfs f hf]
    decide
  have habsent :
      rxString (.object ([(ascii "event", .string (ascii phase)), (ascii "operation", .string op),
      (ascii "path", .string path)] ++ [] ++
      [(ascii "sequence", .string (snprintf 21 (decimal seq))), (ascii "execution", c.owner)] ++
        extra)) "to" 4095 = none := by
    have hget :
        Json.get (.object ([(ascii "event", .string (ascii phase)), (ascii "operation", .string op),
        (ascii "path", .string path)] ++ [] ++
        [(ascii "sequence", .string (snprintf 21 (decimal seq))), (ascii "execution", c.owner)] ++
          extra)) (ascii "to") =
        none := by
      show Option.map Prod.snd (List.find? _ (_ ++ extra)) = none
      rw [List.find?_append, hnone extra hextra]
      rfl
    unfold rxString
    rw [hget]
  cases toPath with
  | none => exact habsent
  | some t =>
    by_cases ht : t = []
    · subst ht
      exact habsent
    · have hf : (some t).filter (· ≠ []) = some t := by simp [Option.filter, ht]
      rw [hf]
      refine rxString_some ?_ (h t rfl).1 (h t rfl).2
      unfold eventWith
      simp only [if_neg ht]
      rfl

end Events

/-! ### Acknowledgements -/

lemma sameString_eq {s t : Option Bytes} (h : sameString s t = true) : t = s ∧ s.isSome := by
  unfold sameString at h
  rw [Bool.and_eq_true, beq_iff_eq] at h
  exact ⟨h.2.symm, h.1⟩

/-- What `ack` accepts is an acknowledgement. -/
lemma acknowledges_of_ack {L : Libs} {c : Context} {event a p : Json}
    (hp : ackProof L c event a = some p) (hn : ackNames event a = true) :
    Acknowledges L c event a := by
  unfold ackProof at hp
  simp only [Option.bind_eq_bind, Option.bind_eq_some_iff] at hp
  obtain ⟨kind, hkind, seq, hseq, as, has, owner, howner, q, -, hif⟩ := hp
  split at hif
  next h =>
    obtain ⟨rfl, rfl, heq, -⟩ := h
    simp only [ackNames, Bool.and_eq_true, beq_iff_eq] at hn
    obtain ⟨⟨⟨hop, hpath⟩, hphase⟩, hto⟩ := hn
    obtain ⟨hop, hop'⟩ := sameString_eq hop
    obtain ⟨hpath, hpath'⟩ := sameString_eq hpath
    obtain ⟨hphase, hphase'⟩ := sameString_eq hphase
    exact
      { kind := hkind
        sequence := has.trans hseq.symm
        operation := hop
        path := hpath
        samePhase := hphase
        toPath := hto.symm
        owner := ⟨owner, howner, heq⟩
        complete := ⟨by rw [hseq]; rfl, hop', hpath', hphase'⟩ }
  next => cases hif

section Ack

variable {L : Libs} {c : Context} {α β : Type} {s : Session}

lemma safe_quiet {p : Helper α} (hp : p.Only (QuietStep L)) {Q : α → Session → Prop}
    (hQ : ∀ a, Q a s) :
    (protocol L c).Safe p s Q := by
  refine Contract.safe_of_only hp (fun e he => ?_) hQ
  have he : act L e = .quiet := he
  show s.Allowed L c (act L e) ∧ s.step (act L e) = s
  rw [he]
  exact ⟨trivial, rfl⟩

lemma safe_calm {p : Helper α} (hp : p.Only (CalmStep L)) (hs : s.mode.speaks = true)
    {Q : α → Session → Prop} (hQ : ∀ a, Q a s) : (protocol L c).Safe p s Q := by
  refine Contract.safe_of_only hp (fun e he => ?_) hQ
  show s.Allowed L c (act L e) ∧ s.step (act L e) = s
  rcases he.1 with he | he
  · rw [he]
    exact ⟨trivial, rfl⟩
  · rw [he]
    exact ⟨hs, rfl⟩

/-- What shows nothing comes first. -/
lemma safe_quiet_bind {p : Helper α} (hp : p.Only (QuietStep L)) {f : α → Helper β}
    {Q : β → Session → Prop} (hf : ∀ a, (protocol L c).Safe (f a) s Q) :
    (protocol L c).Safe (p >>= f) s Q := Contract.Safe.bind (safe_quiet hp hf)

lemma safe_reject {Q : Option α → Session → Prop} (h : ∀ s', Q none s') :
    (protocol L c).Safe reject s Q :=
  fun _ _ => ⟨trivial, h _⟩

/-- The helper may send an event. -/
def Sendable (s : Session) (event : Json) : Prop :=
  number event = some s.next ∧ s.next < 2 ^ 64 ∧
    ((∃ command, s.mode = .taken command ∧ phase event = some .intent ∧ Announces command event) ∨
      ∃ command mutated, s.mode = .working command mutated ∧ phase event ≠ some .intent)

lemma Sendable.speaks {event : Json} (h : Sendable s event) : s.mode.speaks = true := by
  obtain ⟨-, -, ⟨command, hm, -⟩ | ⟨command, mutated, hm, -⟩⟩ := h
  · rw [hm]; rfl
  · rw [hm]; rfl

/-- The mode in which an event is awaited. -/
lemma Sendable.waiting {event : Json} (h : Sendable s event) :
    ∃ command mutated, (s.step (.sent event)).mode = .waiting command event mutated := by
  obtain ⟨-, -, ⟨command, hm, -⟩ | ⟨command, mutated, hm, -⟩⟩ := h
  · exact ⟨command, false, by simp [Session.step, hm]⟩
  · exact ⟨command, mutated, by simp [Session.step, hm]⟩

/-- A line is read where one is awaited. -/
lemma readJson_safe
    (hm : s.mode = .idle ∨ ∃ command event mutated, s.mode = .waiting command event mutated)
    {Q : Option Json → Session → Prop} (hfail : ∀ s', Q none s')
    (hok : ∀ line, Q (some line) (s.step (.heard (some line)))) :
    (protocol L c).Safe (rxReadJson L) s Q := by
  refine Contract.Safe.bind (Contract.safe_ask fun r _ => ?_)
  obtain ⟨bytes, ending⟩ := r
  refine ⟨hm, ?_⟩
  show Q (lineJson L bytes ending) (s.step (.heard (lineJson L bytes ending)))
  cases lineJson L bytes ending with
  | none => exact hfail _
  | some line => exact hok line

/-- The state after an event has been sent, answered and acknowledged. -/
def Session.confirm (s : Session) (event a : Json) : Session :=
  ((s.step (.sent event)).step (.heard (some a))).step (.accepted event a)

/-- An acknowledged intent. -/
lemma confirm_taken {n : ℕ} {command event a : Json} (hp : phase event = some .intent) :
    Session.confirm ⟨n, .taken command⟩ event a = ⟨n + 1, .working command false⟩ := by
  simp [Session.confirm, Session.step, hp]

/-- An acknowledged creation. -/
lemma confirm_created {n : ℕ} {command event a : Json} {mutated : Bool}
    (hp : phase event = some .created) :
    Session.confirm ⟨n, .working command mutated⟩ event a = ⟨n + 1, .working command mutated⟩ := by
  simp [Session.confirm, Session.step, hp]

/-- An acknowledged result. -/
lemma confirm_result {n m : ℕ} {command event a : Json} {mutated : Bool}
    (hp : phase event = some .result) (hn : number event = some m) :
    Session.confirm ⟨n, .working command mutated⟩ event a = ⟨n + 1, .confirmed m⟩ := by
  simp [Session.confirm, Session.step, hp, hn]

/-- A line that is read where an acknowledgement is awaited. -/
lemma mode_heard {s : Session} {command event a : Json} {mutated : Bool}
    (hm : s.mode = .waiting command event mutated) :
    (s.step (.heard (some a))).mode = .answered command event a mutated := by
  obtain ⟨n, mode⟩ := s
  subst hm
  rfl

/-- **`ack`**: the event is sent, and what is accepted acknowledges it. -/
lemma ack_safe {event : Json} (he : Sendable s event) {Q : Option Json → Session → Prop}
    (hfail : ∀ s', Q none s') (hok : ∀ p a, Q (some p) (s.confirm event a)) :
    (protocol L c).Safe (ack L c event) s Q := by
  refine safe_quiet_bind (quiet_of_still still_alive) fun alive => ?_
  show (protocol L c).Safe (if _ then _ else _) s Q
  split
  · exact safe_reject hfail
  refine Contract.Safe.seq (R := fun r s' => r = true → s' = s.step (.sent event)) ?_ fun r s' hr =>
    ?_
  · unfold rxEmit
    split
    · refine Contract.safe_ask fun r _ => ?_
      show s.Allowed L c (sendAct event r) ∧
        ((r : Bool) = true → s.step (sendAct event r) = s.step (.sent event))
      cases (r : Bool) with
      | false => exact ⟨he.speaks, fun h => by cases h⟩
      | true =>
        have hsend : sendAct event true = .sent event := by simp [sendAct, he.1]
        rw [hsend]
        exact ⟨he, fun _ => rfl⟩
    · exact fun h => by cases h
  · split
    · exact safe_reject hfail
    next hsent =>
      have hs' : s' = s.step (.sent event) := hr (by simpa using hsent)
      subst hs'
      obtain ⟨command, mutated, hm⟩ := he.waiting
      refine Contract.Safe.bind (readJson_safe (.inr ⟨command, event, mutated, hm⟩) ?_ fun a => ?_)
      · exact fun s' => safe_reject hfail
      simp only
      cases hp : ackProof L c event a with
      | none => exact safe_reject hfail
      | some p =>
        refine safe_quiet_bind (quiet_of_still still_alive) fun alive => ?_
        show (protocol L c).Safe (if _ then _ else _) _ Q
        split
        · exact safe_reject hfail
        split
        next hn =>
          exact fun _ _ => ⟨⟨command, mutated, mode_heard hm, acknowledges_of_ack hp hn⟩, hok p a⟩
        next => exact safe_reject hfail

end Ack

/-! ### Operations -/

section Operations

variable {L : Libs} {c : Context} {fs : Fs} {t : Task} {command : Json} {n : ℕ}

/-- The phase and the number of an event. -/
lemma event_number (ph : Phase) (c : Context) (op path : Bytes) (toPath : Option Bytes)
    (extra : List (Bytes × Json)) {seq : ℕ} (h : seq < 2 ^ 64) :
    phase (eventWith c ph.text op path toPath seq extra) = some ph ∧
      number (eventWith c ph.text op path toPath seq extra) = some seq := by
  have hp : phase (eventWith c ph.text op path toPath seq extra) = some ph := by
    unfold phase
    rw [event_phase ph]
    cases ph <;> rfl
  refine ⟨hp, ?_⟩
  unfold number
  rw [hp, event_sequence h, Option.map_some, digitsValue_decimal]

/-- What an operation that succeeds leaves: it is still at work, and `n` is the next number. -/
def Worked (command : Json) (n : ℕ) (o : Outcome) (s : Session) : Prop :=
  o.details.isSome → ∃ mutated, s = ⟨n, .working command mutated⟩

lemma worked_failed {s : Session} (fd parent : Option Fd) :
    Worked command n ⟨none, fd, parent⟩ s := by
  intro h
  cases h

lemma worked_same {mutated : Bool} (o : Outcome) :
    Worked command n o ⟨n, .working command mutated⟩ := fun _ => ⟨mutated, rfl⟩

/-- A mutation that is tried where none has been done: afterwards it has been done or it has
failed. -/
lemma safe_mutation (k : Call) (done : k.Answer → Bool)
    (hact : ∀ r, act L ⟨k, r⟩ = mutateAct (done r)) {Q : k.Answer → Session → Prop}
    (hdone : ∀ r, done r = true → Q r ⟨n, .working command true⟩)
    (hfail : ∀ r, done r = false → Q r ⟨n, .working command false⟩) :
    (protocol L c).Safe (ask k) ⟨n, .working command false⟩ Q := by
  refine Contract.safe_ask fun r _ => ?_
  show Session.Allowed L c _ (act L ⟨k, r⟩) ∧ Q r (Session.step _ (act L ⟨k, r⟩))
  rw [hact r]
  cases hd : done r with
  | true => exact ⟨⟨command, rfl⟩, hdone r hd⟩
  | false => exact ⟨trivial, hfail r hd⟩

lemma mkdirExisting_quiet (parent : Fd) : (mkdirExisting L fs t parent).Only (QuietStep L) := by
  refine (quiet_openBound _ rfl).bind fun fd => ?_
  cases fd with
  | none => trivial
  | some fd =>
    refine (quiet_stat fd).bind fun r => ?_
    cases r <;> trivial

lemma mkdirNew_safe (parent : Fd) :
    (protocol L c).Safe (mkdirNew t parent) ⟨n, .working command false⟩ (Worked command n) := by
  refine Contract.Safe.bind
    (safe_mutation (.mkdirat parent (baseName t.path)) (fun r => r) (fun _ => rfl) (fun r hr => ?_)
    fun r hr => ?_)
  · show (protocol L c).Safe (if _ then _ else _) _ _
    rw [if_neg (by rw [hr]; decide)]
    refine safe_quiet_bind (quiet_openat rfl) fun fd => ?_
    cases fd with
    | none => exact worked_failed _ _
    | some fd =>
      refine safe_quiet_bind (quiet_stat fd) fun st => ?_
      cases st with
      | none => exact worked_failed _ _
      | some st => exact worked_same _
  · show (protocol L c).Safe (if _ then _ else _) _ _
    rw [if_pos (by rw [hr]; rfl)]
    exact worked_failed _ _

lemma writeNew_safe (fuel : ℕ) (parent : Fd) (hseq : t.seq + 1 = n) (hn : n < 2 ^ 64) :
    (protocol L fs.context).Safe (writeNew L fuel fs t parent) ⟨n, .working command false⟩
      (Worked command (n + 1)) := by
  unfold writeNew
  split
  · exact worked_failed _ _
  split
  · exact worked_failed _ _
  next expected _ =>
    refine Contract.Safe.bind
      (safe_mutation (.openat parent (baseName t.path) ⟨false, true, true⟩)
        (fun fd => Option.isSome fd)
      (fun _ => rfl) (fun fd hfd => ?_) fun fd hfd => ?_)
    · obtain ⟨fd', hfd'⟩ := Option.isSome_iff_exists.mp hfd
      obtain rfl : fd = some fd' := hfd'
      refine safe_quiet_bind (quiet_stat fd') fun st => ?_
      cases st with
      | none => exact worked_failed _ _
      | some st =>
        have hmod : (t.seq + 1) % 2 ^ 64 = n := by rw [hseq, Nat.mod_eq_of_lt hn]
        simp only [hmod, eventFor_add]
        obtain ⟨hphase, hnum⟩ := event_number .created fs.context t.op t.path t.toPath
          [(ascii "node", (rxNodeJson st).add "created" (.bool true))] hn
        rw [show Phase.created.text = "created" from rfl] at hphase hnum
        refine Contract.Safe.bind (ack_safe ⟨hnum, hn, .inr ⟨command, true, rfl, ?_⟩⟩ ?_ ?_)
        · rw [hphase]
          decide
        · exact fun s' => worked_failed _ _
        · intro p a
          rw [confirm_created hphase]
          exact Contract.Safe.bind (safe_calm (calm_writeData fuel fd' expected) rfl
            fun details _ => ⟨true, rfl⟩)
    · obtain rfl : fd = none := Option.isSome_eq_false_iff.mp hfd |> Option.isNone_iff_eq_none.mp
      exact worked_failed _ _

lemma quiet_listNames (fuel : ℕ) (fd : Fd) : (listNames fuel fd).Only (QuietStep L) := by
  refine (Prog.only_ask fun _ => rfl).bind fun r => ?_
  cases r with
  | none => trivial
  | some copy =>
    refine (Prog.only_ask fun _ => rfl).bind fun ok => ?_
    show Prog.Only (QuietStep L) (if _ then _ else _)
    split
    · trivial
    · exact quiet_of_still (still_listLoop fuel 0 [])

lemma inspectNode_safe (fuel : ℕ) (op : Operation) (fd : Fd) (before : Stat) {s : Session}
    (hs : s.mode.speaks = true) {Q : Option Json → Session → Prop} (hQ : ∀ a, Q a s) :
    (protocol L c).Safe (inspectNode L fuel fs op fd before) s Q := by
  unfold inspectNode
  split
  · split
    · exact hQ none
    · refine safe_quiet_bind (quiet_listNames fuel fd) fun names => ?_
      cases names with
      | none => exact hQ none
      | some names => exact hQ _
  · split
    · exact hQ none
    · exact safe_calm (calm_streamFile fuel fd false 0) hs hQ
  · exact hQ _

lemma inspect_safe (fuel : ℕ) (op : Operation) {mutated : Bool} :
    (protocol L c).Safe (inspect L fuel fs t op) ⟨n, .working command mutated⟩
      (Worked command n) := by
  refine safe_quiet_bind (quiet_openBound _ rfl) fun fd => ?_
  cases fd with
  | none => exact worked_failed _ _
  | some fd =>
    refine safe_quiet_bind (quiet_stat fd) fun before => ?_
    cases before with
    | none => exact worked_failed _ _
    | some before =>
      refine Contract.Safe.bind (inspectNode_safe fuel op fd before rfl fun details => ?_)
      cases details with
      | none => exact worked_failed _ _
      | some details =>
        refine safe_quiet_bind (quiet_stat fd) fun after => ?_
        cases after with
        | none => exact worked_failed _ _
        | some after => exact worked_same _

lemma create_safe (fuel : ℕ) {op : Operation} (hop : op = .mkdirOwned ∨ op = .write)
    (hseq : t.seq + 1 = n) (hn : n < 2 ^ 64) :
    (protocol L fs.context).Safe (create L fuel fs t op) ⟨n, .working command false⟩
      (Worked command (if op = .write then n + 1 else n)) := by
  refine safe_quiet_bind (quiet_boundParent _) fun parent => ?_
  cases parent with
  | none => exact worked_failed _ _
  | some parent =>
    simp only
    cases proofKey L t.path with
    | none => exact worked_failed _ _
    | some key =>
      simp only
      split
      · split
        · exact worked_failed _ _
        next hne =>
          have hmk : op = .mkdirOwned := by simpa using hne
          rw [if_neg (by rw [hmk]; decide)]
          exact safe_quiet (mkdirExisting_quiet parent) fun o => worked_same o
      · split
        next hmk =>
          rw [if_neg (by rw [hmk]; decide)]
          exact mkdirNew_safe parent
        next hne =>
          rw [if_pos (hop.resolve_left hne)]
          exact writeNew_safe fuel parent hseq hn

lemma remove_safe (before : Stat) (parent : Fd) :
    (protocol L c).Safe (remove t before parent) ⟨n, .working command false⟩
      (Worked command n) := by
  refine Contract.Safe.bind
    (safe_mutation (.unlinkat parent (baseName t.path) before.isDir) (fun r => r) (fun _ => rfl)
    (fun r hr => ?_) fun r hr => ?_)
  · show (protocol L c).Safe (if _ then _ else _) _ _
    rw [if_neg (by rw [hr]; decide)]
    exact worked_same _
  · show (protocol L c).Safe (if _ then _ else _) _ _
    rw [if_pos (by rw [hr]; rfl)]
    exact worked_failed _ _

/-- After a rename the helper is still at work. -/
lemma renameControlled_safe (before : Stat) (parent target : Fd) (dest : Bytes) :
    (protocol L c).Safe (renameControlled L fs t before parent target dest)
      ⟨n, .working command false⟩ fun _ s =>
      ∃ mutated, s = ⟨n, .working command mutated⟩ := by
  unfold renameControlled
  split
  · exact ⟨false, rfl⟩
  refine safe_quiet_bind (quiet_openBound _ rfl) fun verify => ?_
  cases verify with
  | none => exact ⟨false, rfl⟩
  | some verify =>
    refine safe_quiet_bind (quiet_stat verify) fun st => ?_
    cases st with
    | none => exact safe_quiet_bind (quiet_close verify) fun _ => ⟨false, rfl⟩
    | some st =>
      refine safe_quiet_bind (quiet_close verify) fun _ => ?_
      show (protocol L c).Safe (if _ then _ else _) _ _
      split
      · exact ⟨false, rfl⟩
      refine safe_quiet_bind (p := ask (.statxAt target dest)) (Prog.only_ask fun _ => rfl)
        fun there => ?_
      cases there with
      | missing =>
        exact safe_mutation (.renameat parent (baseName t.path) target dest)
          (fun r => r) (fun _ => rfl)
          (fun _ _ => ⟨true, rfl⟩) fun _ _ => ⟨false, rfl⟩
      | found => exact ⟨false, rfl⟩
      | failed => exact ⟨false, rfl⟩

lemma renameInto_safe (before : Stat) (parent target : Fd) (dest : Bytes) :
    (protocol L c).Safe (renameInto L fs t before parent target dest)
      ⟨n, .working command false⟩ fun _ s =>
      ∃ mutated, s = ⟨n, .working command mutated⟩ := by
  refine safe_quiet_bind (p := ask (.statxAt target dest)) (Prog.only_ask fun _ => rfl)
    fun there => ?_
  cases there with
  | missing =>
    refine Contract.Safe.bind
      (safe_mutation (.renameat2 parent (baseName t.path) target dest) Renamed.isRenamed
      (fun _ => rfl) (fun r hr => ?_) fun r hr => ?_)
    · cases r with
      | renamed => exact ⟨true, rfl⟩
      | unsupported => cases hr
      | failed => cases hr
    · cases r with
      | renamed => cases hr
      | unsupported => exact renameControlled_safe before parent target dest
      | failed => exact ⟨false, rfl⟩
  | found => exact ⟨false, rfl⟩
  | failed => exact ⟨false, rfl⟩

lemma rename_safe (before : Stat) (parent : Fd) :
    (protocol L c).Safe (rename L fs t before parent) ⟨n, .working command false⟩
      (Worked command n) := by
  unfold rename
  split
  · exact worked_failed _ _
  next toPath _ =>
    refine safe_quiet_bind (quiet_boundParent _) fun target => ?_
    cases target with
    | none => exact worked_failed _ _
    | some target =>
      refine Contract.Safe.seq (renameInto_safe before parent target _) fun done s' hs' => ?_
      obtain ⟨mutated, rfl⟩ := hs'
      split
      · exact safe_quiet_bind (quiet_close target) fun _ => worked_failed _ _
      refine safe_quiet_bind (quiet_openat rfl) fun fd =>
        safe_quiet_bind (quiet_close target) fun _ => ?_
      cases fd with
      | none => exact worked_failed _ _
      | some fd =>
        refine safe_quiet_bind (quiet_stat fd) fun st => ?_
        cases st with
        | none => exact worked_failed _ _
        | some st => exact worked_same _

lemma relocate_safe (op : Operation) :
    (protocol L c).Safe (relocate L fs t op) ⟨n, .working command false⟩ (Worked command n) := by
  refine safe_quiet_bind (quiet_openBound _ rfl) fun fd => ?_
  cases fd with
  | none => exact worked_failed _ _
  | some fd =>
    refine safe_quiet_bind (quiet_stat fd) fun st => ?_
    cases st with
    | none => exact worked_failed _ _
    | some before =>
      refine safe_quiet_bind (quiet_close fd) fun _ => safe_quiet_bind (quiet_boundParent _)
        fun parent => ?_
      cases parent with
      | none => exact worked_failed _ _
      | some parent =>
        simp only
        split
        · exact remove_safe before parent
        · exact rename_safe before parent

/-- **The work of a command.** -/
lemma perform_safe (fuel : ℕ) (hseq : t.seq + 1 = n) (hn : n < 2 ^ 64) :
    (protocol L fs.context).Safe (perform L fuel fs t) ⟨n, .working command false⟩
      (Worked command (if Operation.of t.op = .write then n + 1 else n)) := by
  unfold perform
  cases Operation.of t.op with
  | stat => exact inspect_safe fuel .stat
  | list => exact inspect_safe fuel .list
  | read => exact inspect_safe fuel .read
  | sealed => exact inspect_safe fuel .sealed
  | write => exact create_safe fuel (.inr rfl) hseq hn
  | mkdirOwned => exact create_safe fuel (.inl rfl) hseq hn
  | renameOwned => exact relocate_safe _
  | removeOwned => exact relocate_safe _
  | other => exact worked_failed _ _

end Operations

/-! ### Commands -/

section Commands

variable {L : Libs}

lemma quiet_closeIf (fd : Option Fd) : (closeIf fd).Only (QuietStep L) := by
  cases fd with
  | none => trivial
  | some fd => exact quiet_close fd

/-- `out` leaves details only if there were some. -/
lemma release_safe {c : Context} {s : Session} (o : Outcome) :
    (protocol L c).Safe (release o) s fun r s' => s' = s ∧ (r.isSome → o.details.isSome) := by
  refine safe_quiet_bind (quiet_closeIf o.fd) fun a =>
    safe_quiet_bind (quiet_closeIf o.parent) fun b => ?_
  refine ⟨rfl, fun h => ?_⟩
  split at h
  · exact h
  · cases h

/-- The state between two commands. -/
def Between (fs : Fs) : Session := ⟨fs.lastSequence + 1, .idle⟩

/-- The state when the next line has been read. -/
def Asked (fs : Fs) (command : Json) : Session := ⟨fs.lastSequence + 1, .asked command⟩

/-- What a command that succeeds leaves. -/
def Completed (fs : Fs) (r : Option Fs) (s : Session) : Prop :=
  ∀ fs', r = some fs' → s = Between fs' ∧ fs'.context = fs.context ∧ fs'.lastSequence < 2 ^ 64

lemma completed_none {fs : Fs} (s : Session) : Completed fs none s := fun _ h => by cases h

lemma report_safe {fs : Fs} {t : Task} {details command : Json} {mutated : Bool}
    (hlt : t.seq + (if Operation.of t.op = .write then 2 else 1) < 2 ^ 64) :
    (protocol L fs.context).Safe (report L fs t details)
      ⟨t.seq + (if Operation.of t.op = .write then 2 else 1), .working command mutated⟩
        (Completed fs) := by
  have hseq : (t.seq + (if (decide (Operation.of t.op = .write)) = true then 2 else 1)) % 2 ^ 64 =
      t.seq + (if Operation.of t.op = .write then 2 else 1) := by
    simp only [decide_eq_true_eq]
    exact Nat.mod_eq_of_lt hlt
  generalize hN : t.seq + (if Operation.of t.op = .write then 2 else 1) = N at hlt hseq
  unfold report
  simp only [hseq, eventFor_add]
  split
  · exact completed_none _
  next count _ =>
    have hr := event_number .result fs.context t.op t.path t.toPath [(ascii "node", details)] hlt
    rw [show Phase.result.text = "result" from rfl] at hr
    refine Contract.Safe.bind (ack_safe ⟨hr.2, hlt, .inr ⟨command, mutated, rfl, ?_⟩⟩ ?_ ?_)
    · rw [hr.1]
      decide
    · exact fun s' => completed_none s'
    · intro p a
      rw [confirm_result hr.1 hr.2]
      refine fun _ _ => ⟨rfl, fun fs' hfs' => ?_⟩
      obtain rfl := Option.some.inj hfs'
      exact ⟨rfl, rfl, hlt⟩

/-- **A command.** -/
lemma rxCommand_safe (fuel : ℕ) {fs : Fs} (hlast : fs.lastSequence < 2 ^ 64) (command : Json) :
    (protocol L fs.context).Safe (rxCommand L fuel fs command) (Asked fs command)
      (Completed fs) := by
  refine Contract.Safe.bind fun _ _ => ⟨rfl, ?_⟩
  show (protocol L fs.context).Safe _ ⟨fs.lastSequence + 1, .taken command⟩ _
  cases hop : rxString command "operation" 24 with
  | none => exact safe_reject completed_none
  | some op =>
    cases hpath : rxString command "path" 4095 with
    | none => exact safe_reject completed_none
    | some path =>
      cases hseq : rxSequence command with
      | none => exact safe_reject completed_none
      | some seq =>
        simp only
        split
        · exact safe_reject completed_none
        next hadm =>
          have hadm : admitted L fs command op path (rxString command "to" 4095) seq = true := by
            simpa using hadm
          simp only [admitted, Bool.and_eq_true, decide_eq_true_eq, beq_iff_eq] at hadm
          obtain ⟨⟨⟨⟨⟨hmax, hne⟩, hnext⟩, -⟩, -⟩, -⟩ := hadm
          have hmod : (fs.lastSequence + 1) % 2 ^ 64 = fs.lastSequence + 1 := by
            refine Nat.mod_eq_of_lt ?_
            unfold u64Max at hne
            omega
          rw [hmod] at hnext
          unfold u64Max at hmax
          have hi := event_number .intent fs.context op path (rxString command "to" 4095) []
            (show seq < 2 ^ 64 by omega)
          rw [show Phase.intent.text = "intent" from rfl] at hi
          have hann :
              Announces command
                (eventWith fs.context "intent" op path (rxString command "to" 4095) seq []) :=
            { sequence := hseq.trans hi.2.symm
              operation := by rw [event_operation (rxString_spec hop), hop]
              path := by rw [event_path (rxString_spec hpath), hpath]
              toPath := event_toPath (fun t ht => rxString_spec ht) (by simp) }
          rw [eventFor_eq, ← hnext]
          refine Contract.Safe.bind
            (ack_safe ⟨hi.2, by show seq < 2 ^ 64; omega, .inl ⟨command, rfl, hi.1, hann⟩⟩ ?_ ?_)
          · exact completed_none
          · intro proof a
            rw [confirm_taken hi.1]
            refine Contract.Safe.seq
              (perform_safe fuel (t := ⟨command, op, path, rxString command "to" 4095, seq, proof⟩)
              rfl (by omega)) fun outcome s' hw => ?_
            refine Contract.Safe.seq (release_safe outcome) fun details s'' hs'' => ?_
            obtain ⟨rfl, hsome⟩ := hs''
            cases details with
            | none => exact completed_none _
            | some details =>
              obtain ⟨mutated, rfl⟩ := hw (hsome rfl)
              have hlt : seq + (if Operation.of op = .write then 2 else 1) < 2 ^ 64 := by
                split <;> omega
              have hN : (if Operation.of op = .write then seq + 1 + 1 else seq + 1) =
                  seq + if Operation.of op = .write then 2 else 1 := by
                split <;> rfl
              simp only [hN]
              exact report_safe (t := ⟨command, op, path, rxString command "to" 4095, seq, proof⟩)
                hlt

/-- **The loop.** -/
lemma serve_safe (steps : ℕ) : ∀ (fuel : ℕ) (fs : Fs), fs.lastSequence < 2 ^ 64 →
    (protocol L fs.context).Safe (serve L steps fuel fs) (Between fs) fun _ _ => True
  | 0, _, _ => trivial
  | fuel + 1, fs, hlast => by
    have hdown : ∀ (status : ℕ) (s : Session), (protocol L fs.context).Safe (shutdown fs status) s
        fun _ _ => True := by
      intro status s
      refine safe_quiet_bind (quiet_close fs.root) fun r => ?_
      show (protocol L fs.context).Safe (if _ then _ else _) _ _
      split <;> trivial
    refine safe_quiet_bind (quiet_of_still still_alive) fun alive => ?_
    show (protocol L fs.context).Safe (if _ then _ else _) _ _
    split
    · exact hdown 0 _
    refine Contract.Safe.bind (readJson_safe (.inl rfl) ?_ fun command => ?_)
    · exact fun s' => hdown 0 s'
    · refine Contract.Safe.seq (rxCommand_safe steps hlast command) fun r s' hr => ?_
      cases r with
      | none => exact hdown 7 _
      | some fs' =>
        obtain ⟨rfl, hctx, hlast'⟩ := hr fs' rfl
        refine Contract.Safe.bind (safe_calm (calm_emit rfl) rfl fun sent => ?_)
        split
        · exact hdown 7 _
        · rw [← hctx]
          exact serve_safe steps fuel fs' hlast'

lemma helper_safe (fuel : ℕ) {c : Context} (hc : c.sequence < 2 ^ 64) :
    (protocol L c).Safe (helper L fuel c) (Session.initial c.sequence) fun _ _ => True := by
  refine safe_quiet_bind (p := ask .openRoot) (Prog.only_ask fun _ => rfl) fun root => ?_
  cases root with
  | none => trivial
  | some root =>
    refine safe_quiet_bind (quiet_stat root) fun st => ?_
    cases st with
    | none => trivial
    | some st =>
      refine safe_quiet_bind (p := ask (.mountInfo root)) (Prog.only_ask fun _ => rfl) fun info =>
        ?_
      cases info with
      | none => exact safe_quiet_bind (quiet_close root) fun _ => trivial
      | some info =>
        refine Contract.Safe.bind (safe_calm (calm_emit rfl) rfl fun sent => ?_)
        split
        · exact safe_quiet_bind (quiet_close root) fun _ => trivial
        · exact serve_safe fuel fuel ⟨c, root, st, 0, c.sequence⟩ hc

end Commands

end Pxeos.Storage
