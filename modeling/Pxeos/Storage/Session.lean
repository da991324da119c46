import Pxeos.Storage.Command
import Mathlib.Data.List.Range

/-!
# The protocol of the helper

What the server may rely on, as a machine of its own that watches a run.  It knows of a run only
what matters to the server: the lines read, the commands taken, the events sent, the
acknowledgements accepted, the mutations of the name space, and where the helper gives up or writes
`last_sequence`.  `Orderly` says what follows for a whole run.
-/

namespace Pxeos.Storage

open Pxeos.Lib

/-! ### What a run shows -/

/-- The phases of a command that are announced. -/
inductive Phase where
  | intent
  | created
  | result
  deriving DecidableEq, Repr

/-- The phase of an event. -/
def phase (event : Json) : Option Phase :=
  match rxString event "event" 8 with
  | some p =>
    if p = ascii "intent" then some .intent
    else if p = ascii "created" then some .created
    else if p = ascii "result" then some .result
    else none
  | none => none

/-- The sequence number of an intent, a creation or a result. -/
def number (event : Json) : Option ℕ :=
  match phase event with
  | some _ => (rxString event "sequence" 20).map digitsValue
  | none => none

/-- What a step of a run shows.  `heard` is a line that was read, with the object in it if it is
well formed; `said` is an event with no number, or one that could not be sent. -/
inductive Act where
  | heard (line : Option Json)
  | took (command : Json)
  | sent (event : Json)
  | said
  | accepted (event ack : Json)
  | mutated
  | rejected
  | advanced (sequence : ℕ)
  | quiet

/-- What an event shows when it is written. -/
def sendAct (event : Json) (written : Bool) : Act :=
  if written && (number event).isSome then .sent event else .said

def mutateAct (done : Bool) : Act := if done then .mutated else .quiet

/-- What a call shows: a line, an event, a mutation that has happened, or a note. -/
def act (L : Libs) : Step → Act
  | ⟨.line, (bytes, ending)⟩ => .heard (lineJson L bytes ending)
  | ⟨.emit event, written⟩ => sendAct event written
  | ⟨.mkdirat _ _, done⟩ => mutateAct done
  | ⟨.openat _ _ flags, fd⟩ => mutateAct (flags.exclusive && Option.isSome fd)
  | ⟨.unlinkat _ _ _, done⟩ => mutateAct done
  | ⟨.renameat2 _ _ _ _, done⟩ => mutateAct (Renamed.isRenamed done)
  | ⟨.renameat _ _ _ _, done⟩ => mutateAct done
  | ⟨.note (.took command), _⟩ => .took command
  | ⟨.note (.accepted event a), _⟩ => .accepted event a
  | ⟨.note .rejected, _⟩ => .rejected
  | ⟨.note (.advanced n), _⟩ => .advanced n
  | _ => .quiet

/-- The directories a call changes, with the names in them. -/
def targets : Step → List (Fd × Bytes)
  | ⟨.mkdirat d name, _⟩ => [(d, name)]
  | ⟨.openat d name flags, _⟩ => if flags.exclusive then [(d, name)] else []
  | ⟨.unlinkat d name _, _⟩ => [(d, name)]
  | ⟨.renameat2 d name d' name', _⟩ => [(d, name), (d', name')]
  | ⟨.renameat d name d' name', _⟩ => [(d, name), (d', name')]
  | _ => []

def Act.isEvent : Act → Bool
  | .sent _ | .said => true
  | _ => false

def Act.isMutated : Act → Bool
  | .mutated => true
  | _ => false

def Act.isTook : Act → Bool
  | .took _ => true
  | _ => false

def Act.isHeard : Act → Bool
  | .heard _ => true
  | _ => false

/-- A line that is not well formed, or where the helper gives up. -/
def Act.isRejected : Act → Bool
  | .heard none | .rejected => true
  | _ => false

/-- A line is taken as a command, or accepted as an acknowledgement. -/
def Act.uses (line : Json) (x : Act) : Prop := x = .took line ∨ ∃ event, x = .accepted event line

/-- The number of an event that is sent. -/
def Act.number? : Act → Option ℕ
  | .sent event => number event
  | _ => none

/-- An acknowledgement of an event: the same sequence number, operation, path, phase and
destination, and the execution of the context. -/
structure Acknowledges (L : Libs) (c : Context) (event a : Json) : Prop where
  kind : rxString a "event" 8 = some (ascii "ack")
  sequence : rxString a "sequence" 20 = rxString event "sequence" 20
  operation : rxString a "operation" 24 = rxString event "operation" 24
  path : rxString a "path" 4095 = rxString event "path" 4095
  samePhase : rxString a "phase" 8 = rxString event "event" 8
  toPath : rxString a "to" 4095 = rxString event "to" 4095
  owner : ∃ owner, a.get (ascii "execution") = some owner ∧ L.equal owner c.owner = true
  complete : (rxString event "sequence" 20).isSome ∧ (rxString event "operation" 24).isSome ∧
    (rxString event "path" 4095).isSome ∧ (rxString event "event" 8).isSome

/-- An event with the number of a command; an empty destination is left out. -/
structure Announces (command event : Json) : Prop where
  sequence : rxSequence command = number event
  operation : rxString event "operation" 24 = rxString command "operation" 24
  path : rxString event "path" 4095 = rxString command "path" 4095
  toPath : rxString event "to" 4095 = (rxString command "to" 4095).filter (· ≠ [])

/-! ### The machine -/

/-- Where the helper is in a command. -/
inductive Mode where
  | idle
  | asked (line : Json)
  | taken (command : Json)
  | waiting (command event : Json) (mutated : Bool)
  | answered (command event line : Json) (mutated : Bool)
  | working (command : Json) (mutated : Bool)
  | confirmed (sequence : ℕ)
  | ended

/-- Events without a number may be sent. -/
def Mode.speaks : Mode → Bool
  | .asked _ | .waiting _ _ _ | .answered _ _ _ _ | .ended => false
  | _ => true

/-- The line that has been read and not yet used. -/
def Mode.pending : Mode → Option Json
  | .asked line | .answered _ _ line _ => some line
  | _ => none

/-- The state: the number of the next event, and the mode. -/
structure Session where
  next : ℕ
  mode : Mode

/-- The state that follows. -/
def Session.step (s : Session) : Act → Session
  | .heard none => { s with mode := .ended }
  | .heard (some line) =>
    { s with mode := match s.mode with
      | .idle => .asked line
      | .waiting command event mutated => .answered command event line mutated
      | mode => mode }
  | .took command => { s with mode := .taken command }
  | .sent event =>
    ⟨s.next + 1, match s.mode with
      | .taken command => .waiting command event false
      | .working command mutated => .waiting command event mutated
      | mode => mode⟩
  | .accepted event _ =>
    { s with mode := match s.mode with
      | .answered command _ _ mutated =>
        if phase event = some .result then .confirmed ((number event).getD 0)
        else .working command mutated
      | mode => mode }
  | .mutated =>
    { s with mode := match s.mode with
      | .working command _ => .working command true
      | mode => mode }
  | .rejected => { s with mode := .ended }
  | .advanced _ => { s with mode := .idle }
  | .said => s
  | .quiet => s

/-- What the helper may do. -/
def Session.Allowed (L : Libs) (c : Context) (s : Session) : Act → Prop
  | .heard _ => s.mode = .idle ∨ ∃ command event mutated, s.mode = .waiting command event mutated
  | .took command => s.mode = .asked command
  | .sent event => number event = some s.next ∧ s.next < 2 ^ 64 ∧
    ((∃ command, s.mode = .taken command ∧ phase event = some .intent ∧ Announces command event) ∨
      ∃ command mutated, s.mode = .working command mutated ∧ phase event ≠ some .intent)
  | .accepted event a =>
    ∃ command mutated, s.mode = .answered command event a mutated ∧ Acknowledges L c event a
  | .mutated => ∃ command, s.mode = .working command false
  | .advanced n => s.mode = .confirmed n
  | .said => s.mode.speaks = true
  | .rejected => True
  | .quiet => True

/-- The contract of the protocol; the environment may answer anything. -/
def protocol (L : Libs) (c : Context) : Contract Call.Answer Session where
  rely := fun _ _ => True
  guard := fun s e => s.Allowed L c (act L e)
  next := fun s e => s.step (act L e)

/-! ### What follows for a run -/

/-- **What the server may rely on.** -/
structure Orderly (L : Libs) (c : Context) (s₀ : ℕ) (acts : List Act) : Prop where
  /-- The events that are sent have consecutive numbers. -/
  consecutive : ∃ k, acts.filterMap Act.number? = List.range' (s₀ + 1) k
  /-- No number wraps. -/
  bounded : ∀ n ∈ acts.filterMap Act.number?, n < 2 ^ 64
  /-- An acknowledgement is accepted for the event just sent, and is the line that answers it. -/
  acknowledged : ∀ pre event a post, acts = pre ++ .accepted event a :: post →
    ∃ pre' mid mid', pre = pre' ++ .sent event :: (mid ++ .heard (some a) :: mid') ∧
      (∀ x ∈ mid ++ mid', x.isEvent = false ∧ x.isHeard = false) ∧ Acknowledges L c event a
  /-- A mutation follows the acknowledged intent of its command, and is the first one of the
  command. -/
  intended : ∀ pre post, acts = pre ++ .mutated :: post →
    ∃ pre' command mid event a mid',
      pre = pre' ++ .took command :: (mid ++ .accepted event a :: mid') ∧
      phase event = some .intent ∧ Announces command event ∧
        (∀ x ∈ mid ++ mid', x.isTook = false ∧ x.isMutated = false)
  /-- `last_sequence` is written when the result with its number has been acknowledged. -/
  reported : ∀ pre n post, acts = pre ++ .advanced n :: post →
    ∃ pre' event a mid, pre = pre' ++ .accepted event a :: mid ∧ phase event = some .result ∧
      number event = some n ∧
      ∀ x ∈ mid, x.isTook = false ∧ x.number? = none
  /-- A command is the line that was read last. -/
  taken : ∀ pre command post, acts = pre ++ .took command :: post →
    ∃ pre' mid, pre = pre' ++ .heard (some command) :: mid ∧ ∀ x ∈ mid, x.isEvent = false ∧
      x.isHeard = false
  /-- A command is taken when every one before it has been completed. -/
  completed : ∀ pre command mid command' post,
    acts = pre ++ .took command :: (mid ++ .took command' :: post) →
    ∃ n, Act.advanced n ∈ mid
  /-- Nothing follows a line that is read until it is taken as a command or accepted as an
  acknowledgement; so nothing follows one that is not. -/
  used : ∀ pre line mid x post, acts = pre ++ .heard (some line) :: (mid ++ x :: post) →
    x.isEvent = true ∨ x.isMutated = true ∨ x.isHeard = true → ∃ y ∈ mid, y.uses line
  /-- Nothing follows a malformed line, or any other rejection. -/
  stopped : ∀ pre x post, acts = pre ++ x :: post → x.isRejected = true →
    ∀ y ∈ post, y.isEvent = false ∧ y.isMutated = false ∧ y.isHeard = false

/-! ### The machine keeps to it -/

/-- No command is taken and nothing is mutated. -/
def Clean (acts : List Act) : Prop := ∀ x ∈ acts, x.isTook = false ∧ x.isMutated = false

/-- A command has been taken. -/
def Taken (command : Json) (acts : List Act) : Prop :=
  ∃ pre mid, acts = pre ++ .took command :: mid ∧ Clean mid

/-- The intent of a command has been acknowledged, and nothing has been mutated for it. -/
def Intended (command : Json) (acts : List Act) : Prop :=
  ∃ pre mid event a mid', acts = pre ++ .took command :: (mid ++ .accepted event a :: mid') ∧
    phase event = some .intent ∧ Announces command event ∧ Clean (mid ++ mid')

/-- An event has been sent, and none after it, and no line has been read. -/
def Sent (event : Json) (acts : List Act) : Prop :=
  ∃ pre mid, acts = pre ++ .sent event :: mid ∧ ∀ x ∈ mid, x.isEvent = false ∧ x.isHeard = false

/-- One line has been read after an event. -/
def Answered (event line : Json) (acts : List Act) : Prop :=
  ∃ pre mid mid', acts = pre ++ .sent event :: (mid ++ .heard (some line) :: mid') ∧
    ∀ x ∈ mid ++ mid', x.isEvent = false ∧ x.isHeard = false

/-- The command of an event: an intent announces it, and anything else follows its acknowledged
intent. -/
def Owed (command event : Json) (mutated : Bool) (acts : List Act) : Prop :=
  (phase event = some .intent → Taken command acts ∧ Announces command event) ∧
    (phase event ≠ some .intent → mutated = false → Intended command acts)

/-- A line has been read, and nothing has been sent since. -/
def Heard (line : Json) (acts : List Act) : Prop :=
  ∃ pre mid, acts = pre ++ .heard (some line) :: mid ∧ ∀ x ∈ mid, x.isEvent = false ∧
    x.isHeard = false

/-- No command has been taken since the last one was completed. -/
def Done (acts : List Act) : Prop :=
  (∀ x ∈ acts, x.isTook = false) ∨ ∃ pre n mid, acts = pre ++ .advanced n :: mid ∧ ∀ x ∈ mid,
    x.isTook = false

/-- The result with a number has been acknowledged. -/
def Confirmed (n : ℕ) (acts : List Act) : Prop :=
  ∃ pre event a mid, acts = pre ++ .accepted event a :: mid ∧ phase event = some .result ∧
    number event = some n ∧
    ∀ x ∈ mid, x.isTook = false ∧ x.number? = none

/-- What has happened, by the mode. -/
def Mode.History (acts : List Act) : Mode → Prop
  | .idle => Done acts
  | .asked line => Heard line acts ∧ Done acts
  | .taken command => Taken command acts
  | .waiting command event mutated => Sent event acts ∧ Owed command event mutated acts
  | .answered command event line mutated =>
    Answered event line acts ∧ Owed command event mutated acts
  | .working command mutated => mutated = false → Intended command acts
  | .confirmed n => Confirmed n acts
  | .ended => True

/-- What has been sent, by the number of the next event. -/
structure Session.Past (s₀ : ℕ) (acts : List Act) (s : Session) : Prop where
  start : s₀ + 1 ≤ s.next
  numbers : acts.filterMap Act.number? = List.range' (s₀ + 1) (s.next - (s₀ + 1))
  bounded : ∀ n ∈ acts.filterMap Act.number?, n < 2 ^ 64
  history : s.mode.History acts

lemma Clean.concat {acts : List Act} (h : Clean acts) {x : Act} (h1 : x.isTook = false)
    (h2 : x.isMutated = false) :
    Clean (acts ++ [x]) := by
  intro y hy
  rcases List.mem_append.mp hy with hy | hy
  · exact h y hy
  · rw [List.mem_singleton.mp hy]
    exact ⟨h1, h2⟩

section Concat

variable {acts : List Act} {x : Act}

lemma Taken.concat {command : Json} (h : Taken command acts) (h1 : x.isTook = false)
    (h2 : x.isMutated = false) :
    Taken command (acts ++ [x]) := by
  obtain ⟨pre, mid, rfl, hc⟩ := h
  exact ⟨pre, mid ++ [x], by simp, hc.concat h1 h2⟩

lemma Intended.concat {command : Json} (h : Intended command acts) (h1 : x.isTook = false)
    (h2 : x.isMutated = false) :
    Intended command (acts ++ [x]) := by
  obtain ⟨pre, mid, event, a, mid', rfl, hi, ha, hc⟩ := h
  refine ⟨pre, mid, event, a, mid' ++ [x], by simp, hi, ha, ?_⟩
  rw [← List.append_assoc]
  exact hc.concat h1 h2

lemma Sent.concat {event : Json} (h : Sent event acts) (h1 : x.isEvent = false)
    (h2 : x.isHeard = false) :
    Sent event (acts ++ [x]) := by
  obtain ⟨pre, mid, rfl, hc⟩ := h
  refine ⟨pre, mid ++ [x], by simp, fun y hy => ?_⟩
  rcases List.mem_append.mp hy with hy | hy
  · exact hc y hy
  · rw [List.mem_singleton.mp hy]
    exact ⟨h1, h2⟩

lemma Heard.concat {line : Json} (h : Heard line acts) (h1 : x.isEvent = false)
    (h2 : x.isHeard = false) :
    Heard line (acts ++ [x]) := by
  obtain ⟨pre, mid, rfl, hc⟩ := h
  refine ⟨pre, mid ++ [x], by simp, fun y hy => ?_⟩
  rcases List.mem_append.mp hy with hy | hy
  · exact hc y hy
  · rw [List.mem_singleton.mp hy]
    exact ⟨h1, h2⟩

lemma Answered.concat {event line : Json} (h : Answered event line acts) (h1 : x.isEvent = false)
    (h2 : x.isHeard = false) : Answered event line (acts ++ [x]) := by
  obtain ⟨pre, mid, mid', rfl, hc⟩ := h
  refine ⟨pre, mid, mid' ++ [x], by simp, fun y hy => ?_⟩
  rw [← List.append_assoc] at hy
  rcases List.mem_append.mp hy with hy | hy
  · exact hc y hy
  · rw [List.mem_singleton.mp hy]
    exact ⟨h1, h2⟩

lemma Owed.concat {command event : Json} {mutated : Bool} (h : Owed command event mutated acts)
    (h1 : x.isTook = false) (h2 : x.isMutated = false) : Owed command event mutated (acts ++ [x]) :=
  ⟨fun hi => ⟨(h.1 hi).1.concat h1 h2, (h.1 hi).2⟩, fun hi hm => (h.2 hi hm).concat h1 h2⟩

lemma Done.concat (h : Done acts) (h1 : x.isTook = false) : Done (acts ++ [x]) := by
  have hmem : ∀ l : List Act, (∀ y ∈ l, y.isTook = false) → ∀ y ∈ l ++ [x], y.isTook = false := by
    intro l hl y hy
    rcases List.mem_append.mp hy with hy | hy
    · exact hl y hy
    · rw [List.mem_singleton.mp hy]
      exact h1
  rcases h with h | ⟨pre, n, mid, rfl, h⟩
  · exact .inl (hmem acts h)
  · exact .inr ⟨pre, n, mid ++ [x], by simp, hmem mid h⟩

/-- A command that has been taken is followed by the end of one. -/
lemma Done.advanced {pre mid : List Act} {command : Json} (h : Done (pre ++ .took command :: mid)) :
    ∃ n, Act.advanced n ∈ mid := by
  rcases h with h | ⟨pre', n, mid', heq, h⟩
  · have := h (.took command) (by simp)
    cases this
  · rcases List.append_eq_append_iff.mp heq with ⟨l, rfl, hl⟩ | ⟨l, rfl, hl⟩
    · cases l with
      | nil => cases (List.cons.inj hl).1
      | cons y l =>
        refine ⟨n, ?_⟩
        rw [(List.cons.inj hl).2]
        simp
    · cases l with
      | nil => cases (List.cons.inj hl).1
      | cons y l =>
        have := h (.took command) (by rw [(List.cons.inj hl).2]; simp)
        cases this

lemma Confirmed.concat {n : ℕ} (h : Confirmed n acts) (h1 : x.isTook = false)
    (h2 : x.number? = none) :
    Confirmed n (acts ++ [x]) := by
  obtain ⟨pre, event, a, mid, rfl, hp, hn, hc⟩ := h
  refine ⟨pre, event, a, mid ++ [x], by simp, hp, hn, fun y hy => ?_⟩
  rcases List.mem_append.mp hy with hy | hy
  · exact hc y hy
  · rw [List.mem_singleton.mp hy]
    exact ⟨h1, h2⟩

end Concat

/-- An act without a number leaves the numbers as they are. -/
lemma Session.Past.unnumbered {s₀ : ℕ} {acts : List Act} {s s' : Session} (h : s.Past s₀ acts)
    {x : Act} (hx : x.number? = none) (hn : s'.next = s.next) (hh : s'.mode.History (acts ++ [x])) :
    s'.Past s₀ (acts ++ [x]) := by
  have hf : (acts ++ [x]).filterMap Act.number? = acts.filterMap Act.number? := by
    rw [List.filterMap_append]
    simp [hx]
  exact ⟨hn ▸ h.start, by rw [hf, hn]; exact h.numbers, by rw [hf]; exact h.bounded, hh⟩

lemma Mode.History.quiet {acts : List Act} {m : Mode} (h : m.History acts) :
    m.History (acts ++ [.quiet]) := by
  cases m with
  | idle => exact Done.concat h rfl
  | asked line => exact ⟨h.1.concat rfl rfl, h.2.concat rfl⟩
  | taken command => exact Taken.concat h rfl rfl
  | waiting command event mutated => exact ⟨h.1.concat rfl rfl, h.2.concat rfl rfl⟩
  | answered command event line mutated => exact ⟨h.1.concat rfl rfl, h.2.concat rfl rfl⟩
  | working command mutated => exact fun hm => (h hm).concat rfl rfl
  | confirmed n => exact Confirmed.concat h rfl rfl
  | ended => trivial

lemma Mode.History.said {acts : List Act} {m : Mode} (h : m.History acts) (hs : m.speaks = true) :
    m.History (acts ++ [.said]) := by
  cases m with
  | idle => exact Done.concat h rfl
  | asked line => cases hs
  | taken command => exact Taken.concat h rfl rfl
  | waiting command event mutated => cases hs
  | answered command event line mutated => cases hs
  | working command mutated => exact fun hm => (h hm).concat rfl rfl
  | confirmed n => exact Confirmed.concat h rfl rfl
  | ended => cases hs

/-- The next number is sent. -/
lemma Session.Past.send {s₀ : ℕ} {acts : List Act} {s : Session} (h : s.Past s₀ acts) {event : Json}
    {m : Mode} (hn : number event = some s.next) (hlt : s.next < 2 ^ 64)
    (hh : m.History (acts ++ [.sent event])) :
    Session.Past s₀ (acts ++ [.sent event]) ⟨s.next + 1, m⟩ := by
  have hf : (acts ++ [Act.sent event]).filterMap Act.number? =
      acts.filterMap Act.number? ++ [s.next] := by
    rw [List.filterMap_append]
    simp [Act.number?, hn]
  have hstart := h.start
  refine ⟨by show s₀ + 1 ≤ s.next + 1; omega, ?_, ?_, hh⟩
  · rw [hf, h.numbers]
    show _ = List.range' (s₀ + 1) (s.next + 1 - (s₀ + 1))
    rw [show s.next + 1 - (s₀ + 1) = s.next - (s₀ + 1) + 1 by omega, List.range'_concat]
    congr
    omega
  · intro n hmem
    rw [hf] at hmem
    rcases List.mem_append.mp hmem with hmem | hmem
    · exact h.bounded n hmem
    · rw [List.mem_singleton.mp hmem]
      exact hlt

/-- A result that is acknowledged has a number. -/
lemma exists_number {L : Libs} {c : Context} {event a : Json} (h : Acknowledges L c event a)
    {p : Phase} (hp : phase event = some p) : ∃ n, number event = some n := by
  obtain ⟨t, ht⟩ := Option.isSome_iff_exists.mp h.complete.1
  unfold number
  rw [hp, ht]
  exact ⟨_, rfl⟩

/-- **One step of the machine.** -/
lemma Session.Past.step {L : Libs} {c : Context} {s₀ : ℕ} {acts : List Act} {s : Session}
    (h : s.Past s₀ acts) {x : Act} (hx : s.Allowed L c x) : (s.step x).Past s₀ (acts ++ [x]) := by
  have hh := h.history
  cases x with
  | heard line =>
    cases line with
    | none => exact h.unnumbered rfl rfl trivial
    | some line =>
      refine h.unnumbered rfl rfl ?_
      show Mode.History _ (match s.mode with
        | .idle => .asked line
        | .waiting command event mutated => .answered command event line mutated
        | mode => mode)
      rcases hx with hm | ⟨command, event, mutated, hm⟩
      · rw [hm] at hh ⊢
        exact ⟨⟨acts, [], rfl, by simp⟩, Done.concat hh rfl⟩
      · rw [hm] at hh ⊢
        obtain ⟨⟨pre, mid, hacts, hc⟩, howed⟩ := hh
        exact ⟨⟨pre, mid, [], by rw [hacts]; simp, by simpa using hc⟩, howed.concat rfl rfl⟩
  | took command => exact h.unnumbered rfl rfl ⟨acts, [], rfl, by simp [Clean]⟩
  | quiet => exact h.unnumbered rfl rfl hh.quiet
  | said => exact h.unnumbered rfl rfl (hh.said hx)
  | rejected => exact h.unnumbered rfl rfl trivial
  | advanced n => exact h.unnumbered rfl rfl (.inr ⟨acts, n, [], rfl, by simp⟩)
  | mutated =>
    obtain ⟨command, hm⟩ := hx
    refine h.unnumbered rfl rfl ?_
    show Mode.History _
      (match s.mode with | .working command _ => .working command true | mode => mode)
    rw [hm]
    exact fun hf => by cases hf
  | sent event =>
    obtain ⟨hn, hlt, hmode⟩ := hx
    refine h.send hn hlt ?_
    have hsent : Sent event (acts ++ [.sent event]) := ⟨acts, [], rfl, by simp⟩
    rcases hmode with ⟨command, hm, hp, ha⟩ | ⟨command, mutated, hm, hp⟩
    · rw [hm] at hh ⊢
      exact ⟨hsent, fun _ => ⟨Taken.concat hh rfl rfl, ha⟩, fun hne => absurd hp hne⟩
    · rw [hm] at hh ⊢
      exact ⟨hsent, fun hi => absurd hi hp, fun _ hf => (hh hf).concat rfl rfl⟩
  | accepted event a =>
    obtain ⟨command, mutated, hm, ha⟩ := hx
    refine h.unnumbered rfl rfl ?_
    show Mode.History _ (match s.mode with
      | .answered command _ _ mutated =>
        if phase event = some .result then .confirmed ((number event).getD 0)
        else .working command mutated
      | mode => mode)
    rw [hm] at hh ⊢
    obtain ⟨-, hintent, hother⟩ := hh
    simp only
    split
    next hr =>
      obtain ⟨n, hn⟩ := exists_number ha hr
      rw [hn]
      exact ⟨acts, event, a, [], rfl, hr, hn, by simp⟩
    next =>
      intro hf
      by_cases hi : phase event = some .intent
      · obtain ⟨⟨pre, mid, hacts, hc⟩, hann⟩ := hintent hi
        exact ⟨pre, mid, event, a, [], by rw [hacts]; simp, hi, hann, by simpa using hc⟩
      · exact (hother hi hf).concat rfl rfl

/-! ### Runs -/

section Runs

variable {L : Libs} {c : Context} {s₀ : ℕ}

/-- The state before a run. -/
def Session.initial (s₀ : ℕ) : Session := ⟨s₀ + 1, .idle⟩

lemma past_initial : (Session.initial s₀).Past s₀ [] := by
  refine ⟨le_rfl, ?_, by simp, .inl (by simp)⟩
  simp [Session.initial]

/-- **A run of the machine.** -/
lemma past_after {τ : List Step} {s : Session} {acts : List Act} (hs : s.Past s₀ acts)
    (h : (protocol L c).Along (protocol L c).guard s τ) :
    ((protocol L c).after s τ).Past s₀ (acts ++ τ.map (act L)) := by
  induction τ generalizing s acts with
  | nil =>
    rw [List.map_nil, List.append_nil]
    exact hs
  | cons e τ ih =>
    have := ih (hs.step h.1) h.2
    rwa [List.append_assoc, List.singleton_append] at this

/-- What is neither an event nor a mutation nor a line. -/
def Act.IsStill (x : Act) : Prop := x.isEvent = false ∧ x.isMutated = false ∧ x.isHeard = false

/-- The machine does not leave `ended`. -/
lemma still_of_ended {τ : List Step} {s : Session} (hs : s.mode = .ended)
    (h : (protocol L c).Along (protocol L c).guard s τ) : ∀ x ∈ τ.map (act L), x.IsStill := by
  induction τ generalizing s with
  | nil => simp
  | cons e τ ih =>
    have he : s.Allowed L c (act L e) := h.1
    have hended : (s.step (act L e)).mode = .ended ∧ (act L e).IsStill := by
      cases hx : act L e with
      | heard line => simp [hx, Session.Allowed, hs] at he
      | took command => simp [hx, Session.Allowed, hs] at he
      | sent event => simp [hx, Session.Allowed, hs] at he
      | said => simp [hx, Session.Allowed, hs, Mode.speaks] at he
      | accepted event a => simp [hx, Session.Allowed, hs] at he
      | mutated => simp [hx, Session.Allowed, hs] at he
      | rejected => exact ⟨rfl, rfl, rfl, rfl⟩
      | advanced n => simp [hx, Session.Allowed, hs] at he
      | quiet => exact ⟨hs, rfl, rfl, rfl⟩
    intro x hx
    rcases List.mem_cons.mp hx with rfl | hx
    · exact hended.2
    · exact ih hended.1 h.2 x hx

/-- A line that has been read is used before anything else happens. -/
lemma used_of_pending {τ : List Step} {s : Session} {line : Json} (hs : s.mode.pending = some line)
    (h : (protocol L c).Along (protocol L c).guard s τ) {mid : List Act} {x : Act} {post : List Act}
    (hτ : τ.map (act L) = mid ++ x :: post) (hx : ¬x.IsStill) : ∃ y ∈ mid, y.uses line := by
  induction τ generalizing s mid with
  | nil => simp at hτ
  | cons e τ ih =>
    have he : s.Allowed L c (act L e) := h.1
    -- the first act uses the line, or leaves it pending, or is a rejection
    have hfirst : (act L e).uses line ∨ (act L e).IsStill ∧
        ((s.step (act L e)).mode.pending = some line ∨ (s.step (act L e)).mode = .ended) := by
      cases hy : act L e with
      | heard o =>
        rw [hy] at he
        rcases he with hm | ⟨command, event, mutated, hm⟩
        · simp [hm, Mode.pending] at hs
        · simp [hm, Mode.pending] at hs
      | took command =>
        rw [hy] at he
        have hm : s.mode = .asked command := he
        rw [hm] at hs
        obtain rfl := Option.some.inj hs
        exact .inl (.inl rfl)
      | sent event =>
        rw [hy] at he
        obtain ⟨-, -, ⟨command, hm, -⟩ | ⟨command, mutated, hm, -⟩⟩ := he
        · simp [hm, Mode.pending] at hs
        · simp [hm, Mode.pending] at hs
      | said =>
        rw [hy] at he
        have hspeaks : s.mode.speaks = true := he
        cases hm : s.mode <;> simp [hm, Mode.pending, Mode.speaks] at hs hspeaks
      | accepted event a =>
        rw [hy] at he
        obtain ⟨command, mutated, hm, -⟩ := he
        rw [hm] at hs
        obtain rfl := Option.some.inj hs
        exact .inl (.inr ⟨event, rfl⟩)
      | mutated =>
        rw [hy] at he
        obtain ⟨command, hm⟩ := he
        simp [hm, Mode.pending] at hs
      | rejected => exact .inr ⟨⟨rfl, rfl, rfl⟩, .inr rfl⟩
      | advanced n =>
        rw [hy] at he
        have hm : s.mode = .confirmed n := he
        simp [hm, Mode.pending] at hs
      | quiet => exact .inr ⟨⟨rfl, rfl, rfl⟩, .inl hs⟩
    cases mid with
    | nil =>
      obtain ⟨rfl, -⟩ := List.cons.inj hτ
      rcases hfirst with huses | ⟨hstill, -⟩
      · rcases huses with huses | ⟨event, huses⟩
        · rw [huses] at hx
          exact absurd ⟨rfl, rfl, rfl⟩ hx
        · rw [huses] at hx
          exact absurd ⟨rfl, rfl, rfl⟩ hx
      · exact absurd hstill hx
    | cons y mid =>
      obtain ⟨rfl, hrest⟩ := List.cons.inj hτ
      rcases hfirst with huses | ⟨-, hpending | hended⟩
      · exact ⟨_, List.mem_cons_self, huses⟩
      · obtain ⟨y, hy, huses⟩ := ih hpending h.2 hrest
        exact ⟨y, List.mem_cons_of_mem _ hy, huses⟩
      · exact absurd (still_of_ended hended h.2 x (by rw [hrest]; simp)) hx

/-- Where a run shows an act, the machine has allowed it. -/
lemma split_act {τ : List Step} {s : Session} (h : (protocol L c).Along (protocol L c).guard s τ)
    {pre : List Act} {x : Act} {post : List Act} (hsplit : τ.map (act L) = pre ++ x :: post) :
    ∃ σ ρ, σ.map (act L) = pre ∧ ρ.map (act L) = post ∧
      (protocol L c).Along (protocol L c).guard s σ ∧
      ((protocol L c).after s σ).Allowed L c x ∧
      (protocol L c).Along (protocol L c).guard (((protocol L c).after s σ).step x) ρ := by
  obtain ⟨σ, ρ', rfl, hσ, hρ'⟩ := List.map_eq_append_iff.mp hsplit
  obtain ⟨e, ρ, rfl, rfl, hρ⟩ := List.map_eq_cons_iff.mp hρ'
  obtain ⟨h1, h2⟩ := Contract.Along.append _ h
  exact ⟨σ, ρ, hσ, hρ, h1, h2.1, h2.2⟩

/-- **A run of the machine is orderly.** -/
theorem orderly_of_along {τ : List Step}
    (h : (protocol L c).Along (protocol L c).guard (Session.initial s₀) τ) :
    Orderly L c s₀ (τ.map (act L)) := by
  have hpast : ∀ σ : List Step, (protocol L c).Along (protocol L c).guard (Session.initial s₀) σ →
      ((protocol L c).after (Session.initial s₀) σ).Past s₀ (σ.map (act L)) := by
    intro σ hσ
    have hrun : _ = [] ++ σ.map (act L) := (List.nil_append _).symm
    rw [hrun]
    exact past_after past_initial hσ
  have hall := hpast τ h
  constructor
  · exact ⟨_, hall.numbers⟩
  · exact hall.bounded
  · intro pre event a post hsplit
    obtain ⟨σ, ρ, rfl, -, hσ, ⟨command, mutated, hm, ha⟩, -⟩ := split_act h hsplit
    have hh := (hpast σ hσ).history
    rw [hm] at hh
    obtain ⟨pre', mid, mid', heq, hmid⟩ := hh.1
    exact ⟨pre', mid, mid', heq, hmid, ha⟩
  · intro pre post hsplit
    obtain ⟨σ, ρ, rfl, -, hσ, ⟨command, hm⟩, -⟩ := split_act h hsplit
    have hh := (hpast σ hσ).history
    rw [hm] at hh
    obtain ⟨pre', mid, event, a, mid', heq, hi, hann, hc⟩ := hh rfl
    exact ⟨pre', command, mid, event, a, mid', heq, hi, hann, hc⟩
  · intro pre n post hsplit
    obtain ⟨σ, ρ, rfl, -, hσ, hm, -⟩ := split_act h hsplit
    have hm : ((protocol L c).after (Session.initial s₀) σ).mode = .confirmed n := hm
    have hh := (hpast σ hσ).history
    rw [hm] at hh
    exact hh
  · intro pre command post hsplit
    obtain ⟨σ, ρ, rfl, -, hσ, hm, -⟩ := split_act h hsplit
    have hm : ((protocol L c).after (Session.initial s₀) σ).mode = .asked command := hm
    have hh := (hpast σ hσ).history
    rw [hm] at hh
    exact hh.1
  · intro pre command mid command' post hsplit
    rw [← List.cons_append, ← List.append_assoc] at hsplit
    obtain ⟨σ, ρ, hpre, -, hσ, hm, -⟩ := split_act h hsplit
    have hm : ((protocol L c).after (Session.initial s₀) σ).mode = .asked command' := hm
    have hh := (hpast σ hσ).history
    rw [hm, hpre] at hh
    exact Done.advanced hh.2
  · intro pre line mid x post hsplit hx
    obtain ⟨σ, ρ, rfl, hρ, -, hallowed, halong⟩ := split_act h hsplit
    refine used_of_pending ?_ halong hρ ?_
    · rcases hallowed with hm | ⟨command, event, mutated, hm⟩
      · simp [Session.step, hm, Mode.pending]
      · simp [Session.step, hm, Mode.pending]
    · rintro ⟨h1, h2, h3⟩
      rw [h1, h2, h3] at hx
      simp at hx
  · intro pre x post hsplit hx
    obtain ⟨σ, ρ, rfl, rfl, -, -, hρ⟩ := split_act h hsplit
    refine still_of_ended ?_ hρ
    cases x with
    | heard line =>
      cases line with
      | none => rfl
      | some line => cases hx
    | rejected => rfl
    | _ => cases hx

end Runs

end Pxeos.Storage
