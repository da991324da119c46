import Pxeos.Lib.Checks
import Pxeos.Report.Flush

/-!
# A whole session

The imaging process queues events, the reporter folds and sends until it is killed, and the flush
ends the session.
-/

namespace Pxeos.Report

open Pxeos.Lib Script

/-! ### Sessions -/

/-- A snapshot as the imaging process plans it. -/
structure Plan where
  snapshot : Snapshot
  nodup : (snapshot.items.map Item.key).Nodup
  fresh : ∀ i ∈ snapshot.items, i.sequence = 0

/-- The files when the plan has been written and sent, and `number` events have been queued
before. -/
def Plan.written (plan : Plan) (number : ℕ) : State :=
  ⟨plan.snapshot, none, [], number, false, [], [], [plan.snapshot]⟩

/-- The reporter until it is killed or ends, with what the imaging process queues meanwhile. -/
structure Reported where
  plan : Plan
  number : ℕ
  runId : Str
  attempt : ℕ
  turns : ℕ
  reporter : List (Sigma Answer)
  ended : Option (Except ℕ Unit × Vars)
  runs : Prog.Runs (statusReporter runId attempt turns initialVars) reporter ended
  answers : (contract plan.snapshot.items false).Along (Fitting false)
    (plan.written number) reporter

/-- The files when the reporter is gone. -/
def Reported.killed (S : Reported) : State :=
  (contract S.plan.snapshot.items false).after (S.plan.written S.number) S.reporter

/-- A session: what the imaging process queues afterwards, and the flush. -/
structure Session extends Reported where
  later : List Move
  legal : Legal toReported.killed later
  flush : List (Sigma Answer)
  vars : FlushVars
  flushed : Prog.Runs (partitionProgressFlush initialFlushVars) flush (some (.ok (), vars))
  flushAnswers : (contract plan.snapshot.items true).Along (Fitting true)
    (moves toReported.killed later) flush

/-- The files at the end. -/
def Session.final (S : Session) : State :=
  (contract S.plan.snapshot.items true).after (moves S.killed S.later) S.flush

/-- The events that the imaging process has queued, in order. -/
def Session.events (S : Session) : List Event := S.final.queued.map Prod.snd

/-- **The progress fold**: what the final snapshot shows, which events have been applied, and the
sequences in the snapshots that were sent. -/
structure Folded (S : Session) : Prop where
  shows : Shows S.plan.snapshot.items S.events S.final.snapshot
  applied : AtLeastOnce (changes S.events) S.final.applied
  sequences : S.final.sent.Pairwise fun x y =>
    List.Forall₂ (fun i j => j.key = i.key ∧ i.sequence ≤ j.sequence ∧
      (i.status ≠ j.status → i.sequence ≠ j.sequence))
      x.items y.items

/-! ### Along a run -/

variable {plan : List Item} {solo : Bool}

lemma counter_moves (s : State) (ms : List Move) : s.counter ≤ (moves s ms).counter := by
  induction ms generalizing s with
  | nil => exact Nat.le_refl _
  | cons m ms ih =>
    refine Nat.le_trans ?_ (ih (m.next s))
    cases m with
    | number => exact Nat.le_succ _
    | publish e => exact Nat.le_refl _

lemma counter_command (s : State) (c : Command) (ok : Bool) :
    (c.effect s ok).counter = s.counter := by
  unfold Command.effect
  split
  · rfl
  · rfl
  · split <;> rfl
  · rfl
  · rfl
  · rfl
  · rfl

lemma counter_effect (s : State) (c : Call) (x : c.Value) : (c.effect s x).counter = s.counter := by
  cases c with
  | run c => exact counter_command s c x
  | _ => rfl

lemma counter_after (s : State) (τ : List (Sigma Answer)) :
    s.counter ≤ ((contract plan solo).after s τ).counter := by
  induction τ generalizing s with
  | nil => exact Nat.le_refl _
  | cons e τ ih =>
    refine Nat.le_trans ?_ (ih _)
    show s.counter ≤ (e.1.effect (moves s e.2.moves) e.2.result).counter
    rw [counter_effect]
    exact counter_moves _ _

/-- If there are few events at the end, there are few all along. -/
lemma along_rely {s : State} {τ : List (Sigma Answer)}
    (h : (contract plan solo).Along (Fitting solo) s τ)
    (hcount : ((contract plan solo).after s τ).counter < 10 ^ 10) :
    (contract plan solo).Along (contract plan solo).rely s τ := by
  induction τ generalizing s with
  | nil => trivial
  | cons e τ ih =>
    refine ⟨⟨h.1, ?_⟩, ih h.2 hcount⟩
    have hafter := @counter_after plan solo ((contract plan solo).next s e) τ
    have hstep : ((contract plan solo).next s e).counter = (moves s e.2.moves).counter :=
      counter_effect _ _ _
    have hcount' : ((contract plan solo).after ((contract plan solo).next s e) τ).counter <
        10 ^ 10 := hcount
    omega

/-- The sequences in the snapshot and in the temporary file. -/
structure Bounded (k : ℕ) (s : State) : Prop where
  snapshot : ∀ i ∈ s.snapshot.items, i.sequence ≤ k
  tmp : ∀ f x, s.tmp = some (f, x) → ∀ i ∈ x.items, i.sequence ≤ k

lemma nextSequence_le (n : ℕ) : nextSequence n ≤ n + 1 := by
  unfold nextSequence
  split <;> omega

lemma sequence_apply {f : Filter} {x : Snapshot} {k : ℕ} (h : ∀ i ∈ x.items, i.sequence ≤ k) :
    ∀ i ∈ (f.apply x).items, i.sequence ≤ k + 1 := by
  intro j hj
  obtain ⟨i, hi, rfl⟩ := List.mem_map.mp hj
  have hle := h i hi
  have hnext := nextSequence_le i.sequence
  split
  · cases f with
    | item c => exact hnext.trans (Nat.succ_le_succ hle)
    | sample key percent =>
      unfold Filter.onItem
      dsimp only
      split
      · exact hnext.trans (Nat.succ_le_succ hle)
      · exact Nat.le_succ_of_le hle
    | heartbeat key => exact hnext.trans (Nat.succ_le_succ hle)
  · exact Nat.le_succ_of_le hle

lemma Bounded.succ {k : ℕ} {s : State} (h : Bounded k s) : Bounded (k + 1) s :=
  ⟨fun i hi => Nat.le_succ_of_le (h.snapshot i hi),
    fun f x hf i hi => Nat.le_succ_of_le (h.tmp f x hf i hi)⟩

/-- A command adds at most one to a sequence. -/
lemma Bounded.command {k : ℕ} {s : State} (h : Bounded k s) (c : Command) (ok : Bool) :
    Bounded (k + 1) (c.effect s ok) := by
  have hmoved : ∀ new : Snapshot, (∀ i ∈ new.items, i.sequence ≤ k) → ∀ l,
      Bounded (k + 1) { s with snapshot := new, tmp := none, applied := l } := fun new hnew l =>
    ⟨fun i hi => Nat.le_succ_of_le (hnew i hi), fun f x hf => by cases hf⟩
  unfold Command.effect
  split
  · next f =>
    refine ⟨h.succ.snapshot, fun g x hg => ?_⟩
    obtain ⟨-, rfl⟩ := Prod.mk.inj (Option.some.inj hg)
    exact sequence_apply h.snapshot
  · exact hmoved _ h.snapshot _
  · split
    · next htmp => exact hmoved _ (h.tmp _ _ htmp) _
    · next htmp => exact hmoved _ (h.tmp _ _ htmp) _
    · exact h.succ
  · exact hmoved _ h.snapshot _
  · exact ⟨h.succ.snapshot, h.succ.tmp⟩
  · exact ⟨h.succ.snapshot, h.succ.tmp⟩
  · exact h.succ

lemma Bounded.effect {k : ℕ} {s : State} (h : Bounded k s) (c : Call) (x : c.Value) :
    Bounded (k + 1) (c.effect s x) := by
  cases c with
  | run c => exact h.command c x
  | _ => exact h.succ

lemma Bounded.moves {k : ℕ} {s : State} (h : Bounded k s) (ms : List Move) :
    Bounded k (moves s ms) := by
  obtain ⟨hsnap, htmp⟩ := moves_frame s ms
  exact ⟨by rw [hsnap]; exact h.snapshot, by rw [htmp]; exact h.tmp⟩

lemma Bounded.after {k : ℕ} {s : State} (h : Bounded k s) (τ : List (Sigma Answer)) :
    Bounded (k + τ.length) ((contract plan solo).after s τ) := by
  induction τ generalizing s k with
  | nil => exact h
  | cons e τ ih =>
    have hstep := ih ((h.moves e.2.moves).effect e.1 e.2.result)
    have hlen : k + (e :: τ).length = k + 1 + τ.length := by rw [List.length_cons]; omega
    rw [hlen]
    exact hstep

/-! ### The session -/

variable {S : Session}

lemma Plan.inv (P : Plan) (number : ℕ) : Inv P.snapshot.items false (P.written number) 0 0 [] where
  le := Nat.le_refl _
  le_succ := Nat.zero_le _
  le_length := Nat.le_refl _
  queue := rfl
  ahead := List.nil_prefix
  all := fun h => Bool.noConfusion h
  increasing := .nil
  numbers := fun x hx => absurd hx List.not_mem_nil
  legal := fun x hx => absurd hx List.not_mem_nil
  shows := List.forall₂_same.mpr fun i _ => ⟨rfl, rfl, fun _ => ⟨rfl, rfl⟩⟩
  applied := .nil
  tmp := fun f x h => by cases h
  sent := List.pairwise_singleton _ _
  last := fun x hx => by
    rw [List.mem_singleton.mp hx]
    exact Later.rfl' _

/-- A guard that holds after every entry holds at the end. -/
lemma after_of_guard {s : State} {τ : List (Sigma Answer)}
    (hs : ∃ r a files, Inv plan solo s r a files)
    (h : (contract plan solo).Along (contract plan solo).guard s τ) :
    ∃ r a files, Inv plan solo ((contract plan solo).after s τ) r a files := by
  induction τ generalizing s with
  | nil => exact hs
  | cons e τ ih => exact ih h.1 h.2

/-- The invariant when the reporter is gone, wherever it was killed. -/
lemma Session.inv_killed (S : Session) (hcount : S.killed.counter < 10 ^ 10) :
    Somewhere S.plan.snapshot.items S.killed := by
  have hinv := S.plan.inv S.number
  have hsafe := holds_statusReporter (v := initialVars) S.runId S.attempt S.turns hinv.somewhere
  obtain ⟨hguard, -⟩ := Contract.Safe.along hsafe S.runs (along_rely S.answers hcount)
  obtain ⟨r, a, files, h⟩ := after_of_guard ⟨0, 0, [], hinv⟩ hguard
  exact h.somewhere

lemma Inv.alone {s : State} {r a : ℕ} {files : List (ℕ × Event)} (h : Inv plan false s r a files) :
    Inv plan true s r a (s.queued.drop r) :=
  { h with
    ahead := List.prefix_rfl
    all := fun _ => rfl }

/-- The invariant at the end: all events have been moved. -/
lemma Session.inv_final (S : Session) (hcount : S.final.counter < 10 ^ 10) :
    ∃ r a, Inv S.plan.snapshot.items true S.final r a [] ∧ S.final.queued.length ≤ a := by
  have hlater : (moves S.killed S.later).counter < 10 ^ 10 :=
    Nat.lt_of_le_of_lt (@counter_after S.plan.snapshot.items true _ S.flush) hcount
  obtain ⟨r, a, hkilled⟩ :=
    S.inv_killed (Nat.lt_of_le_of_lt (counter_moves S.killed S.later) hlater)
  have hmoved := (hkilled.moves S.legal fun h => Bool.noConfusion h).alone
  have hsafe := holds_flush (v := initialFlushVars) (E := fun _ _ _ => True) hmoved
  obtain ⟨-, hend⟩ := Contract.Safe.along hsafe S.flushed (along_rely S.flushAnswers hcount)
  obtain ⟨r', a', h⟩ := hend _ rfl
  have hdrop : S.final.queued.drop r' = [] := (h.all rfl).symm
  refine ⟨r', a', h, ?_⟩
  exact (List.drop_eq_nil_iff.mp hdrop).trans h.le

/-- **The progress fold.**  It holds as long as there are numbers of ten digits, and no sequence
reaches the integers that `jq` cannot count any more. -/
theorem progress_folded (S : Session) (hcount : S.final.counter < 10 ^ 10)
    (hlength : S.reporter.length + S.flush.length < 2 ^ 53) : Folded S := by
  obtain ⟨r, a, h, hlen⟩ := S.inv_final hcount
  have htake : S.final.queued.take a = S.final.queued := List.take_of_length_le hlen
  have hfirst : Bounded 0 (S.plan.written S.number) :=
    ⟨fun i hi => (S.plan.fresh i hi).le, fun f x hf => by cases hf⟩
  have hbound : Bounded (0 + S.reporter.length + S.flush.length) S.final :=
    ((hfirst.after S.reporter).moves S.later).after S.flush
  refine ⟨?_, ?_, ?_⟩
  · have := h.shows
    rwa [htake] at this
  · have := h.applied
    rwa [htake] at this
  · refine h.sent.imp_of_mem fun {x y} _ hy hlater => ?_
    -- The sequences in `y` are not greater than those at the end.
    have hsmall : ∀ j ∈ y.items, j.sequence < 2 ^ 53 := by
      intro j hj
      obtain ⟨i, hi, hji⟩ := exists_right_of_forall₂ (h.last y hy) hj
      have h1 := hji.sequence
      have h2 := hbound.snapshot i hi
      omega
    have hboth := (List.forall₂_and_left _ _).mpr ⟨hsmall, hlater.flip⟩
    refine (List.Forall₂.imp (fun j i hji => ?_) hboth).flip
    obtain ⟨hj, hij⟩ := hji
    refine ⟨hij.key, hij.sequence, fun hne heq => ?_⟩
    rcases hij.status hne with hlt | hbig
    · exact Nat.lt_irrefl _ (heq ▸ hlt)
    · omega

/-! ### Two events -/

instance (s : State) : ∀ (c : Command) (ok : Bool), Decidable (c.Fits s ok)
  | .snapshotReadable, ok => inferInstanceAs (Decidable (ok = true))
  | .eventsDir, ok => inferInstanceAs (Decidable (s.queue ≠ [] → ok = true))
  | .isFile name, ok => inferInstanceAs (Decidable (ok = decide (name ∈ s.queue.map Prod.fst)))
  | .attemptIs attempt, ok =>
    inferInstanceAs (Decidable (ok = true → s.snapshot.version = 2 ∧ s.snapshot.attempt = attempt))
  | .sleep, _ | .pollCancel, _ | .dataPhaseActive, _ | .commandJq, _ | .jq _, _ | .moveTmp,
      _ | .removeTmp, _
  | .removeEvent _, _ | .taskContext, _ | .postSnapshot _ _, _ | .postHeartbeat, _ | .postPercent _,
      _ => isTrue trivial

instance (s : State) : ∀ (c : Call) (x : c.Value), Decidable (c.Fits s x)
  | .run c, (ok : Bool) => inferInstanceAs (Decidable (c.Fits s ok))
  | .glob, (names : List Str) => inferInstanceAs (Decidable (names = globbed s))
  | .readEvent _, none => isTrue fun _ h => by cases h
  | .readEvent name, some e =>
    decidable_of_iff ((name, e) ∈ s.queue) ⟨fun h _ he => Option.some.inj he ▸ h, fun h => h e rfl⟩
  | .cat, none => isTrue fun _ h => by cases h
  | .cat, some x =>
    decidable_of_iff (x = s.snapshot) ⟨fun h _ hx => Option.some.inj hx ▸ h, fun h => h x rfl⟩
  | .date, _ | .digest, _ | .statusRecord, _ | .nextPct _, _ => isTrue trivial

instance : ∀ (c : Call) (x : c.Value), Decidable (c.Succeeds x)
  | .run .commandJq, (ok : Bool) => inferInstanceAs (Decidable (ok = true))
  | .run (.jq (.item _)), (ok : Bool) => inferInstanceAs (Decidable (ok = true))
  | .run .moveTmp, (ok : Bool) => inferInstanceAs (Decidable (ok = true))
  | .run (.removeEvent _), (ok : Bool) => inferInstanceAs (Decidable (ok = true))
  | .readEvent _, r => inferInstanceAs (Decidable (r.isSome = true))
  | .run (.jq (.sample _ _)), _ | .run (.jq (.heartbeat _)), _ | .run .sleep,
      _ | .run .pollCancel, _
  | .run .dataPhaseActive, _ | .run .snapshotReadable, _ | .run .eventsDir, _ | .run (.isFile _),
      _ | .run .removeTmp, _
  | .run (.attemptIs _), _ | .run .taskContext, _ | .run (.postSnapshot _ _),
      _ | .run .postHeartbeat, _
  | .run (.postPercent _), _ | .date, _ | .glob, _ | .cat, _ | .digest, _ | .statusRecord,
      _ | .nextPct _, _ =>
    isTrue trivial

/-- An answer while the imaging process does nothing. -/
def Still (s : State) (e : Sigma Answer) : Prop :=
  e.2.moves.isEmpty = true ∧ e.1.Fits s e.2.result ∧ e.1.Succeeds e.2.result

instance (s : State) (e : Sigma Answer) : Decidable (Still s e) :=
  inferInstanceAs
    (Decidable (e.2.moves.isEmpty = true ∧ e.1.Fits s e.2.result ∧ e.1.Succeeds e.2.result))

lemma Still.fitting {s : State} {e : Sigma Answer} (h : Still s e) : Fitting solo s e := by
  have hnone : e.2.moves = [] := List.isEmpty_iff.mp h.1
  unfold Fitting
  rw [hnone]
  exact ⟨trivial, fun _ => rfl, h.2.1, h.2.2⟩

/-- What a call answers when everything succeeds. -/
def reply (s : State) : (c : Call) → c.Value
  | .run (.isFile name) => decide (name ∈ s.queue.map Prod.fst)
  | .run (.attemptIs attempt) => decide (s.snapshot.version = 2 ∧ s.snapshot.attempt = attempt)
  | .run .pollCancel => false
  | .run _ => true
  | .date => some 100
  | .glob => globbed s
  | .readEvent name => (s.queue.find? fun f => f.1 == name).map Prod.snd
  | .cat => some s.snapshot
  | .digest => "digest".toList
  | .statusRecord => none
  | .nextPct _ => none

/-- An environment for a script that begins with the files `s`; the imaging process does `first`
before the first call. -/
def machine (plan : List Item) (solo : Bool) (s : State) (first : List Move)
    (seen : List (Sigma Answer)) (c : Call) : Answer c :=
  let ms := if seen.isEmpty then first else []
  ⟨ms, reply (moves (seen.foldr (fun e s => (contract plan solo).next s e) s) ms) c⟩

/-- One partition. -/
def onePartition : Plan where
  snapshot := ⟨2, 1, [⟨"d1:p1".toList, "pending".toList, none, none, 0⟩]⟩
  nodup := by decide
  fresh := by decide

def runningEvent : Event :=
  queueEvent "item".toList "d1:p1".toList "running".toList "0".toList "copying".toList [] []

def completedEvent : Event :=
  queueEvent "item".toList "d1:p1".toList "completed".toList "100".toList "done".toList [] []

lemma queued_runningEvent : Queued runningEvent :=
  .item (⟨by decide, by decide⟩ : OneLine "d1:p1".toList) (by decide : '\x00' ∉ "copying".toList)
    (by decide : partitionProgressItem "d1:p1".toList "running".toList "0".toList "copying".toList =
      some runningEvent)

lemma queued_completedEvent : Queued completedEvent :=
  .item (⟨by decide, by decide⟩ : OneLine "d1:p1".toList) (by decide : '\x00' ∉ "done".toList)
    (by decide : partitionProgressItem "d1:p1".toList "completed".toList "100".toList
      "done".toList = some completedEvent)

/-- The variables of a script that has ended without `exit`. -/
def returned {V : Type} : Option (Except ℕ Unit × V) → Option V
  | some (.ok (), v) => some v
  | _ => none

lemma eq_of_returned {V : Type} {o : Option (Except ℕ Unit × V)} {v : V} (h : returned o = some v) :
    o = some (.ok (), v) := by
  match o, h with
  | some (.ok (), w), h =>
    obtain rfl := Option.some.inj h
    rfl

/-- The run of the flush when everything succeeds. -/
def flushRun (plan : List Item) (s : State) :
    List (Sigma Answer) × Option (Except ℕ Unit × FlushVars) :=
  (partitionProgressFlush initialFlushVars).exec (machine plan true s []) []

/-- The session in which every command of the flush succeeds. -/
def flushed (R : Reported) (later : List Move) (hlater : Legal R.killed later) (vars : FlushVars)
    (hret : returned (flushRun R.plan.snapshot.items (moves R.killed later)).2 = some vars)
    (hstill : (contract R.plan.snapshot.items true).Along Still (moves R.killed later)
      (flushRun R.plan.snapshot.items (moves R.killed later)).1) : Session where
  toReported := R
  later := later
  legal := hlater
  flush := (flushRun R.plan.snapshot.items (moves R.killed later)).1
  vars := vars
  flushed := by
    rw [← eq_of_returned hret]
    exact Prog.runs_exec _ _ _
  flushAnswers := Contract.Along.mono _ (fun _ _ => Still.fitting) hstill

/-- The reporter is killed before its first command. -/
def killedAtOnce (number : ℕ) : Reported where
  plan := onePartition
  number := number
  runId := []
  attempt := 1
  turns := 0
  reporter := []
  ended := none
  runs := .cut _
  answers := trivial

/-- The numbers of the two events have ten and eleven digits. -/
def overflowing : Session :=
  flushed (killedAtOnce 9999999998) [.number, .publish runningEvent, .number,
    .publish completedEvent]
    ⟨trivial, ⟨rfl, queued_runningEvent⟩, trivial, ⟨rfl, queued_completedEvent⟩, trivial⟩
      ⟨true, some 7⟩ (by decide +kernel)
    (by decide +kernel)

lemma Shows.statuses {plan : List Item} {evs : List Event} {s : Snapshot} (h : Shows plan evs s) :
    s.items.map Item.status = plan.map fun i => (expected evs i).status := by
  unfold Shows at h
  generalize s.items = items at h ⊢
  induction h with
  | nil => rfl
  | cons hi _ ih => rw [List.map_cons, List.map_cons, hi.status, ih]

/-- The event with eleven digits is moved first, and the item ends as running. -/
theorem not_folded_overflowing : ¬ ∀ S : Session, Folded S := by
  intro hall
  have hstatus : overflowing.final.snapshot.items.map Item.status =
      onePartition.snapshot.items.map fun i => (expected overflowing.events i).status :=
        (hall overflowing).shows.statuses
  exact absurd hstatus (by decide +kernel)

/-- What the imaging process does before the first turn of the reporter. -/
def firstEvent : List Move := [.number, .publish runningEvent]

/-- The first turn of the reporter until the first event is in the snapshot, and its file is not yet
deleted. -/
def firstTurn : List (Sigma Answer) :=
  ((statusReporter [] 1 1 initialVars).exec
    (machine onePartition.snapshot.items false (onePartition.written 0) firstEvent) []).1.take 12

lemma firstTurn_cons : firstTurn = ⟨.run .sleep, ⟨firstEvent, true⟩⟩ :: firstTurn.tail := rfl

/-- The reporter is killed there. -/
def killedBetween : Reported where
  plan := onePartition
  number := 0
  runId := []
  attempt := 1
  turns := 1
  reporter := firstTurn
  ended := none
  runs := (Prog.runs_exec _ _ _).take 12
  answers := by
    rw [firstTurn_cons]
    refine ⟨⟨⟨trivial, ⟨rfl, queued_runningEvent⟩, trivial⟩, fun h => Bool.noConfusion h,
      trivial, trivial⟩, ?_⟩
    refine Contract.Along.mono (P := Still) _ (fun _ _ => Still.fitting) ?_
    decide +kernel

/-- Then the second event follows, and the flush. -/
def interrupted : Session :=
  flushed killedBetween [.number, .publish completedEvent] ⟨trivial, ⟨rfl, queued_completedEvent⟩,
    trivial⟩ ⟨true, some 7⟩
    (by decide +kernel) (by decide +kernel)

/-- The first event is moved twice. -/
theorem progress_folded_interrupted :
    Folded interrupted ∧ interrupted.final.applied = [runningEvent.change, runningEvent.change,
      completedEvent.change] :=
  ⟨progress_folded interrupted (by decide +kernel) (by decide +kernel), by decide +kernel⟩

end Pxeos.Report
