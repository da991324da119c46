import Pxeos.Report.Delivered

/-!
# The progress fold

What the reporter has not folded when it is killed the flush folds: the final snapshot shows every
event of the imaging process.  The names of the events have ten digits, and sort like the events as
long as there are no more than that.
-/

namespace Pxeos.Report

open Pxeos.Lib Script

/-! ### The contract -/

/-- The answer fits the files and what the imaging process does, and the commands on events
succeed. -/
def Fitting (solo : Bool) (s : State) (e : Sigma Answer) : Prop :=
  Legal s e.2.moves ∧ (solo = true → e.2.moves = []) ∧ e.1.Fits (moves s e.2.moves) e.2.result ∧
    e.1.Succeeds e.2.result

/-- The contract of the two scripts: the invariant holds after every command. -/
def contract (plan : List Item) (solo : Bool) : Contract Answer State where
  rely s e := Fitting solo s e ∧ (moves s e.2.moves).counter < 10 ^ 10
  guard s e := ∃ r a files, Inv plan solo (e.1.effect (moves s e.2.moves) e.2.result) r a files
  next s e := e.1.effect (moves s e.2.moves) e.2.result

variable {plan : List Item} {solo : Bool} {s : State} {r a : ℕ} {files : List (ℕ × Event)}
  {V : Type} {v : V}
  {E : ℕ → V → State → Prop}

lemma holds_value {c : Call} {Q : c.Value → V → State → Prop} (h : Inv plan solo s r a files)
    (hQ : ∀ s' x, Inv plan solo s' r a files → s'.snapshot = s.snapshot → s'.tmp = s.tmp →
      s'.counter < 10 ^ 10 → c.Fits s' x → c.Succeeds x →
      (∃ r a files, Inv plan solo (c.effect s' x) r a files) ∧ Q x v (c.effect s' x)) :
    Holds (contract plan solo) (value c) v s Q E := by
  refine .seq (holds_ask fun reply hrely => ?_)
  obtain ⟨⟨hlegal, hsolo, hfits, hok⟩, hcount⟩ := hrely
  obtain ⟨hsnap, htmp⟩ := moves_frame s reply.moves
  exact hQ _ reply.result (h.moves hlegal hsolo) hsnap htmp hcount hfits hok

/-- A call that changes no file. -/
lemma holds_look {c : Call} {Q : c.Value → V → State → Prop} (hc : ∀ s x, c.effect s x = s)
    (h : Inv plan solo s r a files)
    (hQ : ∀ s' x, Inv plan solo s' r a files → s'.snapshot = s.snapshot → s'.counter < 10 ^ 10 →
      c.Fits s' x → c.Succeeds x → Q x v s') :
    Holds (contract plan solo) (value c) v s Q E := by
  refine holds_value h fun s' x hinv hsnap _ hcount hfits hok => ?_
  rw [hc s' x]
  exact ⟨⟨r, a, files, hinv⟩, hQ s' x hinv hsnap hcount hfits hok⟩

lemma holds_run {c : Command} {Q : Unit → V → State → Prop} (hc : ∀ s x, c.effect s x = s)
    (h : Inv plan solo s r a files) (hQ : ∀ s', Inv plan solo s' r a files → Q () v s') :
    Holds (contract plan solo) (run c) v s Q E :=
  .seq (holds_look (c := .run c) hc h fun s' _ hinv _ _ _ _ => hQ s' hinv)

/-! ### The temporary file -/

lemma holds_removeTmp {Q : Unit → V → State → Prop} (h : Inv plan solo s r a files)
    (hQ : ∀ s', Inv plan solo s' r a files → Q () v s') :
    Holds (contract plan solo) (run .removeTmp) v s Q E := by
  refine .seq (holds_value (c := .run .removeTmp) h fun s' ok hinv _ _ _ _ _ => ?_)
  cases ok with
  | true => exact ⟨⟨r, a, files, hinv.noTmp⟩, hQ _ hinv.noTmp⟩
  | false => exact ⟨⟨r, a, files, hinv⟩, hQ _ hinv⟩

/-- `jq` and `mv` for a sample or a heartbeat, also if they fail. -/
lemma holds_rewrite_telemetry {f : Filter} (hf : ∀ c, f ≠ .item c) {Q : Bool → V → State → Prop}
    (h : Inv plan solo s r a files) (hQ : ∀ b s', Inv plan solo s' r a files → Q b v s') :
    Holds (contract plan solo) (rewrite f) v s Q E := by
  refine .seq (holds_value (c := .run (.jq f)) h fun s' ok hinv _ _ _ _ _ => ?_)
  cases ok with
  | false => exact ⟨⟨r, a, files, hinv.noTmp⟩, hQ _ _ hinv.noTmp⟩
  | true =>
    have hjq := hinv.jq f
    refine ⟨⟨r, a, files, hjq⟩, ?_⟩
    refine holds_value (c := .run .moveTmp) hjq fun s'' ok hinv' _ htmp _ _ hok => ?_
    obtain rfl : ok = true := hok
    have heffect : Call.effect s'' (.run .moveTmp) true =
        { s'' with snapshot := f.apply s'.snapshot, tmp := none } := by
      unfold Call.effect Command.effect
      rw [htmp]
      cases f with
      | item c => exact absurd rfl (hf c)
      | sample key percent => rfl
      | heartbeat key => rfl
    have hmove := hinv'.moveTelemetry htmp hf
    rw [heffect]
    exact ⟨⟨r, a, files, hmove⟩, hQ _ _ hmove⟩

/-- **`jq` and `mv` for the first event that is still there.** -/
lemma holds_rewrite_item {x : ℕ × Event} (hitem : x.2.isItem = true) {Q : Bool → V → State → Prop}
    (h : Inv plan solo s r a (x :: files))
    (hQ : ∀ s', Inv plan solo s' r (r + 1) (x :: files) → Q true v s') :
    Holds (contract plan solo) (rewrite (.item x.2.change)) v s Q E := by
  refine .seq (holds_value (c := .run (.jq (.item x.2.change))) h fun s' ok hinv _ _ _ _ hok => ?_)
  obtain rfl : ok = true := hok
  have hjq := hinv.jq (.item x.2.change)
  refine ⟨⟨r, a, _, hjq⟩, ?_⟩
  refine holds_value (c := .run .moveTmp) hjq fun s'' ok hinv' _ htmp _ _ hok => ?_
  obtain rfl : ok = true := hok
  have heffect : Call.effect s'' (.run .moveTmp) true =
      { s'' with
        snapshot := (Filter.item x.2.change).apply s'.snapshot, tmp := none, applied :=
          s''.applied ++ [x.2.change] } := by
    unfold Call.effect Command.effect
    rw [htmp]
    rfl
  have hmove := hinv'.moveItem hitem htmp
  rw [heffect]
  exact ⟨⟨r, r + 1, _, hmove⟩, hQ _ hmove⟩

/-- **`rm` of an event that is in the snapshot.** -/
lemma holds_removeEvent {x : ℕ × Event} {Q : Unit → V → State → Prop}
    (h : Inv plan solo s r (r + 1) (x :: files))
    (hQ : ∀ s', Inv plan solo s' (r + 1) (r + 1) files → Q () v s') :
    Holds (contract plan solo) (run (.removeEvent (eventName x.1))) v s Q E := by
  refine .seq (holds_value (c := .run (.removeEvent (eventName x.1))) h
    fun s' ok hinv _ _ _ _ hok => ?_)
  obtain rfl : ok = true := hok
  exact ⟨⟨r + 1, r + 1, files, hinv.remove⟩, hQ _ hinv.remove⟩

/-- A request with the snapshot as it is. -/
lemma holds_post {x : Snapshot} {maxTime : ℕ} {Q : Unit → V → State → Prop}
    (h : Inv plan solo s r a files) (hx : x = s.snapshot)
    (hQ : ∀ s', Inv plan solo s' r a files → Q () v s') :
    Holds (contract plan solo) (run (.postSnapshot x maxTime)) v s Q E := by
  refine .seq (holds_value (c := .run (.postSnapshot x maxTime)) h
    fun s' ok hinv hsnap _ _ _ _ => ?_)
  have hpost := hinv.post (hx.trans hsnap.symm)
  cases ok <;> exact ⟨⟨r, a, files, hpost⟩, hQ _ hpost⟩

lemma holds_sendSnapshot {v : Vars} {E : ℕ → Vars → State → Prop} {Q : Unit → Vars → State → Prop}
    (h : Inv plan solo s r a files) (hQ : ∀ s', Inv plan solo s' r a files → Q () v s') :
    Holds (contract plan solo) sendSnapshot v s Q E := by
  refine .seq (holds_look (c := .run .snapshotReadable) (fun _ _ => rfl) h
    fun s' ok hinv _ _ _ _ => ?_)
  cases ok with
  | false => exact hQ s' hinv
  | true =>
    refine .seq (holds_look (c := .cat) (fun _ _ => rfl) hinv fun s'' x hinv' _ _ hfits _ => ?_)
    cases x with
    | none => exact hQ s'' hinv'
    | some x => exact holds_post hinv' (hfits x rfl) hQ

/-! ### The names -/

lemma eventName_lt {m n : ℕ} (hmn : m < n) (hn : n < 10 ^ 10) : eventName m < eventName n := by
  unfold eventName
  rw [List.append_assoc, List.append_assoc]
  exact List.append_left_lt (padded_append_lt (by decide) hmn hn _ _)

/-- No event has the name that the pattern leaves when there is none. -/
lemma eventName_ne_pattern (n : ℕ) : eventName n ≠ "event-*.json".toList := by
  intro h
  have hcut : "event-".toList ++ (padded 10 n ++ ".json".toList) = "event-".toList ++
      ("*".toList ++ ".json".toList) := by
    rw [← List.append_assoc]
    exact h
  have hpad : padded 10 n = "*".toList := List.append_cancel_right (List.append_cancel_left hcut)
  have hstar : '*' ∈ padded 10 n := by
    rw [hpad]
    exact List.mem_singleton_self _
  exact absurd (isDigit_of_mem_padded hstar) (by decide)

/-- **The shell lists the events in the order in which they were queued.** -/
lemma Inv.globbed_eq (h : Inv plan solo s r a files) (hcount : s.counter < 10 ^ 10)
    (hne : s.queue ≠ []) :
    globbed s = (s.queued.drop r).map fun x => eventName x.1 := by
  have hnames : s.queue.map Prod.fst = (s.queued.drop r).map fun x => eventName x.1 := by
    rw [h.queue, List.map_map]
    rfl
  unfold globbed
  rw [if_neg hne, hnames]
  refine List.Pairwise.insertionSort_eq ?_
  have hincr : (s.queued.drop r).Pairwise fun x y => x.1 < y.1 := by
    have := h.increasing
    rw [List.pairwise_map] at this
    exact this.drop
  rw [List.pairwise_map]
  refine hincr.imp_of_mem fun _ hy hlt => ?_
  have hle := (h.numbers _ (List.mem_of_mem_drop hy)).1
  exact le_of_lt (eventName_lt hlt (by omega))

/-- The next file is there. -/
lemma Inv.isFile {x : ℕ × Event} (h : Inv plan solo s r a (x :: files)) :
    eventName x.1 ∈ s.queue.map Prod.fst := by
  obtain ⟨t, hdrop, -, -, -⟩ := drop_of_ahead h.ahead
  rw [h.queue, hdrop]
  exact List.mem_cons_self

/-- What is read under the name of the next event is that event. -/
lemma Inv.read {x : ℕ × Event} (h : Inv plan solo s r a (x :: files)) {e : Event}
    (he : (eventName x.1, e) ∈ s.queue) :
    e = x.2 := by
  obtain ⟨t, hdrop, hrest, -, -⟩ := drop_of_ahead h.ahead
  rw [h.queue, hdrop] at he
  rcases List.mem_cons.mp he with heq | hmem
  · exact (Prod.mk.inj heq).2
  · obtain ⟨y, hy, heq⟩ := List.mem_map.mp hmem
    exact absurd (Prod.mk.inj heq).1 (h.name_ne y (hrest ▸ hy))

lemma Inv.not_isFile_pattern (h : Inv plan solo s r a files) :
    "event-*.json".toList ∉ s.queue.map Prod.fst := by
  intro hmem
  obtain ⟨f, hf, heq⟩ := List.mem_map.mp hmem
  rw [h.queue] at hf
  obtain ⟨y, -, rfl⟩ := List.mem_map.mp hf
  exact eventName_ne_pattern y.1 heq

lemma Inv.whole (h : Inv plan solo s r a files) : Inv plan solo s r a (s.queued.drop r) :=
  { h with
    ahead := List.prefix_rfl
    all := fun _ => rfl }

lemma Inv.none (h : Inv plan solo s r a files) (hq : s.queue = []) : Inv plan solo s r a [] := by
  have hdrop : s.queued.drop r = [] := by
    have := h.queue
    rw [hq] at this
    exact List.map_eq_nil_iff.mp this.symm
  exact { h with
    ahead := List.nil_prefix
    all := fun _ => hdrop.symm }

/-! ### The loops -/

/-- **The loop over the events**, given its turns. -/
lemma holds_events {turn : Str → Shell V Unit}
    (hturn : ∀ x files v s r a, Inv plan solo s r a (x :: files) →
      Holds (contract plan solo) (turn (eventName x.1)) v s
        (fun _ _ s' => Inv plan solo s' (r + 1) (r + 1) files) E)
    (hother : ∀ v s r a, Inv plan solo s r a [] →
      Holds (contract plan solo) (turn "event-*.json".toList) v s
        (fun _ _ s' => Inv plan solo s' r a []) E)
    (h : Inv plan solo s r a files) :
    Holds (contract plan solo) listEvents v s (fun names v' s' =>
      Holds (contract plan solo) (forEach names turn) v' s' (fun _ _ s'' => ∃ r a,
        Inv plan solo s'' r a []) E) E := by
  refine holds_look (c := .glob) (fun _ _ => rfl) h fun s' names hinv _ hcount hfits _ => ?_
  obtain rfl : names = globbed s' := hfits
  by_cases hq : s'.queue = []
  · have hglob : globbed s' = ["event-*.json".toList] := if_pos hq
    rw [hglob]
    exact (hother v s' r a (hinv.none hq)).bind fun _ _ s'' hs => holds_pure ⟨r, a, hs⟩
  · rw [hinv.globbed_eq hcount hq]
    refine Holds.mono (holds_forEach
      (fun names _ s => ∃ r a files, names = files.map (fun x => eventName x.1) ∧
        Inv plan solo s r a files) ?_ _
      ⟨r, a, _, rfl, hinv.whole⟩) (fun _ _ s'' hs => ?_) fun _ _ _ he => he
    · rintro name names v s ⟨r, a, files, heq, hs⟩
      obtain ⟨x, rest, rfl, rfl, rfl⟩ := List.map_eq_cons_iff.mp heq.symm
      exact (hturn x rest v s r a hs).mono (fun _ _ s'' h => ⟨r + 1, r + 1, rest, rfl, h⟩)
        fun _ _ _ he => he
    · obtain ⟨r, a, files, hnil, hs⟩ := hs
      obtain rfl := List.map_eq_nil_iff.mp hnil.symm
      exact ⟨r, a, hs⟩

/-- **A turn of the reporter.** -/
lemma holds_applyEvent (runId : Str) {v : Vars} {E : ℕ → Vars → State → Prop} {x : ℕ × Event}
    (h : Inv plan solo s r a (x :: files)) :
    Holds (contract plan solo) (applyEvent runId (eventName x.1)) v s
      (fun _ _ s' => Inv plan solo s' (r + 1) (r + 1) files) E := by
  refine .seq (holds_look (c := .run (.isFile _)) (fun _ _ => rfl) h
    fun s' ok hinv _ _ hfits _ => ?_)
  obtain rfl : ok = true := hfits.trans (decide_eq_true hinv.isFile)
  refine .seq (holds_look (c := .readEvent _) (fun _ _ => rfl) hinv
    fun s'' e hinv' _ _ hfits hok => ?_)
  obtain ⟨e, rfl⟩ := Option.isSome_iff_exists.mp hok
  obtain rfl : e = x.2 := hinv'.read (hfits e rfl)
  obtain ⟨t, hdrop, -, -, -⟩ := drop_of_ahead hinv'.ahead
  have hqueued : Queued x.2 := hinv'.legal x (List.mem_of_mem_drop (hdrop ▸ List.mem_cons_self))
  have hkind := hqueued.readText_event
  dsimp only [reduceIte]
  rw [hkind]
  cases hitem : x.2.isItem with
  | true =>
    -- It passes the checks, is moved into the snapshot and removed.
    have hevent : x.2.event = "item".toList := eq_of_beq hitem
    obtain ⟨hkey, hstatus, hchange⟩ := hqueued.item_change hitem
    rw [hevent, if_neg (by decide), if_neg (by decide), if_pos rfl,
      if_pos (by rw [hchange]; exact ⟨hkey, hstatus⟩)]
    refine .seq (holds_rewrite_item hitem hinv' fun s₁ h₁ => ?_)
    refine .seq (holds_sendSnapshot h₁ fun s₂ h₂ => ?_)
    exact holds_removeEvent h₂ fun s₃ h₃ => h₃
  | false =>
    have hremove : ∀ v, Holds (contract plan solo) (run (.removeEvent (eventName x.1))) v s''
        (fun _ _ s' => Inv plan solo s' (r + 1) (r + 1) files) E :=
      fun v => holds_removeEvent (hinv'.skip hitem) fun s₃ h₃ => h₃
    split
    · split
      · exact .seq (holds_set (hremove _))
      · exact hremove v
    · split
      · exact .seq (holds_set (hremove _))
      · split
        · next hevent =>
          unfold Event.isItem at hitem
          rw [hevent] at hitem
          exact absurd hitem (by decide)
        · exact hremove v

lemma holds_applyEvent_pattern (runId : Str) {v : Vars} {E : ℕ → Vars → State → Prop}
    (h : Inv plan solo s r a []) :
    Holds (contract plan solo) (applyEvent runId "event-*.json".toList) v s
      (fun _ _ s' => Inv plan solo s' r a []) E := by
  refine .seq (holds_look (c := .run (.isFile _)) (fun _ _ => rfl) h
    fun s' ok hinv _ _ hfits _ => ?_)
  obtain rfl : ok = false := hfits.trans (decide_eq_false hinv.not_isFile_pattern)
  exact holds_pure hinv

lemma holds_flushEvent_pattern (deadline : Option ℕ) {v : FlushVars}
    {E : ℕ → FlushVars → State → Prop} (h : Inv plan solo s r a []) :
    Holds (contract plan solo) (flushEvent deadline "event-*.json".toList) v s
      (fun _ _ s' => Inv plan solo s' r a []) E := by
  refine .seq (holds_look (c := .run (.isFile _)) (fun _ _ => rfl) h
    fun s' ok hinv _ _ hfits _ => ?_)
  obtain rfl : ok = false := hfits.trans (decide_eq_false hinv.not_isFile_pattern)
  exact holds_pure hinv

lemma holds_milestoneBudget (deadline : Option ℕ) {v : FlushVars} {E : ℕ → FlushVars → State → Prop}
    (h : Inv plan solo s r a files) :
    Holds (contract plan solo) (milestoneBudget deadline) v s
      (fun _ _ s' => Inv plan solo s' r a files) E := by
  refine .seq (holds_vars ?_)
  cases deadline with
  | none => exact holds_pure h
  | some deadline =>
    dsimp only
    split
    · refine .seq (holds_look (c := .date) (fun _ _ => rfl) h fun s' now hinv _ _ _ _ => ?_)
      cases now with
      | none => exact holds_set hinv
      | some now =>
        dsimp only
        split
        · exact holds_set hinv
        · exact holds_set hinv
    · exact holds_pure h

lemma holds_partitionProgressSendSnapshot (maxTime : ℕ) {v : FlushVars}
    {E : ℕ → FlushVars → State → Prop} {Q : Unit → FlushVars → State → Prop}
    (h : Inv plan solo s r a files) (hQ : ∀ s', Inv plan solo s' r a files → Q () v s') :
    Holds (contract plan solo) (partitionProgressSendSnapshot maxTime) v s Q E := by
  refine .seq (holds_look (c := .run .snapshotReadable) (fun _ _ => rfl) h
    fun s' ok hinv _ _ _ _ => ?_)
  cases ok with
  | false => exact hQ s' hinv
  | true =>
    refine .seq (holds_look (c := .run .taskContext) (fun _ _ => rfl) hinv
      fun s'' ok hinv' _ _ _ _ => ?_)
    cases ok with
    | false => exact hQ s'' hinv'
    | true =>
      refine .seq (holds_look (c := .cat) (fun _ _ => rfl) hinv' fun s₃ x hinv₃ _ _ hfits _ => ?_)
      cases x with
      | none => exact hQ s₃ hinv₃
      | some x => exact holds_post hinv₃ (hfits x rfl) hQ

/-- **A turn of the flush.** -/
lemma holds_flushEvent (deadline : Option ℕ) {v : FlushVars} {E : ℕ → FlushVars → State → Prop}
    {x : ℕ × Event} (h : Inv plan solo s r a (x :: files)) :
    Holds (contract plan solo) (flushEvent deadline (eventName x.1)) v s
      (fun _ _ s' => Inv plan solo s' (r + 1) (r + 1) files) E := by
  refine .seq (holds_look (c := .run (.isFile _)) (fun _ _ => rfl) h
    fun s' ok hinv _ _ hfits _ => ?_)
  obtain rfl : ok = true := hfits.trans (decide_eq_true hinv.isFile)
  refine .seq (holds_look (c := .readEvent _) (fun _ _ => rfl) hinv
    fun s'' e hinv' _ _ hfits hok => ?_)
  obtain ⟨e, rfl⟩ := Option.isSome_iff_exists.mp hok
  obtain rfl : e = x.2 := hinv'.read (hfits e rfl)
  obtain ⟨t, hdrop, -, -, -⟩ := drop_of_ahead hinv'.ahead
  have hqueued : Queued x.2 := hinv'.legal x (List.mem_of_mem_drop (hdrop ▸ List.mem_cons_self))
  have hkind := hqueued.readText_event
  dsimp only [reduceIte]
  rw [hkind]
  split
  · next hevent =>
    have hitem : x.2.isItem = true := beq_iff_eq.mpr hevent
    refine (holds_milestoneBudget deadline hinv').bind fun _ v₁ s₁ h₁ => ?_
    refine .seq (holds_rewrite_item hitem h₁ fun s₂ h₂ => ?_)
    refine .seq (holds_vars ?_)
    have hremove : ∀ s₃ v, Inv plan solo s₃ r (r + 1) (x :: files) →
        Holds (contract plan solo) (run (.removeEvent (eventName x.1))) v s₃
          (fun _ _ s' => Inv plan solo s' (r + 1) (r + 1) files) E :=
      fun s₃ v h₃ => holds_removeEvent h₃ fun s₄ h₄ => h₄
    split
    · exact .seq (holds_partitionProgressSendSnapshot _ h₂ fun s₃ h₃ => hremove s₃ _ h₃)
    · exact hremove s₂ _ h₂
  · next hevent =>
    have hitem : x.2.isItem = false := beq_eq_false_iff_ne.mpr hevent
    exact holds_removeEvent (hinv'.skip hitem) fun s₃ h₃ => h₃

/-- What follows the loop of the flush. -/
def lastSnapshot : Option ℕ → Shell FlushVars Unit
  | none => partitionProgressSendSnapshot 8
  | some deadline => do
    match ← date with
    | some now =>
      if now < deadline then partitionProgressSendSnapshot (min (deadline - now) 8)
      else partitionProgressSendSnapshot 1
    | none => partitionProgressSendSnapshot 1

/-- **The flush leaves no event.** -/
lemma holds_flush {v : FlushVars} {E : ℕ → FlushVars → State → Prop}
    (h : Inv plan solo s r a files) :
    Holds (contract plan solo) partitionProgressFlush v s (fun _ _ s' => ∃ r a,
      Inv plan solo s' r a []) E := by
  refine .seq (holds_look (c := .run .snapshotReadable) (fun _ _ => rfl) h
    fun s₁ ok h₁ _ _ hfits _ => ?_)
  obtain rfl : ok = true := hfits
  refine .seq (holds_look (c := .run .commandJq) (fun _ _ => rfl) h₁ fun s₂ ok h₂ _ _ _ hok => ?_)
  obtain rfl : ok = true := hok
  refine .seq (holds_look (c := .date) (fun _ _ => rfl) h₂ fun s₃ started h₃ _ _ _ _ => ?_)
  have hrest : ∀ v s, (∃ r a, Inv plan solo s r a []) →
      Holds (contract plan solo) (lastSnapshot (started.map (· + 15))) v s (fun _ _ s' => ∃ r a,
        Inv plan solo s' r a []) E := by
    rintro v s ⟨r, a, hs⟩
    cases started with
    | none => exact holds_partitionProgressSendSnapshot _ hs fun s' h' => ⟨r, a, h'⟩
    | some n =>
      refine .seq (holds_look (c := .date) (fun _ _ => rfl) hs fun s' now h' _ _ _ _ => ?_)
      cases now with
      | none => exact holds_partitionProgressSendSnapshot _ h' fun s'' h'' => ⟨r, a, h''⟩
      | some now =>
        dsimp only
        split
        · exact holds_partitionProgressSendSnapshot _ h' fun s'' h'' => ⟨r, a, h''⟩
        · exact holds_partitionProgressSendSnapshot _ h' fun s'' h'' => ⟨r, a, h''⟩
  refine .seq (holds_look (c := .run .eventsDir) (fun _ _ => rfl) h₃ fun s₄ ok h₄ _ _ hfits _ => ?_)
  cases ok with
  | false =>
    have hq : s₄.queue = [] := by
      by_contra hne
      exact Bool.false_ne_true (hfits hne)
    exact hrest _ _ ⟨r, a, h₄.none hq⟩
  | true =>
    refine (holds_events (fun x files v s r a h => holds_flushEvent (Option.map (· + 15) started) h)
      (fun v s r a h => holds_flushEvent_pattern _ h) h₄).bind fun names v s hloop => ?_
    exact hloop.bind fun _ v s hs => hrest v s hs

/-! ### The reporter -/

section Reporter

variable {v : Vars} {E : ℕ → Vars → State → Prop}

/-- The invariant at some point of the queue. -/
def Somewhere (plan : List Item) (s : State) : Prop := ∃ r a, Inv plan false s r a []

lemma Inv.somewhere (h : Inv plan false s r a files) : Somewhere plan s :=
  ⟨r, a, { h with
    ahead := List.nil_prefix
    all := fun hsolo => Bool.noConfusion hsolo }⟩

lemma holds_applyEvents (runId : Str) (h : Somewhere plan s) :
    Holds (contract plan false) (applyEvents runId) v s (fun _ _ => Somewhere plan) E := by
  obtain ⟨r, a, h⟩ := h
  refine .seq (holds_look (c := .run .snapshotReadable) (fun _ _ => rfl) h
    fun s₁ ok h₁ _ _ _ _ => ?_)
  cases ok with
  | false => exact holds_pure ⟨r, a, h₁⟩
  | true =>
    refine .seq (holds_look (c := .run .eventsDir) (fun _ _ => rfl) h₁ fun s₂ ok h₂ _ _ _ _ => ?_)
    cases ok with
    | false => exact holds_pure ⟨r, a, h₂⟩
    | true =>
      refine .seq (holds_look (c := .run .commandJq) (fun _ _ => rfl) h₂ fun s₃ ok h₃ _ _ _ _ => ?_)
      cases ok with
      | false => exact holds_pure ⟨r, a, h₃⟩
      | true =>
        exact (holds_events (fun x files v s r a h => holds_applyEvent runId h)
          (fun v s r a h => holds_applyEvent_pattern runId h) h₃).bind fun names v s hloop => hloop

lemma holds_sampleCurrent (runId : Str) (h : Somewhere plan s) :
    Holds (contract plan false) (sampleCurrent runId) v s (fun _ _ => Somewhere plan) E := by
  obtain ⟨r, a, h⟩ := h
  refine .seq (holds_vars ?_)
  split
  · refine .seq (holds_look (c := .run .snapshotReadable) (fun _ _ => rfl) h
      fun s₁ ok h₁ _ _ _ _ => ?_)
    cases ok with
    | false => exact holds_pure ⟨r, a, h₁⟩
    | true =>
      refine .seq (holds_look (c := .statusRecord) (fun _ _ => rfl) h₁
        fun s₂ record h₂ _ _ _ _ => ?_)
      cases record with
      | none => exact holds_pure ⟨r, a, h₂⟩
      | some record =>
        dsimp only
        cases sampledPercent runId v record with
        | none => exact holds_pure ⟨r, a, h₂⟩
        | some pct =>
          refine .seq (holds_rewrite_telemetry (fun c hc => by cases hc) h₂ fun ok s₃ h₃ => ?_)
          cases ok with
          | true => exact holds_set ⟨r, a, h₃⟩
          | false => exact holds_removeTmp h₃ fun s₄ h₄ => ⟨r, a, h₄⟩
  · exact holds_pure ⟨r, a, h⟩

lemma holds_heartbeatActiveItem (h : Somewhere plan s) :
    Holds (contract plan false) heartbeatActiveItem v s (fun _ _ => Somewhere plan) E := by
  obtain ⟨r, a, h⟩ := h
  refine .seq (holds_vars ?_)
  split
  · refine .seq (holds_look (c := .run .snapshotReadable) (fun _ _ => rfl) h
      fun s₁ ok h₁ _ _ _ _ => ?_)
    cases ok with
    | false => exact holds_pure ⟨r, a, h₁⟩
    | true =>
      refine .seq (holds_rewrite_telemetry (fun c hc => by cases hc) h₁ fun ok s₂ h₂ => ?_)
      cases ok with
      | true => exact holds_pure ⟨r, a, h₂⟩
      | false => exact .seq (holds_removeTmp h₂ fun s₃ h₃ => holds_pure ⟨r, a, h₃⟩)
  · exact holds_pure ⟨r, a, h⟩

lemma holds_sendHeartbeat (now : ℕ) (h : Somewhere plan s) :
    Holds (contract plan false) (sendHeartbeat now) v s (fun _ _ => Somewhere plan) E := by
  obtain ⟨r, a, h⟩ := h
  refine .seq (holds_vars ?_)
  split
  · exact .seq (holds_run (fun _ _ => rfl) h fun s₁ h₁ => holds_set ⟨r, a, h₁⟩)
  · exact holds_pure ⟨r, a, h⟩

lemma holds_reportSnapshot (now : ℕ) (h : Somewhere plan s) :
    Holds (contract plan false) (reportSnapshot now) v s (fun _ _ => Somewhere plan) E := by
  obtain ⟨r, a, h⟩ := h
  refine .seq (holds_look (c := .cat) (fun _ _ => rfl) h fun s₁ _ h₁ _ _ _ _ => ?_)
  refine .seq (holds_look (c := .digest) (fun _ _ => rfl) h₁ fun s₂ hash h₂ _ _ _ _ => ?_)
  refine .seq (holds_vars ?_)
  split
  · exact .seq (holds_sendSnapshot h₂ fun s₃ h₃ => holds_set ⟨r, a, h₃⟩)
  · split
    · refine (holds_heartbeatActiveItem ⟨r, a, h₂⟩).bind fun ok v' s₃ hs => ?_
      obtain ⟨r, a, h₃⟩ := hs
      cases ok with
      | true =>
        refine .seq (holds_sendSnapshot h₃ fun s₄ h₄ => ?_)
        exact .seq (holds_look (c := .digest) (fun _ _ => rfl) h₄ fun s₅ _ h₅ _ _ _ _ =>
          holds_set ⟨r, a, h₅⟩)
      | false => exact holds_set ⟨r, a, h₃⟩
    · exact holds_pure ⟨r, a, h₂⟩

lemma holds_reportPercent (h : Somewhere plan s) :
    Holds (contract plan false) reportPercent v s (fun _ _ => Somewhere plan) E := by
  obtain ⟨r, a, h⟩ := h
  refine .seq (holds_vars ?_)
  refine .seq (holds_look (c := .nextPct _) (fun _ _ => rfl) h fun s₁ pct h₁ _ _ _ _ => ?_)
  exact .seq (holds_set (holds_run (fun _ _ => rfl) h₁ fun s₂ h₂ => ⟨r, a, h₂⟩))

/-- **An iteration of the reporter.** -/
lemma holds_reportOnce (runId : Str) (attempt : ℕ) (h : Somewhere plan s) :
    Holds (contract plan false) (reportOnce runId attempt) v s (fun _ _ => Somewhere plan)
      fun _ _ => Somewhere plan := by
  obtain ⟨r, a, h⟩ := h
  refine .seq (holds_look (c := .run .pollCancel) (fun _ _ => rfl) h fun s₁ ok h₁ _ _ _ _ => ?_)
  cases ok with
  | true => exact .seq (holds_exit ⟨r, a, h₁⟩)
  | false =>
    refine .seq (holds_look (c := .date) (fun _ _ => rfl) h₁ fun s₂ now h₂ _ _ _ _ => ?_)
    refine .seq (holds_look (c := .run .dataPhaseActive) (fun _ _ => rfl) h₂
      fun s₃ ok h₃ _ _ _ _ => ?_)
    cases ok with
    | false => exact holds_sendHeartbeat _ ⟨r, a, h₃⟩
    | true =>
      refine (holds_applyEvents runId ⟨r, a, h₃⟩).bind fun _ v₄ s₄ h₄ => ?_
      refine (holds_sampleCurrent runId h₄).bind fun _ v₅ s₅ h₅ => ?_
      obtain ⟨r, a, h₅⟩ := h₅
      refine .seq (holds_look (c := .run .snapshotReadable) (fun _ _ => rfl) h₅
        fun s₆ ok h₆ _ _ _ _ => ?_)
      cases ok with
      | false => exact (holds_reportPercent ⟨r, a, h₆⟩).bind fun _ v₇ s₇ h₇ =>
        holds_sendHeartbeat _ h₇
      | true =>
        refine .seq (holds_look (c := .run (.attemptIs attempt)) (fun _ _ => rfl) h₆
          fun s₇ ok h₇ _ _ _ _ => ?_)
        cases ok with
        | false => exact holds_sendHeartbeat _ ⟨r, a, h₇⟩
        | true => exact (holds_reportSnapshot _ ⟨r, a, h₇⟩).bind fun _ v₈ s₈ h₈ =>
          holds_sendHeartbeat _ h₈

/-- **The reporter keeps the invariant.** -/
lemma holds_statusReporter (runId : Str) (attempt turns : ℕ) (h : Somewhere plan s) :
    Holds (contract plan false) (statusReporter runId attempt turns) v s (fun _ _ => Somewhere plan)
      fun _ _ => Somewhere plan := by
  have hturns : ∀ n v s, Somewhere plan s →
      Holds (contract plan false) (reportTurns runId attempt n) v s (fun _ _ => Somewhere plan)
        fun _ _ => Somewhere plan := by
    intro n
    induction n with
    | zero => exact fun v s h => trivial
    | succ n ih =>
      intro v s h
      refine (holds_reportOnce runId attempt h).bind fun _ v₁ s₁ h₁ => ?_
      obtain ⟨r, a, h₁⟩ := h₁
      exact .seq (holds_run (fun _ _ => rfl) h₁ fun s₂ h₂ => ih _ _ ⟨r, a, h₂⟩)
  obtain ⟨r, a, h⟩ := h
  refine .seq (holds_run (fun _ _ => rfl) h fun s₁ h₁ => ?_)
  exact .seq (holds_set (hturns turns _ _ ⟨r, a, h₁⟩))

end Reporter

end Pxeos.Report
