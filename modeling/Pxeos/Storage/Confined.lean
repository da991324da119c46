import Pxeos.Storage.World
import Pxeos.Storage.Protocol

/-!
# The helper changes what its task owns

`open_bound` adds to the table one descriptor, whose way is bound to the proof, or nothing; so the
directories of a mutation are reached along the path of the command.  Everything else leaves the
root alone.
-/

namespace Pxeos.Storage

open Pxeos.Lib

/-- The descriptor of the root stands for the root, on the device that was seen first, and is in no
stream. -/
structure Rooted (fs : Fs) (s : World) : Prop where
  root : ∃ w, s.table fs.root = some w ∧ w.nodes = []
  device : s.device = some fs.rootStat.device
  stream : s.stream ≠ some fs.root

/-! ### Calls -/

section Calls

variable {L : Libs} {c : Context} {s : World}

lemma confined_close {fd : Fd} {Q : Bool → World → Prop} (h : ∀ r, Q r (s.set fd none)) :
    (confinement L c).Safe (close fd) s Q := fun r _ => ⟨fun _ hx => by simp [targets] at hx, h r⟩

lemma confined_stat {fd : Fd} {Q : Option Stat → World → Prop} (hfail : Q none s)
    (hok : ∀ st, (∀ w v, s.table fd = some w → w.nodes = [] → s.device = some v → st.device = v) →
      Q (some st) (s.seen fd (some st))) : (confinement L c).Safe (rxStatFd fd) s Q := by
  refine fun r hr => ⟨fun _ hx => by simp [targets] at hx, ?_⟩
  have hr : ∀ t w v, r = some t → s.table fd = some w → w.nodes = [] → s.device = some v →
      t.device = v := hr
  cases r with
  | none => exact hfail
  | some st => exact hok st fun w v => hr st w v rfl

/-- Opening changes nothing that has been there before. -/
lemma confined_openat {fd : Fd} {name : Bytes} {flags : Flags} {Q : Option Fd → World → Prop}
    (hguard : flags.exclusive = true → c.isCapture = true ∧ Reached L c s fd name)
    (hfail : Q none s)
    (hok : ∀ child, s.table child = none →
      Q (some child) (s.set child ((s.table fd).map (·.push name flags.nofollow)))) :
    (confinement L c).Safe (ask (.openat fd name flags)) s Q := by
  refine fun r hr => ⟨fun x hx => ?_, ?_⟩
  · have hx : x ∈ if flags.exclusive then [(fd, name)] else [] := hx
    split at hx
    next he =>
      rw [List.mem_singleton.mp hx]
      exact hguard he
    next => simp at hx
  · have hr : ∀ n, r = some n → s.table n = none := hr
    cases r with
    | none => exact hfail
    | some child => exact hok child (hr child rfl)

lemma confined_dup {fd : Fd} {Q : Option Fd → World → Prop} (hfail : Q none s)
    (hok : ∀ copy, s.table copy = none →
      Q (some copy) (s.set copy ((s.table fd).map (·.see none)))) :
    (confinement L c).Safe (ask (.dup fd)) s Q := by
  refine fun r hr => ⟨fun x hx => by simp [targets] at hx, ?_⟩
  have hr : ∀ n, r = some n → s.table n = none := hr
  cases r with
  | none => exact hfail
  | some copy => exact hok copy (hr copy rfl)

end Calls

/-! ### Opening a path -/

section Open

variable {L : Libs} {c : Context} {fs : Fs} {proof : Json} {flags : Flags} {s : World}

/-- What `open_bound` leaves: one more descriptor, with its way, or nothing. -/
def Opens (L : Libs) (proof : Json) (device : ℕ × ℕ) (names : List Bytes) (s : World)
    (r : Option Fd) (s' : World) : Prop :=
  (r = none → s' = s) ∧ ∀ fd, r = some fd → s.table fd = none ∧
    ∃ w : Walk, s' = s.set fd (some w) ∧ w.names = names ∧ w.Bound L proof device

lemma opens_none {device : ℕ × ℕ} {names : List Bytes} : Opens L proof device names s none s :=
  ⟨fun _ => rfl, fun _ h => by cases h⟩

/-- Closing a descriptor that was opened on the way. -/
lemma close_opened {fd : Fd} {w : Option Walk} (h : s.table fd = none) {device : ℕ × ℕ}
    {names : List Bytes} :
    (confinement L c).Safe (do let _ ← close fd; pure none) (s.set fd w)
      (Opens L proof device names s) := by
  refine Contract.Safe.bind (confined_close fun _ => ?_)
  rw [set_set, set_none h]
  exact opens_none

lemma seen_set {fd : Fd} {w : Walk} {st : Stat} {device : ℕ × ℕ} (hd : s.device = some device) :
    (s.set fd (some w)).seen fd (some st) = s.set fd (some (w.see st)) := by
  unfold World.seen
  simp only [set_table_self, Option.map_some, set_set, set_device, hd, Option.getD_some]
  show ({ s.set fd (some (w.see st)) with device := some device } : World) = _
  rw [← hd]
  rfl

lemma openParts_confined (hflags : flags.exclusive = false)
    (hd : s.device = some fs.rootStat.device) :
    ∀ (ps : List Bytes) (fd : Fd) (w : Walk), s.table fd = none →
      w.Bound L proof fs.rootStat.device →
    (confinement L c).Safe (openParts L fs proof flags fd (joined w.names) ps) (s.set fd (some w))
      (Opens L proof fs.rootStat.device (w.names ++ ps) s)
  | [], fd, w, hfd, hw => by
    refine ⟨fun h => (Option.some_ne_none _ h).elim, fun fd' h => ?_⟩
    obtain rfl := Option.some.inj h
    exact ⟨hfd, w, rfl, (List.append_nil _).symm, hw⟩
  | part :: next, fd, w, hfd, hw => by
    refine Contract.Safe.bind (confined_openat (fun he => ?_) ?_ fun child hchild => ?_)
    · have he : (if next = [] then flags else readDirectory).exclusive = true := he
      split at he
      · rw [hflags] at he
        cases he
      · cases he
    · exact close_opened hfd
    · -- the new descriptor is not the one it was opened from
      have hne : fd ≠ child := by
        rintro rfl
        rw [set_table_self] at hchild
        cases hchild
      rw [set_table_ne hne.symm] at hchild
      rw [set_table_self, Option.map_some]
      refine Contract.Safe.bind (confined_close fun _ => ?_)
      rw [set_comm hne, set_set, set_comm hne.symm, set_none hfd]
      refine Contract.Safe.bind (confined_stat ?_ fun st _ => ?_)
      · exact close_opened hchild
      · rw [seen_set hd]
        simp only
        split
        · exact close_opened hchild
        next hno =>
          rw [not_or] at hno
          have hdev : st.device = fs.rootStat.device := not_not.mp hno.1
          have hm : proofMatches L proof (extend (joined w.names) part) st = true := by
            simpa using hno.2
          have hw' := hw.push hdev (matches_of_proofMatches hm)
          have hrec :=
            openParts_confined hflags hd next child ((w.push part true).see st) hchild hw'
          rw [see_names, push_names, joined_concat, List.append_assoc,
            List.singleton_append] at hrec
          exact hrec

/-- **`open_bound`.** -/
lemma openBound_confined (path : Bytes) (hflags : flags.exclusive = false) (hs : Rooted fs s) :
    (confinement L c).Safe (openBound L fs path proof flags) s
      (Opens L proof fs.rootStat.device (parts path) s) := by
  obtain ⟨⟨w, hroot, hnodes⟩, hd, -⟩ := hs
  unfold openBound
  split
  · exact opens_none
  refine Contract.Safe.bind (confined_dup opens_none fun fd hfd => ?_)
  have hsee : w.see none = ⟨none, []⟩ := by simp [Walk.see, hnodes]
  rw [hroot, Option.map_some, hsee]
  refine Contract.Safe.bind (confined_stat ?_ fun st hst => ?_)
  · exact close_opened hfd
  · have hdev : st.device = fs.rootStat.device := hst ⟨none, []⟩ _ set_table_self rfl hd
    rw [seen_set hd]
    simp only
    split
    · exact close_opened hfd
    next hm =>
      have hm : proofMatches L proof [] st = true := by simpa using hm
      exact openParts_confined hflags hd (parts path) fd ⟨some st, []⟩ hfd
        (bound_root hdev (matches_of_proofMatches hm))

end Open

/-! ### What leaves the root alone -/

section Rooted

variable {L : Libs} {c : Context} {fs : Fs} {s : World} {α β : Type}

lemma see_nodes_nil {w : Walk} (h : w.nodes = []) (st : Option Stat) : (w.see st).nodes = [] := by
  simp [Walk.see, h]

lemma Rooted.ne {fd : Fd} (hs : Rooted fs s) (h : s.table fd = none) : fd ≠ fs.root := by
  rintro rfl
  obtain ⟨w, hw, -⟩ := hs.root
  rw [h] at hw
  cases hw

lemma Rooted.set {fd : Fd} (hs : Rooted fs s) (h : fd ≠ fs.root) (w : Option Walk) :
    Rooted fs (s.set fd w) := by
  obtain ⟨w', hw, hn⟩ := hs.root
  exact ⟨⟨w', by rw [set_table_ne h.symm]; exact hw, hn⟩, hs.device, hs.stream⟩

lemma Rooted.opened {fd : Option Fd} (hs : Rooted fs s) (h : s.Fresh fd) (w : Option Walk) :
    Rooted fs (s.opened fd w) := by
  cases fd with
  | none => exact hs
  | some fd => exact hs.set (hs.ne (h fd rfl)) w

lemma Rooted.seen {fd : Fd} (hs : Rooted fs s) (st : Option Stat) : Rooted fs (s.seen fd st) := by
  cases st with
  | none => exact hs
  | some st =>
    obtain ⟨⟨w, hw, hn⟩, hd, hstream⟩ := hs
    refine ⟨?_, ?_, hstream⟩
    · by_cases h : fs.root = fd
      · subst h
        refine ⟨w.see st, ?_, see_nodes_nil hn st⟩
        show (s.set fs.root ((s.table fs.root).map (·.see st))).table fs.root = _
        rw [set_table_self, hw]
        rfl
      · refine ⟨w, ?_, hn⟩
        show (s.set fd ((s.table fd).map (·.see st))).table fs.root = _
        rw [set_table_ne h]
        exact hw
    · show some (s.device.getD st.device) = _
      rw [hd]
      rfl

/-- The stream is opened on another descriptor. -/
lemma Rooted.streamed {fd : Fd} (hs : Rooted fs s) (h : fd ≠ fs.root) (ok : Bool) :
    Rooted fs (s.streamed fd ok) := by
  unfold World.streamed
  split
  · exact ⟨hs.root, hs.device, fun hf => h (Option.some.inj hf)⟩
  · exact hs

/-- Closing the stream closes another descriptor. -/
lemma Rooted.unstreamed (hs : Rooted fs s) : Rooted fs s.unstreamed := by
  unfold World.unstreamed
  split
  next fd hfd =>
    have hne : fd ≠ fs.root := fun h => hs.stream (h ▸ hfd)
    have hs' := hs.set hne none
    exact ⟨hs'.root, hs'.device, by simp⟩
  next => exact hs

/-- **The root is left alone** by everything that does not give it away. -/
lemma Rooted.step {e : Step} (hs : Rooted fs s) (hk : s.Kernel e) (he : e.1 ≠ .close fs.root)
    (he' : e.1 ≠ .fdopendir fs.root) : Rooted fs (s.step e) := by
  obtain ⟨call, r⟩ := e
  cases call with
  | openRoot => exact hs.opened hk _
  | dup d => exact hs.opened hk _
  | openat d name flags => exact hs.opened hk _
  | statx d => exact hs.seen r
  | close d => exact hs.set (fun h => he (by rw [h])) none
  | fdopendir d => exact hs.streamed (fun h => he' (by rw [h])) r
  | closedir => exact hs.unstreamed
  | note n =>
    cases n with
    | accepted event a =>
      show Rooted fs (if phase event = some .intent then
        { s with proof := a.get (ascii "proof") } else s)
      split
      · exact ⟨hs.root, hs.device, hs.stream⟩
      · exact hs
    | took command => exact hs
    | rejected => exact hs
    | advanced n => exact hs
  | _ => exact hs

/-- Programs that change no name and give no descriptor away. -/
lemma confined_loose {p : Helper α} (hp : p.Only LooseStep) (hs : Rooted fs s)
    {Q : α → World → Prop} (hQ : ∀ a s', Rooted fs s' → Q a s') : (confinement L c).Safe p s Q :=
  Contract.safe_of_invariant hp (fun s' e hs' he hk => ⟨fun x hx => by rw [he.1] at hx; simp at hx,
    hs'.step hk (he.2 fs.root).1 (he.2 fs.root).2⟩) hs hQ

lemma confined_calm {p : Helper α} (hp : p.Only (CalmStep L)) (hs : Rooted fs s)
    {Q : α → World → Prop} (hQ : ∀ a s', Rooted fs s' → Q a s') : (confinement L c).Safe p s Q :=
  confined_loose (hp.mono fun _ he => he.2) hs hQ

lemma confined_still {p : Helper α} (hp : p.Only (StillStep L)) (hs : Rooted fs s)
    {Q : α → World → Prop} (hQ : ∀ a s', Rooted fs s' → Q a s') : (confinement L c).Safe p s Q :=
  confined_calm (calm_of_still hp) hs hQ

/-- Closing another descriptor than the root. -/
lemma confined_closing {fd : Fd} (hs : Rooted fs s) (h : fd ≠ fs.root) {Q : Bool → World → Prop}
    (hQ : ∀ a s', Rooted fs s' → Q a s') : (confinement L c).Safe (close fd) s Q :=
  confined_close fun r => hQ r _ (hs.set h none)

lemma loose_emit (event : Json) : (rxEmit L event).Only LooseStep := by
  unfold rxEmit
  split
  · exact Prog.only_ask fun _ => ⟨rfl, by simp⟩
  · trivial

lemma loose_readJson : (rxReadJson L).Only LooseStep :=
  (Prog.only_ask fun _ => ⟨rfl, by simp⟩).bind fun _ => trivial

/-- The proof of the intent is kept, and nothing else is touched. -/
lemma ack_confined {c' : Context} {event : Json} (hs : Rooted fs s) :
    (confinement L c).Safe (ack L c' event) s fun r s' => Rooted fs s' ∧
      ∀ p, r = some p → phase event = some .intent → s'.proof = some p := by
  have hreject : ∀ s', Rooted fs s' → (confinement L c).Safe (reject : Helper (Option Json)) s'
      fun r s' => Rooted fs s' ∧
      ∀ p, r = some p → phase event = some .intent → s'.proof = some p := by
    intro s' hs'
    exact fun _ _ => ⟨fun x hx => by simp [targets] at hx, hs', fun p hp => by cases hp⟩
  refine Contract.Safe.bind (confined_still still_alive hs fun alive s hs => ?_)
  show (confinement L c).Safe (if _ then _ else _) s _
  split
  · exact hreject s hs
  refine Contract.Safe.bind (confined_loose (loose_emit event) hs fun sent s hs => ?_)
  split
  · exact hreject s hs
  refine Contract.Safe.bind (confined_loose loose_readJson hs fun a s hs => ?_)
  cases a with
  | none => exact hreject s hs
  | some a =>
    simp only
    cases hp : ackProof L c' event a with
    | none => exact hreject s hs
    | some p =>
      refine Contract.Safe.bind (confined_still still_alive hs fun alive s hs => ?_)
      show (confinement L c).Safe (if _ then _ else _) s _
      split
      · exact hreject s hs
      split
      · have hget : a.get (ascii "proof") = some p := by
          unfold ackProof at hp
          simp only [Option.bind_eq_bind, Option.bind_eq_some_iff] at hp
          obtain ⟨_, -, _, -, _, -, _, -, q, hq, hif⟩ := hp
          split at hif
          · rw [hq]
            exact hif
          · cases hif
        refine fun r hk => ⟨fun x hx => by simp [targets] at hx, ?_, ?_⟩
        · exact hs.step (e := ⟨.note (.accepted event a), r⟩) hk (by simp) (by simp)
        · intro q hq hi
          obtain rfl := Option.some.inj hq
          show (if phase event = some .intent then { s with proof := a.get (ascii "proof") }
            else s).proof = _
          rw [if_pos hi]
          exact hget
      · exact hreject s hs

end Rooted

/-! ### Operations -/

/-- What an operation leaves: the root is open, and what has to be closed is something else. -/
structure Left (fs : Fs) (o : Outcome) (s : World) : Prop where
  rooted : Rooted fs s
  fd : ∀ fd, o.fd = some fd → fd ≠ fs.root
  parent : ∀ fd, o.parent = some fd → fd ≠ fs.root

/-- The task may change its path, and its destination. -/
structure Task.Permitted (c : Context) (t : Task) : Prop where
  capture : c.isCapture = true
  path : Owned c t.path
  toPath : ∀ p, t.toPath = some p → Owned c p

section Operations

variable {L : Libs} {c : Context} {fs : Fs} {t : Task} {s : World}

lemma left_none (hs : Rooted fs s) (d : Option Json) : Left fs ⟨d, none, none⟩ s :=
  ⟨hs, (fun _ h => by cases h), (fun _ h => by cases h)⟩

lemma left_fd {fd : Fd} (hs : Rooted fs s) (h : fd ≠ fs.root) (d : Option Json) :
    Left fs ⟨d, some fd, none⟩ s :=
  ⟨hs, (fun _ hf => Option.some.inj hf ▸ h), (fun _ hf => by cases hf)⟩

lemma left_parent {parent : Fd} (hs : Rooted fs s) (h : parent ≠ fs.root) (d : Option Json) :
    Left fs ⟨d, none, some parent⟩ s :=
  ⟨hs, (fun _ hf => by cases hf), (fun _ hf => Option.some.inj hf ▸ h)⟩

lemma left_both {fd parent : Fd} (hs : Rooted fs s) (h : fd ≠ fs.root) (h' : parent ≠ fs.root)
    (d : Option Json) :
    Left fs ⟨d, some fd, some parent⟩ s :=
  ⟨hs, (fun _ hf => Option.some.inj hf ▸ h), (fun _ hf => Option.some.inj hf ▸ h')⟩

/-- A call that changes names in directories that were reached, and nothing in the table. -/
lemma confined_mutation (k : Call)
    (htargets : ∀ r, ∀ x ∈ targets ⟨k, r⟩, c.isCapture = true ∧ Reached L c s x.1 x.2)
    (hstep : ∀ r, s.step ⟨k, r⟩ = s) {Q : k.Answer → World → Prop} (hQ : ∀ r, Q r s) :
    (confinement L c).Safe (ask k) s Q := by
  refine fun r _ => ⟨htargets r, ?_⟩
  show Q r (s.step ⟨k, r⟩)
  rw [hstep r]
  exact hQ r

/-- `open_bound`, where only the root matters afterwards. -/
lemma openBound_rooted {path : Bytes} {proof : Json} {flags : Flags}
    (hflags : flags.exclusive = false) (hs : Rooted fs s) {Q : Option Fd → World → Prop}
    (hfail : Q none s) (hok : ∀ fd w, s.table fd = none → Q (some fd) (s.set fd (some w))) :
    (confinement L c).Safe (openBound L fs path proof flags) s Q := by
  refine (openBound_confined path hflags hs).mono fun r s' h => ?_
  cases r with
  | none =>
    rw [h.1 rfl]
    exact hfail
  | some fd =>
    obtain ⟨hfd, w, rfl, -, -⟩ := h.2 fd rfl
    exact hok fd w hfd

/-- **`bound_parent`**: the directory of a path that the task may change has been reached. -/
lemma boundParent_reached {path : Bytes} (hpath : Owned c path) (hs : Rooted fs s)
    (hp : s.proof = some t.proof) {Q : Option Fd → World → Prop} (hfail : Q none s)
    (hok : ∀ fd w, s.table fd = none → Reached L c (s.set fd (some w)) fd (baseName path) →
      Q (some fd) (s.set fd (some w))) :
    (confinement L c).Safe (boundParent L fs path t.proof) s Q := by
  refine (openBound_confined (parentPath path) rfl hs).mono fun r s' h => ?_
  cases r with
  | none =>
    rw [h.1 rfl]
    exact hfail
  | some fd =>
    obtain ⟨hfd, w, rfl, hnames, hw⟩ := h.2 fd rfl
    refine hok fd w hfd ⟨path, w, t.proof, fs.rootStat.device, hpath, ?_, set_table_self,
      hp, hs.device, hw⟩
    rw [components_parent hpath.relative, hnames]

/-- What has been reached stays so when another descriptor is opened or closed. -/
lemma Reached.set {d fd : Fd} {name : Bytes} (h : Reached L c s d name) (hne : d ≠ fd)
    (w : Option Walk) :
    Reached L c (s.set fd w) d name := by
  obtain ⟨path, w', proof, device, h1, h2, h3, h4, h5, h6⟩ := h
  exact ⟨path, w', proof, device, h1, h2, by rw [set_table_ne hne]; exact h3, h4, h5, h6⟩

lemma Reached.ne {d fd : Fd} {name : Bytes} (h : Reached L c s d name) (hfd : s.table fd = none) :
    d ≠ fd := by
  rintro rfl
  obtain ⟨path, w', proof, device, -, -, h3, -⟩ := h
  rw [hfd] at h3
  cases h3

lemma listNames_confined (fuel : ℕ) (fd : Fd) (hs : Rooted fs s) :
    (confinement L c).Safe (listNames fuel fd) s fun _ s' => Rooted fs s' := by
  refine Contract.Safe.bind (confined_dup hs fun copy hcopy => ?_)
  -- the copy is another descriptor than the root, and it is the one that the stream takes
  have hne := hs.ne hcopy
  refine Contract.Safe.bind fun ok _ => ⟨fun x hx => by simp [targets] at hx, ?_⟩
  have hs' := (hs.set hne ((s.table fd).map (·.see none))).streamed hne ok
  show (confinement L c).Safe (if _ then _ else _) (World.streamed _ copy ok) _
  split
  · exact hs'
  · exact confined_still (L := L) (still_listLoop fuel 0 []) hs' fun _ _ hs => hs

lemma inspectNode_confined (fuel : ℕ) (op : Operation) (fd : Fd) (before : Stat)
    (hs : Rooted fs s) :
    (confinement L c).Safe (inspectNode L fuel fs op fd before) s fun _ s' => Rooted fs s' := by
  unfold inspectNode
  split
  · split
    · exact hs
    · refine Contract.Safe.seq (listNames_confined fuel fd hs) fun names s hs => ?_
      cases names <;> exact hs
  · split
    · exact hs
    · exact confined_calm (calm_streamFile fuel fd false 0) hs fun _ _ hs => hs
  · exact hs

lemma inspect_confined (fuel : ℕ) (op : Operation) (hs : Rooted fs s) :
    (confinement L c).Safe (inspect L fuel fs t op) s (Left fs) := by
  refine Contract.Safe.bind (openBound_rooted rfl hs ?_ fun fd w hfd => ?_)
  · exact left_none hs _
  · have hne := hs.ne hfd
    refine Contract.Safe.bind (confined_still (still_stat fd) (hs.set hne _) fun before s hs => ?_)
    cases before with
    | none => exact left_fd hs hne _
    | some before =>
      refine Contract.Safe.seq (inspectNode_confined fuel op fd before hs) fun details s hs => ?_
      cases details with
      | none => exact left_fd hs hne _
      | some details =>
        refine Contract.Safe.bind (confined_still (still_stat fd) hs fun after s hs => ?_)
        cases after with
        | none => exact left_fd hs hne _
        | some after => exact left_fd hs hne _

lemma mkdirExisting_confined {parent : Fd} (hs : Rooted fs s) (hp : parent ≠ fs.root) :
    (confinement L c).Safe (mkdirExisting L fs t parent) s (Left fs) := by
  refine Contract.Safe.bind (openBound_rooted rfl hs ?_ fun fd w hfd => ?_)
  · exact left_parent hs hp _
  · have hne := hs.ne hfd
    refine Contract.Safe.bind (confined_still (still_stat fd) (hs.set hne _) fun st s hs => ?_)
    cases st with
    | none => exact left_both hs hne hp _
    | some st => exact left_both hs hne hp _

lemma mkdirNew_confined {parent : Fd} (hc : c.isCapture = true)
    (hr : Reached L c s parent (baseName t.path)) (hs : Rooted fs s) (hp : parent ≠ fs.root) :
    (confinement L c).Safe (mkdirNew t parent) s (Left fs) := by
  refine Contract.Safe.bind
    (confined_mutation (.mkdirat parent (baseName t.path)) (fun _ x hx => ?_) (fun _ => rfl)
    fun r => ?_)
  · rw [List.mem_singleton.mp hx]
    exact ⟨hc, hr⟩
  · show (confinement L c).Safe (if _ then _ else _) s _
    split
    · exact left_parent hs hp _
    refine Contract.Safe.bind (confined_openat (fun h => by cases h) ?_ fun fd hfd => ?_)
    · exact left_parent hs hp _
    · have hne := hs.ne hfd
      refine Contract.Safe.bind (confined_still (still_stat fd) (hs.set hne _) fun st s hs => ?_)
      cases st with
      | none => exact left_both hs hne hp _
      | some st => exact left_both hs hne hp _

lemma writeNew_confined (fuel : ℕ) {parent : Fd} (hc : c.isCapture = true)
    (hr : Reached L c s parent (baseName t.path)) (hs : Rooted fs s) (hp : parent ≠ fs.root) :
    (confinement L c).Safe (writeNew L fuel fs t parent) s (Left fs) := by
  unfold writeNew
  split
  · exact left_parent hs hp _
  split
  · exact left_parent hs hp _
  next expected _ =>
    refine Contract.Safe.bind (confined_openat (fun _ => ⟨hc, hr⟩) ?_ fun fd hfd => ?_)
    · exact left_parent hs hp _
    · have hne := hs.ne hfd
      refine Contract.Safe.bind (confined_still (still_stat fd) (hs.set hne _) fun st s hs => ?_)
      cases st with
      | none => exact left_both hs hne hp _
      | some st =>
        refine Contract.Safe.seq (ack_confined hs) fun r s h => ?_
        cases r with
        | none => exact left_both h.1 hne hp _
        | some p =>
          refine Contract.Safe.bind (confined_calm (calm_writeData fuel fd expected) h.1
            fun details s hs => ?_)
          exact left_both hs hne hp _

lemma create_confined (fuel : ℕ) (op : Operation) (ht : t.Permitted c) (hs : Rooted fs s)
    (hproof : s.proof = some t.proof) :
    (confinement L c).Safe (create L fuel fs t op) s (Left fs) := by
  refine Contract.Safe.bind (boundParent_reached ht.path hs hproof ?_ fun parent w hfd hr => ?_)
  · exact left_none hs _
  · have hne := hs.ne hfd
    have hs' := hs.set hne (some w)
    simp only
    cases proofKey L t.path with
    | none => exact left_parent hs' hne _
    | some key =>
      simp only
      split
      · split
        · exact left_parent hs' hne _
        · exact mkdirExisting_confined hs' hne
      · split
        · exact mkdirNew_confined ht.capture hr hs' hne
        · exact writeNew_confined fuel ht.capture hr hs' hne

lemma remove_confined (before : Stat) {parent : Fd} (hc : c.isCapture = true)
    (hr : Reached L c s parent (baseName t.path)) (hs : Rooted fs s) (hp : parent ≠ fs.root) :
    (confinement L c).Safe (remove t before parent) s (Left fs) := by
  refine Contract.Safe.bind
    (confined_mutation (.unlinkat parent (baseName t.path) before.isDir) (fun _ x hx => ?_)
    (fun _ => rfl) fun r => ?_)
  · rw [List.mem_singleton.mp hx]
    exact ⟨hc, hr⟩
  · show (confinement L c).Safe (if _ then _ else _) s _
    split
    · exact left_parent hs hp _
    · exact left_parent hs hp _

/-- What a rename keeps: the root, and both directories. -/
lemma rename_targets {parent target : Fd} {dest : Bytes} (hc : c.isCapture = true)
    (hr : Reached L c s parent (baseName t.path)) (hr' : Reached L c s target dest) {x : Fd × Bytes}
    (hx : x ∈ [(parent, baseName t.path), (target, dest)]) :
    c.isCapture = true ∧ Reached L c s x.1 x.2 := by
  simp only [List.mem_cons, List.not_mem_nil, or_false] at hx
  rcases hx with rfl | rfl
  · exact ⟨hc, hr⟩
  · exact ⟨hc, hr'⟩

lemma renameControlled_confined (before : Stat) {parent target : Fd} {dest : Bytes}
    (hc : c.isCapture = true) (hr : Reached L c s parent (baseName t.path))
    (hr' : Reached L c s target dest) (hs : Rooted fs s) :
    (confinement L c).Safe (renameControlled L fs t before parent target dest) s fun _ s' =>
      Rooted fs s' := by
  unfold renameControlled
  split
  · exact hs
  refine Contract.Safe.bind (openBound_rooted rfl hs ?_ fun verify w hfd => ?_)
  · exact hs
  · -- the descriptor of the second look is another one, and it is closed again
    have hne := hs.ne hfd
    have hback : ∀ w', (s.set verify w').set verify none = s :=
      fun w' => by rw [set_set, set_none hfd]
    refine Contract.Safe.bind (confined_stat ?_ fun st _ => ?_)
    · refine Contract.Safe.bind (confined_close fun _ => ?_)
      rw [hback]
      exact hs
    · rw [seen_set hs.device]
      refine Contract.Safe.bind (confined_close fun _ => ?_)
      rw [hback]
      show (confinement L c).Safe (if _ then _ else _) s _
      split
      · exact hs
      refine Contract.Safe.bind
        (confined_mutation (.statxAt target dest)
          (fun _ x hx => by simp [targets] at hx) (fun _ => rfl)
        fun there => ?_)
      cases there with
      | missing =>
        exact confined_mutation (.renameat parent (baseName t.path) target dest)
          (fun _ x hx => rename_targets hc hr hr' hx) (fun _ => rfl) fun _ => hs
      | found => exact hs
      | failed => exact hs

lemma renameInto_confined (before : Stat) {parent target : Fd} {dest : Bytes}
    (hc : c.isCapture = true) (hr : Reached L c s parent (baseName t.path))
    (hr' : Reached L c s target dest) (hs : Rooted fs s) :
    (confinement L c).Safe (renameInto L fs t before parent target dest) s fun _ s' =>
      Rooted fs s' := by
  refine Contract.Safe.bind
    (confined_mutation (.statxAt target dest) (fun _ x hx => by simp [targets] at hx) (fun _ => rfl)
    fun there => ?_)
  cases there with
  | missing =>
    refine Contract.Safe.bind (confined_mutation (.renameat2 parent (baseName t.path) target dest)
      (fun _ x hx => rename_targets hc hr hr' hx) (fun _ => rfl) fun r => ?_)
    cases r with
    | renamed => exact hs
    | unsupported => exact renameControlled_confined before hc hr hr' hs
    | failed => exact hs
  | found => exact hs
  | failed => exact hs

lemma rename_confined (before : Stat) {parent : Fd} (ht : t.Permitted c)
    (hr : Reached L c s parent (baseName t.path)) (hs : Rooted fs s)
    (hproof : s.proof = some t.proof) (hp : parent ≠ fs.root) :
    (confinement L c).Safe (rename L fs t before parent) s (Left fs) := by
  unfold rename
  split
  · exact left_parent hs hp _
  next toPath hto =>
    refine Contract.Safe.bind (boundParent_reached (ht.toPath toPath hto) hs hproof ?_
      fun target w hfd hr' => ?_)
    · exact left_parent hs hp _
    · have hne := hs.ne hfd
      refine Contract.Safe.seq
        (renameInto_confined before ht.capture (hr.set (hr.ne hfd) (some w)) hr' (hs.set hne _))
        fun done s hs => ?_
      split
      · exact Contract.Safe.bind (confined_closing hs hne fun _ s hs => left_parent hs hp _)
      refine Contract.Safe.bind (confined_openat (fun h => by cases h) ?_ fun fd hfd' => ?_)
      · exact Contract.Safe.bind (confined_closing hs hne fun _ s hs => left_parent hs hp _)
      · have hne' := hs.ne hfd'
        refine Contract.Safe.bind (confined_closing (hs.set hne' _) hne fun _ s hs => ?_)
        refine Contract.Safe.bind (confined_still (still_stat fd) hs fun st s hs => ?_)
        cases st with
        | none => exact left_both hs hne' hp _
        | some st => exact left_both hs hne' hp _

lemma relocate_confined (op : Operation) (ht : t.Permitted c) (hs : Rooted fs s)
    (hproof : s.proof = some t.proof) :
    (confinement L c).Safe (relocate L fs t op) s (Left fs) := by
  refine Contract.Safe.bind (openBound_rooted rfl hs ?_ fun fd w hfd => ?_)
  · exact left_none hs _
  · have hne := hs.ne hfd
    refine Contract.Safe.bind (confined_stat ?_ fun before _ => ?_)
    · exact left_fd (hs.set hne _) hne _
    · rw [seen_set hs.device]
      refine Contract.Safe.bind (confined_close fun _ => ?_)
      rw [set_set, set_none hfd]
      refine Contract.Safe.bind (boundParent_reached ht.path hs hproof ?_ fun parent w hfd hr => ?_)
      · exact left_none hs _
      · have hne := hs.ne hfd
        simp only
        split
        · exact remove_confined before ht.capture hr (hs.set hne _) hne
        · exact rename_confined before ht hr (hs.set hne _) hproof hne

/-- **The work of a command.** -/
lemma perform_confined (fuel : ℕ) (ht : (Operation.of t.op).mutates = true → t.Permitted c)
    (hs : Rooted fs s) (hproof : s.proof = some t.proof) :
    (confinement L c).Safe (perform L fuel fs t) s (Left fs) := by
  unfold perform
  cases hop : Operation.of t.op with
  | stat => exact inspect_confined fuel .stat hs
  | list => exact inspect_confined fuel .list hs
  | read => exact inspect_confined fuel .read hs
  | sealed => exact inspect_confined fuel .sealed hs
  | write => exact create_confined fuel .write (ht (by rw [hop]; rfl)) hs hproof
  | mkdirOwned => exact create_confined fuel .mkdirOwned (ht (by rw [hop]; rfl)) hs hproof
  | renameOwned => exact relocate_confined .renameOwned (ht (by rw [hop]; rfl)) hs hproof
  | removeOwned => exact relocate_confined .removeOwned (ht (by rw [hop]; rfl)) hs hproof
  | other => exact left_none hs _

end Operations

/-! ### Commands -/

section Commands

variable {L : Libs} {c : Context} {fs : Fs} {s : World}

lemma closeIf_confined {fd : Option Fd} (hs : Rooted fs s) (h : ∀ n, fd = some n → n ≠ fs.root)
    {Q : Bool → World → Prop} (hQ : ∀ a s', Rooted fs s' → Q a s') :
    (confinement L c).Safe (closeIf fd) s Q := by
  cases fd with
  | none => exact hQ true s hs
  | some fd => exact confined_closing hs (h fd rfl) hQ

/-- `out` does not close the root. -/
lemma release_confined {o : Outcome} (h : Left fs o s) :
    (confinement L c).Safe (release o) s fun _ s' => Rooted fs s' :=
  Contract.Safe.bind
    (closeIf_confined h.rooted h.fd fun _ _ hs => Contract.Safe.bind
      (closeIf_confined hs h.parent fun _ _ hs =>
    hs))

/-- The state of a command that succeeds is still that of the same root. -/
def Kept (fs : Fs) (r : Option Fs) (s : World) : Prop :=
  Rooted fs s ∧ ∀ fs', r = some fs' → fs'.context = fs.context ∧ fs'.root = fs.root ∧
    fs'.rootStat = fs.rootStat

lemma kept_none (hs : Rooted fs s) : Kept fs none s := ⟨hs, fun _ h => by cases h⟩

lemma report_confined {t : Task} {details : Json} (hs : Rooted fs s) :
    (confinement L c).Safe (report L fs t details) s (Kept fs) := by
  unfold report
  simp only
  split
  · exact kept_none hs
  · refine Contract.Safe.seq (ack_confined hs) fun r s h => ?_
    cases r with
    | none => exact kept_none h.1
    | some p =>
      refine fun _ _ => ⟨fun x hx => by simp [targets] at hx, h.1, fun fs' hfs' => ?_⟩
      obtain rfl := Option.some.inj hfs'
      exact ⟨rfl, rfl, rfl⟩

lemma reject_confined (hs : Rooted fs s) :
    (confinement L c).Safe (reject : Helper (Option Fs)) s (Kept fs) :=
  fun _ _ => ⟨fun x hx => by simp [targets] at hx, kept_none hs⟩

/-- What a command may change is what its task owns. -/
lemma permitted_of_admitted (hc : fs.context.Accepted) {command proof : Json} {op path : Bytes}
    {toPath : Option Bytes} {seq : ℕ} (h : admitted L fs command op path toPath seq = true)
    (hm : (Operation.of op).mutates = true) :
    Task.Permitted fs.context ⟨command, op, path, toPath, seq, proof⟩ := by
  simp only [admitted, Bool.and_eq_true, hm] at h
  obtain ⟨⟨-, hpath⟩, hto⟩ := h
  obtain ⟨hcap, howned⟩ := owned_of_pathAllowed hc hpath
  refine ⟨hcap, howned, fun p hp => ?_⟩
  have hp : toPath = some p := hp
  rw [hp] at hto
  exact (owned_of_pathAllowed hc hto).2

/-- **A command.** -/
lemma rxCommand_confined (fuel : ℕ) (hc : fs.context.Accepted) (command : Json) (hs : Rooted fs s) :
    (confinement L fs.context).Safe (rxCommand L fuel fs command) s (Kept fs) := by
  refine Contract.Safe.bind fun _ hk => ⟨fun x hx => by simp [targets] at hx, ?_⟩
  have hs : Rooted fs s := hs
  show (confinement L fs.context).Safe _ s _
  cases rxString command "operation" 24 with
  | none => exact reject_confined hs
  | some op =>
    cases rxString command "path" 4095 with
    | none => exact reject_confined hs
    | some path =>
      cases rxSequence command with
      | none => exact reject_confined hs
      | some seq =>
        simp only
        split
        · exact reject_confined hs
        next hadm =>
          have hadm : admitted L fs command op path (rxString command "to" 4095) seq = true := by
            simpa using hadm
          have hlt : seq < 2 ^ 64 := by
            simp only [admitted, Bool.and_eq_true, decide_eq_true_eq] at hadm
            have := hadm.1.1.1.1.1
            unfold u64Max at this
            omega
          have hi : phase (eventFor fs.context "intent" op path (rxString command "to" 4095) seq) =
              some .intent := by
            rw [eventFor_eq]
            exact (event_number .intent fs.context op path (rxString command "to" 4095) [] hlt).1
          refine Contract.Safe.seq (ack_confined hs) fun r s h => ?_
          cases r with
          | none => exact kept_none h.1
          | some proof =>
            refine Contract.Safe.seq
              (perform_confined fuel
                (t := ⟨command, op, path, rxString command "to" 4095, seq, proof⟩)
              (permitted_of_admitted hc hadm) h.1 (h.2 proof rfl hi)) fun outcome s hleft => ?_
            refine Contract.Safe.seq (release_confined hleft) fun details s hs => ?_
            cases details with
            | none => exact kept_none hs
            | some details => exact report_confined hs

lemma shutdown_confined (status : ℕ) :
    (confinement L c).Safe (shutdown fs status) s fun _ _ => True := by
  refine Contract.Safe.bind (confined_close fun r => ?_)
  show (confinement L c).Safe (if _ then _ else _) _ _
  split <;> trivial

/-- **The loop.** -/
lemma serve_confined (steps : ℕ) : ∀ (fuel : ℕ) (fs : Fs) (s : World),
    fs.context.Accepted → Rooted fs s →
    (confinement L fs.context).Safe (serve L steps fuel fs) s fun _ _ => True
  | 0, _, _, _, _ => trivial
  | fuel + 1, fs, s, hc, hs => by
    refine Contract.Safe.bind (confined_still still_alive hs fun alive s hs => ?_)
    show (confinement L fs.context).Safe (if _ then _ else _) _ _
    split
    · exact shutdown_confined 0
    refine Contract.Safe.bind (confined_loose loose_readJson hs fun command s hs => ?_)
    cases command with
    | none => exact shutdown_confined 0
    | some command =>
      refine Contract.Safe.seq (rxCommand_confined steps hc command hs) fun r s h => ?_
      cases r with
      | none => exact shutdown_confined 7
      | some fs' =>
        obtain ⟨hs, hkept⟩ := h
        obtain ⟨hctx, hroot, hstat⟩ := hkept fs' rfl
        refine Contract.Safe.bind (confined_loose (loose_emit _) hs fun sent s hs => ?_)
        split
        · exact shutdown_confined 7
        · have hs' : Rooted fs' s := by
            refine ⟨?_, ?_, ?_⟩
            · rw [hroot]
              exact hs.root
            · rw [hstat]
              exact hs.device
            · rw [hroot]
              exact hs.stream
          rw [← hctx] at hc ⊢
          exact serve_confined steps fuel fs' s hc hs'

/-- **The helper.** -/
lemma helper_confined (fuel : ℕ) (hc : c.Accepted) :
    (confinement L c).Safe (helper L fuel c) World.initial fun _ _ => True := by
  refine Contract.Safe.bind fun root _ => ⟨fun x hx => by simp [targets] at hx, ?_⟩
  cases root with
  | none => trivial
  | some root =>
    show (confinement L c).Safe _ (World.initial.set root (some ⟨none, []⟩)) _
    refine Contract.Safe.bind (confined_stat trivial fun st _ => ?_)
    -- the first status is that of the root, and gives its device
    have hs : Rooted ⟨c, root, st, 0, c.sequence⟩
        ((World.initial.set root (some ⟨none, []⟩)).seen root (some st)) := by
      refine ⟨⟨⟨some st, []⟩, ?_, rfl⟩, rfl, ?_⟩
      · unfold World.seen
        simp [Walk.see]
      · exact Option.some_ne_none _ ∘ Eq.symm
    have hclose : ∀ (status : ℕ) (s : World),
        (confinement L c).Safe (do let _ ← close root; pure status) s fun _ _ => True :=
      fun status s => Contract.Safe.bind (confined_close fun _ => trivial)
    refine Contract.Safe.bind (confined_loose (p := ask (.mountInfo root))
      (Prog.only_ask fun _ => ⟨rfl, by simp⟩) hs fun info s hs => ?_)
    cases info with
    | none => exact hclose 5 s
    | some info =>
      refine Contract.Safe.bind (confined_loose (loose_emit _) hs fun sent s hs => ?_)
      split
      · exact hclose 6 s
      · exact serve_confined fuel fuel ⟨c, root, st, 0, c.sequence⟩ s hc hs

end Commands

end Pxeos.Storage
