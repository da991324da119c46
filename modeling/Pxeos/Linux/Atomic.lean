import Pxeos.Lib.Checks
import Pxeos.Linux.Files

/-!
# The hostname transaction is atomic

`Recoverable` is the invariant of the subshell: what its variables say about the two files is enough
for the EXIT trap to take the changes back, or to find that it cannot.  It holds wherever the
subshell can exit, but not between the creation of a missing file and the assignment that records
it.
-/

namespace Pxeos.Linux

open Pxeos.Lib

/-! ### The invariant -/

/-- A file that is recorded as changed was there and has a backup, or was not there. -/
structure RecoverableFile (init : World) (v : Vars) (w : World) (i : Which) : Prop where
  kept : (v.file i).changed = false → w.file (.target i) = init.file (.target i)
  overwritten : (v.file i).changed = true → (v.file i).existed = true → ∃ f g b,
    init.file (.target i) = some f ∧ w.file (.target i) = some g ∧
      g = { f with bytes := g.bytes, mtime := g.mtime } ∧
    (v.file i).metadata = some f.metadata ∧ (v.file i).oldHash = f.bytes ∧
      w.file (.backup i) = some b ∧
    b.mtime = f.mtime
  created : (v.file i).changed = true → (v.file i).existed = false → init.file (.target i) = none

structure Recoverable (init : World) (v : Vars) (w : World) : Prop where
  file : ∀ i, RecoverableFile init v w i
  stage : v.stage = false → w.stage = none
  owned : ∀ i, .target i ∉ v.ownedPaths

/-- The statuses with which the subshell exits on its own or after a signal. -/
def ExitStatus (n : ℕ) : Prop := n = 61 ∨ n = 65 ∨ n = 66 ∨ n = 130 ∨ n = 143

lemma exitStatus_signal (s : Signal) : ExitStatus s.status := by
  cases s
  · exact .inr (.inr (.inr (.inl rfl)))
  · exact .inr (.inr (.inr (.inr rfl)))

section Body

variable {render : Option Str → Str → Str → Str} {init : World} {α β : Type} {v : Vars} {w : World}

variable (render init) in
/-- The triple of the subshell: every exit is recoverable. -/
def Body (p : Transaction α) (v : Vars) (w : World) (Q : α → Vars → World → Prop) : Prop :=
  ∀ trap, Script.Holds (contract render init) p v ⟨w, trap⟩ (fun a v' s => Q a v' s.world)
    fun n v' s => ExitStatus n ∧ Recoverable init v' s.world

lemma Body.bind {p : Transaction α} {f : α → Transaction β} {Q : α → Vars → World → Prop}
    {R : β → Vars → World → Prop} (h : Body render init p v w Q)
    (hf : ∀ a v' w', Q a v' w' → Body render init (f a) v' w' R) :
    Body render init (p >>= f) v w R :=
  fun trap => (h trap).bind fun a v' s hQ => hf a v' s.world hQ s.trap

lemma Body.mono {p : Transaction α} {Q Q' : α → Vars → World → Prop} (h : Body render init p v w Q)
    (hQ : ∀ a v' w', Q a v' w' → Q' a v' w') : Body render init p v w Q' :=
  fun trap => (h trap).mono (fun a v' s => hQ a v' s.world) fun _ _ _ h => h

lemma body_pure {a : α} {Q : α → Vars → World → Prop} (h : Q a v w) :
    Body render init (pure a) v w Q :=
  fun _ => Script.holds_pure h

lemma Body.vars {f : Vars → Transaction β} {R : β → Vars → World → Prop}
    (h : Body render init (f v) v w R) :
    Body render init (Script.vars >>= f) v w R :=
  fun trap => Script.Holds.seq (Script.holds_vars (h trap))

/-- The variables after a captured command. -/
def Vars.captured {c : Call} (f : c.Value → Vars → Vars) (v : Vars) : Option c.Value → Vars
  | some a => f a v
  | none => v

/-- A command of the subshell.  Where a signal can follow, the state has to be recoverable. -/
lemma body_capture {c : Call} {f : c.Value → Vars → Vars}
    (hrec : ∀ r : Answer c, w.Answers render ⟨c, r⟩ →
      (∀ i, c = .create (.target i) → r.result.isNone) →
      Recoverable init (v.captured f r.result) (w.next ⟨c, r⟩)) :
    Body render init (capture c f) v w fun o v' w' =>
      ∃ r : Answer c, r.result = o ∧ w.Answers render ⟨c, r⟩ ∧ v' = v.captured f o ∧
        w' = w.next ⟨c, r⟩ := by
  intro trap
  unfold capture
  refine Script.Holds.seq (Script.holds_ask fun r hr => ⟨trivial, ?_⟩)
  refine Script.Holds.seq (Script.holds_set ?_)
  cases hs : r.signal with
  | none => exact Script.holds_pure ⟨r, rfl, hr.1, rfl, rfl⟩
  | some s =>
    refine Script.holds_exit ⟨exitStatus_signal s, ?_⟩
    exact hrec r hr.1 (hr.2 (by simp [hs])).1

lemma body_captureOrExit {c : Call} {f : c.Value → Vars → Vars} {n : ℕ} (hn : ExitStatus n)
    (hrec : ∀ r : Answer c, w.Answers render ⟨c, r⟩ →
      (∀ i, c = .create (.target i) → r.result.isNone) →
      Recoverable init (v.captured f r.result) (w.next ⟨c, r⟩)) :
    Body render init (captureOrExit n c f) v w fun a v' w' =>
      v' = f a v ∧ ∃ r : Answer c, r.result = some a ∧ w.Answers render ⟨c, r⟩ ∧
        w' = w.next ⟨c, r⟩ := by
  unfold captureOrExit
  refine (body_capture hrec).bind fun o v' w' ⟨r, ho, hr, hv, hw⟩ => ?_
  subst hv hw
  cases o with
  | some a => exact body_pure ⟨rfl, r, ho, hr, rfl⟩
  | none =>
    refine fun _ => Script.holds_exit ⟨hn, ?_⟩
    have := hrec r hr fun _ _ => by simp [ho]
    rwa [ho] at this

lemma body_orExit {c : Call} {n : ℕ} (hn : ExitStatus n)
    (hrec : ∀ r : Answer c, w.Answers render ⟨c, r⟩ →
      (∀ i, c = .create (.target i) → r.result.isNone) → Recoverable init v (w.next ⟨c, r⟩)) :
    Body render init (orExit n c) v w fun a v' w' =>
      v' = v ∧ ∃ r : Answer c, r.result = some a ∧ w.Answers render ⟨c, r⟩ ∧
        w' = w.next ⟨c, r⟩ := by
  refine body_captureOrExit hn fun r hr hc => ?_
  have : v.captured (fun _ v => v) r.result = v := by cases r.result <;> rfl
  rw [this]
  exact hrec r hr hc

/-- The commands that only look. -/
def Call.quiet : Call → Bool
  | .mktemp => false
  | .create _ => false
  | .chmod _ _ => false
  | .chown _ => false
  | .copy _ _ => false
  | .touch _ _ => false
  | .printName _ _ => false
  | .render _ _ _ => false
  | .remove _ => false
  | .rmdir => false
  | _ => true

lemma next_quiet {c : Call} (hc : c.quiet = true) (r : Answer c) : w.next ⟨c, r⟩ = w := by
  cases c with
  | assign | trap | check | present | fileSafe | metadataSafe | stageSafe | safeWriteDirectory | inode | stageInode
  | sameDevice | stat | hash | hashName | oldHostname | hashRendered => rfl
  | mktemp | create | chmod | chown | copy | touch | printName | render | remove | rmdir => cases hc

/-- A command that only looks, and what follows it. -/
lemma Body.look {c : Call} (hc : c.quiet = true) {n : ℕ} (hn : ExitStatus n)
    (h : Recoverable init v w) {f : c.Value → Transaction β} {R : β → Vars → World → Prop}
    (hf : ∀ (a : c.Value) (r : Answer c), r.result = some a → w.Answers render ⟨c, r⟩ →
      Body render init (f a) v w R) :
    Body render init (orExit n c >>= f) v w R := by
  refine (body_orExit hn fun r _ _ => ?_).bind fun a v' w' ⟨hv, r, hr, ha, hw⟩ => ?_
  · rw [next_quiet hc]
    exact h
  · rw [next_quiet hc] at hw
    subst hv hw
    exact hf a r hr ha

lemma body_run_quiet {c : Call} (hc : c.quiet = true) (h : Recoverable init v w) :
    Body render init (run c) v w fun o v' w' =>
      v' = v ∧ w' = w ∧ ∃ r : Answer c, r.result = o ∧ w.Answers render ⟨c, r⟩ := by
  have hcap : ∀ o : Option c.Value, v.captured (fun _ v => v) o = v := fun o => by cases o <;> rfl
  refine (body_capture fun r _ _ => ?_).mono fun o v' w' ⟨r, hr, ha, hv, hw⟩ => ?_
  · rw [next_quiet hc, hcap]
    exact h
  · rw [next_quiet hc] at hw
    exact ⟨hv.trans (hcap o), hw, r, hr, ha⟩

lemma body_assign {g : Vars → Vars} (h : Recoverable init (g v) w) :
    Body render init (assign g) v w fun _ v' w' => v' = g v ∧ w' = w := by
  have hcap : ∀ {r : Answer .assign}, w.Answers render ⟨.assign, r⟩ →
      v.captured (c := .assign) (fun _ => g) r.result = g v := by
    intro r hr
    obtain ⟨a, ha⟩ := Option.isSome_iff_exists.mp hr
    rw [ha]
    rfl
  unfold assign
  refine (body_capture fun r hr _ => ?_).bind fun o v' w' ⟨r, ho, hr, hv, hw⟩ => body_pure ?_
  · rw [hcap hr]
    exact h
  · rw [hv, ← ho]
    exact ⟨hcap hr, hw⟩

lemma Body.assign {g : Vars → Vars} (h : Recoverable init (g v) w) {f : Unit → Transaction β}
    {R : β → Vars → World → Prop} (hf : Body render init (f ()) (g v) w R) :
    Body render init (assign g >>= f) v w R := by
  refine (body_assign h).bind fun _ v' w' ⟨hv, hw⟩ => ?_
  subst hv hw
  exact hf

lemma body_check {n : ℕ} (hn : ExitStatus n) {b : Bool} (h : Recoverable init v w) :
    Body render init (check n b) v w fun _ v' w' => v' = v ∧ w' = w ∧ b = true := by
  cases b with
  | true => exact body_pure ⟨rfl, rfl, rfl⟩
  | false => exact fun _ => Script.holds_exit ⟨hn, h⟩

lemma Body.check {n : ℕ} (hn : ExitStatus n) {b : Bool} (h : Recoverable init v w)
    {f : Unit → Transaction β} {R : β → Vars → World → Prop}
    (hf : b = true → Body render init (f ()) v w R) :
    Body render init (check n b >>= f) v w R := by
  refine (body_check hn h).bind fun _ v' w' ⟨hv, hw, hb⟩ => ?_
  subst hv hw
  exact hf hb

lemma Body.isPresent {p : Path} (h : Recoverable init v w) {f : Bool → Transaction β}
    {R : β → Vars → World → Prop} (hf : Body render init (f (w.file p).isSome) v w R) :
    Body render init (isPresent p >>= f) v w R := by
  have htest : Body render init (Linux.isPresent p) v w fun b v' w' => v' = v ∧ w' = w ∧
      b = (w.file p).isSome := by
    unfold Linux.isPresent
    refine (body_run_quiet (c := .present p) rfl h).bind fun o v' w' ⟨hv, hw, r, ho, hr⟩ =>
      body_pure ⟨hv, hw, ?_⟩
    have hr : r.result = some (w.file p).isSome := hr
    rw [ho] at hr
    simp [hr]
  refine htest.bind fun b v' w' ⟨hv, hw, hb⟩ => ?_
  subst hv hw hb
  exact hf

/-- A loop of the subshell. -/
lemma body_forEach {ι : Type} {turn : ι → Transaction Unit} (I : List ι → Vars → World → Prop)
    (hturn : ∀ x xs v w, I (x :: xs) v w → Body render init (turn x) v w fun _ => I xs)
    (xs : List ι) (h : I xs v w) :
    Body render init (Script.forEach xs turn) v w fun _ => I [] := by
  intro trap
  exact Script.holds_forEach (fun xs v (s : Moment) => I xs v s.world)
    (fun x xs v s hI => hturn x xs v s.world hI s.trap) xs h

/-! ### The preflight -/

/-- Before anything is written. -/
lemma recoverable_untouched (hfile : ∀ i, (v.file i).changed = false) (hw : w = init)
    (hs : init.stage = none) (howned : v.ownedPaths = []) : Recoverable init v w where
  file i := by
    subst hw
    exact ⟨fun _ => rfl, fun h => by simp [hfile i] at h, fun h => by simp [hfile i] at h⟩
  stage _ := hw ▸ hs
  owned i := by simp [howned]

/-- What is left of a preflight that passes: both files have their new content already, if it says
so. -/
structure Passed (render : Option Str → Str → Str → Str) (init : World) (name : Str) (v : Vars)
    (w : World) : Prop where
  vars : v = { initialVars with verified := v.verified }
  world : w = init
  verified : v.verified = true → ∀ i, init.bytes (.target i) = some (newContent render init name i)

lemma body_preflight {name : Str} (hs : init.stage = none) :
    Body render init (preflight name) initialVars init fun _ => Passed render init name := by
  have hrec : Recoverable init initialVars init := recoverable_untouched (fun _ => rfl) rfl hs rfl
  have h61 : ExitStatus 61 := .inl rfl
  have hpass : Passed render init name initialVars init := ⟨rfl, rfl, fun h => by cases h⟩
  unfold preflight
  refine Body.look rfl h61 hrec fun _ _ _ _ => Body.check h61 hrec fun _ => ?_
  refine Body.look rfl h61 hrec fun _ _ _ _ => Body.look rfl h61 hrec fun _ _ _ _ => ?_
  refine Body.look rfl h61 hrec fun _ _ _ _ => ?_
  refine (body_forEach (fun _ v w => v = initialVars ∧ w = init) ?_ _ ⟨rfl, rfl⟩).bind
    fun _ v w ⟨hv, hw⟩ => ?_
  · rintro i - v w ⟨rfl, rfl⟩
    refine Body.isPresent hrec ?_
    split
    · refine Body.look rfl h61 hrec fun _ _ _ _ => ?_
      exact Body.look rfl h61 hrec fun _ _ _ _ => body_pure ⟨rfl, rfl⟩
    · exact body_pure ⟨rfl, rfl⟩
  subst hv hw
  refine Body.isPresent hrec (Body.isPresent hrec ?_)
  split
  · refine Body.look rfl h61 hrec fun expected r hr ha => ?_
    have hname := ha expected hr
    refine Body.look rfl h61 hrec fun actual r hr ha => ?_
    have hactual := ha actual hr
    split
    · rename_i heq
      refine Body.look rfl h61 hrec fun old r hr ha => ?_
      have hold := ha old hr
      refine Body.look rfl h61 hrec fun rendered r hr ha => ?_
      have hrendered := ha rendered hr
      refine Body.look rfl h61 hrec fun hosts r hr ha => ?_
      have hhosts := ha hosts hr
      split
      · rename_i heq'
        refine (body_assign (recoverable_untouched (fun _ => rfl) rfl hs rfl)).mono
          fun _ v w ⟨hv, hw⟩ => ?_
        subst hv hw
        refine ⟨rfl, rfl, fun _ i => ?_⟩
        cases i with
        | hostname => rw [hactual, heq, hname]; rfl
        | hosts => rw [hhosts, heq', hrendered, hold]; rfl
      · exact body_pure hpass
    · exact body_pure hpass
  · exact body_pure hpass

/-! ### Staging -/

/-- The file that a command writes. -/
def Call.writes : Call → Option Path
  | .create p => some p
  | .chmod p _ => some p
  | .chown p => some p
  | .copy _ p => some p
  | .touch _ p => some p
  | .printName p _ => some p
  | .render p _ _ => some p
  | .remove p => some p
  | _ => none

lemma put_file (p q : Path) (f : Option File) :
    (w.put p f).file q = if q = p then f else w.file q := rfl

lemma modify_file (p : Path) (f : File → File) : (w.modify p f).file p = (w.file p).map f :=
  if_pos rfl

lemma written_bytes {γ : Type} {p : Path} {r : Reply γ} {f : File} (h : w.file p = some f) :
    (w.written p r).bytes p = some r.bytes := by
  simp [World.bytes, World.written, modify_file, h]

/-- A command that writes a file leaves the others and the stage alone. -/
lemma next_frame {c : Call} {p : Path} (hc : c.writes = some p) (r : Answer c) :
    (∀ q, q ≠ p → (w.next ⟨c, r⟩).file q = w.file q) ∧ (w.next ⟨c, r⟩).stage = w.stage := by
  cases c with
  | create | chmod | chown | touch | remove =>
    obtain rfl := Option.some.inj hc
    dsimp only [World.next]
    split
    · exact ⟨fun q hq => if_neg hq, rfl⟩
    · exact ⟨fun q _ => rfl, rfl⟩
  | copy | printName | render =>
    obtain rfl := Option.some.inj hc
    exact ⟨fun q hq => if_neg hq, rfl⟩
  | assign | trap | check | present | fileSafe | metadataSafe | stageSafe | safeWriteDirectory | inode | stageInode
  | sameDevice | stat | hash | hashName | oldHostname | hashRendered | mktemp | rmdir => cases hc

/-- The first loop: nothing in `/etc` has changed. -/
structure Prepared (init : World) (v : Vars) (w : World) : Prop where
  unchanged : ∀ i, (v.file i).changed = false
  targets : ∀ i, w.file (.target i) = init.file (.target i)
  stage : v.stage = true
  owned : ∀ i, .target i ∉ v.ownedPaths

namespace Prepared

lemma recoverable (h : Prepared init v w) : Recoverable init v w where
  file i :=
    ⟨fun _ => h.targets i, fun hc => by simp [h.unchanged i] at hc,
      fun hc => by simp [h.unchanged i] at hc⟩
  stage hs := by simp [h.stage] at hs
  owned := h.owned

lemma frame (h : Prepared init v w) {w' : World} {p : Path} (hp : ∀ i, .target i ≠ p)
    (hw : ∀ q, q ≠ p → w'.file q = w.file q) : Prepared init v w' :=
  ⟨h.unchanged, fun i => (hw _ (hp i)).trans (h.targets i), h.stage, h.owned⟩

/-- An assignment for one file. -/
lemma update (h : Prepared init v w) (i : Which) {g : FileVars → FileVars}
    (hg : (g (v.file i)).changed = false) :
    Prepared init (v.update i g) w := by
  refine ⟨fun j => ?_, h.targets, h.stage, h.owned⟩
  show (if j = i then g (v.file i) else v.file j).changed = false
  split
  · exact hg
  · exact h.unchanged j

end Prepared

/-- A command that writes a file of the stage, and what follows it. -/
lemma Body.stage {c : Call} {p : Path} (hc : c.writes = some p) (hp : ∀ i, .target i ≠ p) {n : ℕ}
    (hn : ExitStatus n) (h : Prepared init v w) {f : c.Value → Transaction β}
    {R : β → Vars → World → Prop}
    (hf : ∀ (a : c.Value) (r : Answer c) (w' : World), r.result = some a → w.Answers render ⟨c, r⟩ →
      w' = w.next ⟨c, r⟩ → Prepared init v w' → (∀ q, q ≠ p → w'.file q = w.file q) →
      Body render init (f a) v w' R) :
    Body render init (orExit n c >>= f) v w R := by
  refine (body_orExit hn fun r _ _ => ?_).bind fun a v' w' ⟨hv, r, hr, ha, hw⟩ => ?_
  · exact (h.frame hp (next_frame hc r).1).recoverable
  · subst hv hw
    exact hf a r _ hr ha rfl (h.frame hp (next_frame hc r).1) (next_frame hc r).1

lemma body_ownedFile {p : Path} (hp : ∀ i, .target i ≠ p) (h : Prepared init v w) :
    Body render init (ownedFile p) v w fun _ v' w' =>
      Prepared init v' w' ∧ v'.file = v.file ∧ (∀ q, q ≠ p → w'.file q = w.file q) ∧
      (w'.file p).isSome := by
  have h66 : ExitStatus 66 := .inr (.inr (.inl rfl))
  unfold ownedFile
  refine Body.stage rfl hp h66 h fun _ _ w₁ _ _ _ h₁ hw₁ => ?_
  refine Body.look rfl h66 h₁.recoverable fun (inode : ℕ) _ _ _ => ?_
  have hv₁ : Prepared init { v with ownedPaths := v.ownedPaths ++ [p] } w₁ := by
    refine ⟨h₁.unchanged, h₁.targets, h₁.stage, fun i hi => ?_⟩
    rcases List.mem_append.mp hi with hi | hi
    · exact h₁.owned i hi
    · exact hp i (List.mem_singleton.mp hi)
  have hv₂ : Prepared init { v with
      ownedPaths := v.ownedPaths ++ [p], ownedInodes := v.ownedInodes ++ [inode] } w₁ :=
    ⟨hv₁.unchanged, hv₁.targets, hv₁.stage, hv₁.owned⟩
  refine Body.assign hv₁.recoverable (Body.assign hv₂.recoverable ?_)
  refine Body.stage rfl hp h66 hv₂ fun _ _ w₂ _ _ _ h₂ hw₂ => ?_
  refine Body.stage rfl hp h66 h₂ fun _ _ w₃ _ _ _ h₃ hw₃ => ?_
  refine Body.look rfl h66 h₃.recoverable fun _ _ hr ha => body_pure ⟨h₃, rfl, fun q hq => ?_, ?_⟩
  · rw [hw₃ q hq, hw₂ q hq, hw₁ q hq]
  · obtain ⟨f, hf, -⟩ := ha (by simp [hr])
    simp [hf]

/-- A file that was there has a backup with its time, and what it was is recorded. -/
def Backed (init : World) (v : Vars) (w : World) (i : Which) : Prop :=
  (v.file i).existed = true ∧ ∃ f b, init.file (.target i) = some f ∧
    (v.file i).metadata = some f.metadata ∧
    (v.file i).oldHash = f.bytes ∧ w.file (.backup i) = some b ∧ b.mtime = f.mtime

lemma update_self (i : Which) (g : FileVars → FileVars) : (v.update i g).file i = g (v.file i) :=
  if_pos rfl

lemma update_other {i j : Which} (hj : j ≠ i) (g : FileVars → FileVars) :
    (v.update i g).file j = v.file j := if_neg hj

lemma body_backUp {i : Which} (h : Prepared init v w) :
    Body render init (backUp i) v w fun _ v' w' => Prepared init v' w' ∧ Backed init v' w' i ∧
      (∀ j, j ≠ i → v'.file j = v.file j) ∧ ∀ q, q ≠ .backup i → w'.file q = w.file q := by
  have h61 : ExitStatus 61 := .inl rfl
  have h65 : ExitStatus 65 := .inr (.inl rfl)
  have h66 : ExitStatus 66 := .inr (.inr (.inl rfl))
  have hp : ∀ j, Path.target j ≠ .backup i := fun j hj => by cases hj
  unfold backUp
  refine Body.look rfl h61 h.recoverable fun _ _ hr ha => ?_
  obtain ⟨f, hf, -⟩ := ha (by simp [hr])
  refine Body.look rfl h65 h.recoverable fun (inode : ℕ) _ _ _ => ?_
  refine Body.look rfl h65 h.recoverable fun (m : Metadata) _ hr ha => ?_
  have hm : m = f.metadata := by
    have hstat : (w.file (.target i)).map (·.metadata) = some m := ha m hr
    rw [hf] at hstat
    exact (Option.some.inj hstat).symm
  refine Body.look rfl h65 h.recoverable fun (bytes : Str) _ hr ha => ?_
  have hbytes : bytes = f.bytes := by
    have hhash : (w.file (.target i)).map (·.bytes) = some bytes := ha bytes hr
    rw [hf] at hhash
    exact (Option.some.inj hhash).symm
  have hi := h.unchanged i
  have h₁ := h.update i (g := fun f => { f with existed := true }) hi
  have h₂ := h₁.update i (g := fun f => { f with finalInode := some inode }) (h₁.unchanged i)
  have h₃ := h₂.update i (g := fun f => { f with metadata := some m }) (h₂.unchanged i)
  have h₄ := h₃.update i (g := fun f => { f with oldHash := bytes }) (h₃.unchanged i)
  refine Body.assign h₁.recoverable
    (Body.assign h₂.recoverable (Body.assign h₃.recoverable (Body.assign h₄.recoverable ?_)))
  refine (body_ownedFile hp h₄).bind fun _ v₅ w₅ ⟨h₅, hv₅, hw₅, hsome⟩ => ?_
  refine Body.stage rfl hp h66 h₅ fun _ r₆ w₆ _ _ hnext₆ h₆ hw₆ => ?_
  refine Body.stage rfl hp h66 h₆ fun _ r₇ w₇ hr₇ _ hnext₇ h₇ hw₇ => ?_
  refine Body.look rfl h65 h₇.recoverable fun _ _ _ _ => ?_
  refine (body_check h65 h₇.recoverable).mono fun _ v' w' ⟨hv, hw, _⟩ => ?_
  subst hv hw
  refine ⟨h₇, ⟨?_, f, ?_⟩, fun j hj => ?_, fun q hq => ?_⟩
  · rw [hv₅]
    simp [update_self]
  · have htarget : init.file (.target i) = some f := (h.targets i).symm.trans hf
    obtain ⟨b, hb⟩ := Option.isSome_iff_exists.mp hsome
    have hb₆ : w₆.file (.backup i) = some { b with bytes := r₆.bytes, mtime := r₆.mtime } := by
      rw [hnext₆]
      exact (modify_file _ _).trans (by rw [hb]; rfl)
    have ht₆ : w₆.file (.target i) = some f := by rw [h₆.targets i, htarget]
    have hb₇ : w'.file (.backup i) = some { b with bytes := r₆.bytes, mtime := f.mtime } := by
      rw [hnext₇]
      show (if r₇.result.isSome then _ else w₆).file (.backup i) = _
      rw [if_pos (by simp [hr₇])]
      refine (modify_file _ _).trans ?_
      rw [hb₆, ht₆]
      rfl
    exact ⟨_, htarget, by rw [hv₅]; simp [update_self, hm],
      by rw [hv₅]; simp [update_self, hbytes], hb₇, rfl⟩
  · rw [hv₅]
    simp [update_other hj]
  · rw [hw₇ q hq, hw₆ q hq, hw₅ q hq]

lemma body_noBackup {i : Which} (h : Prepared init v w) :
    Body render init (noBackup i) v w fun _ v' w' => Prepared init v' w' ∧
    (v'.file i).existed = false ∧
      (∀ j, j ≠ i → v'.file j = v.file j) ∧ w' = w := by
  have h₁ := h.update i (g := fun f => { f with existed := false }) (h.unchanged i)
  have h₂ := h₁.update i (g := fun f => { f with finalInode := none }) (h₁.unchanged i)
  have h₃ := h₂.update i (g := fun f => { f with metadata := some ⟨0, 0, 0o644, 1⟩ })
    (h₂.unchanged i)
  have h₄ := h₃.update i (g := fun f => { f with oldHash := [] }) (h₃.unchanged i)
  unfold noBackup
  refine Body.assign h₁.recoverable (Body.assign h₂.recoverable (Body.assign h₃.recoverable ?_))
  refine (body_assign h₄.recoverable).mono fun _ v' w' ⟨hv, hw⟩ => ?_
  subst hv hw
  exact ⟨h₄, by simp [update_self], fun j hj => by simp [update_other hj], rfl⟩

/-- A file is ready to be written: it has a backup or was not there, and the digest of its new
version is recorded. -/
def Ready (render : Option Str → Str → Str → Str) (init : World) (name : Str) (v : Vars) (w : World)
    (i : Which) : Prop :=
  (Backed init v w i ∨ ((v.file i).existed = false ∧ init.file (.target i) = none)) ∧
    (v.file i).newHash = newContent render init name i

/-- What a file is ready for depends on its record and on its backup. -/
lemma Ready.congr {name : Str} {i : Which} (h : Ready render init name v w i) {v' : Vars}
    {w' : World} (he : (v'.file i).existed = (v.file i).existed)
    (hm : (v'.file i).metadata = (v.file i).metadata)
    (ho : (v'.file i).oldHash = (v.file i).oldHash) (hn : (v'.file i).newHash = (v.file i).newHash)
    (hw : w'.file (.backup i) = w.file (.backup i)) : Ready render init name v' w' i := by
  obtain ⟨hb, hnew⟩ := h
  refine ⟨?_, hn.trans hnew⟩
  unfold Backed
  rw [he, hm, ho, hw]
  exact hb

lemma newVersion_writes (old name : Str) (i : Which) :
    (newVersion old name i).writes = some (.staged i) := by
  cases i <;> rfl

lemma newVersion_bytes {old name : Str} (hold : old = oldHostname (init.bytes (.target .hostname)))
    (i : Which) (hw : ∀ i, w.file (.target i) = init.file (.target i)) {f : File}
    (hf : w.file (.staged i) = some f) {a : (newVersion old name i).Value}
    {r : Answer (newVersion old name i)} (hr : r.result = some a)
    (ha : w.Answers render ⟨newVersion old name i, r⟩) :
    (w.next ⟨newVersion old name i, r⟩).bytes (.staged i) =
      some (newContent render init name i) := by
  cases i with
  | hostname =>
    have hb : r.bytes = name ++ ['\n'] := ha (by rw [hr]; rfl)
    exact (written_bytes hf).trans (by rw [hb]; rfl)
  | hosts =>
    have hb : r.bytes = render (w.bytes (.target .hosts)) old name := ha (by rw [hr]; rfl)
    have hinit : w.bytes (.target .hosts) = init.bytes (.target .hosts) := by
      unfold World.bytes; rw [hw]
    exact (written_bytes hf).trans (by rw [hb, hinit, hold]; rfl)

lemma body_recordOld {i : Which} (h : Prepared init v w) :
    Body render init (recordOld i) v w fun _ v' w' => Prepared init v' w' ∧
      (Backed init v' w' i ∨ ((v'.file i).existed = false ∧ init.file (.target i) = none)) ∧
      (∀ j, j ≠ i → v'.file j = v.file j) ∧ ∀ q, q ≠ .backup i → w'.file q = w.file q := by
  unfold recordOld
  refine Body.isPresent h.recoverable ?_
  split
  · exact (body_backUp h).mono fun _ v' w' ⟨hv, hb, hj, hq⟩ => ⟨hv, .inl hb, hj, hq⟩
  · rename_i hnone
    refine (body_noBackup h).mono fun _ v' w' ⟨hv, hb, hj, hw⟩ =>
      ⟨hv, .inr ⟨hb, ?_⟩, hj, fun q _ => by rw [hw]⟩
    rw [← h.targets i]
    simpa using hnone

lemma body_stageNew {old name : Str} (hold : old = oldHostname (init.bytes (.target .hostname)))
    {i : Which} (h : Prepared init v w)
    (hb : Backed init v w i ∨ ((v.file i).existed = false ∧ init.file (.target i) = none)) :
    Body render init (stageNew old name i) v w fun _ v' w' => Prepared init v' w' ∧
    Ready render init name v' w' i ∧
      (∀ j, j ≠ i → v'.file j = v.file j) ∧ ∀ q, q ≠ .staged i → w'.file q = w.file q := by
  have h61 : ExitStatus 61 := .inl rfl
  have h65 : ExitStatus 65 := .inr (.inl rfl)
  have h66 : ExitStatus 66 := .inr (.inr (.inl rfl))
  have hp : ∀ j, Path.target j ≠ .staged i := fun j hj => by cases hj
  unfold stageNew
  refine (body_ownedFile hp h).bind fun _ v₃ w₃ ⟨h₃, hv₃, hw₃, hsome⟩ => ?_
  obtain ⟨f, hf⟩ := Option.isSome_iff_exists.mp hsome
  refine Body.stage (newVersion_writes old name i) hp h66 h₃ fun _ r₄ w₄ hr₄ ha₄ hnext₄ h₄ hw₄ => ?_
  have hbytes := newVersion_bytes hold i h₃.targets hf hr₄ ha₄
  rw [← hnext₄] at hbytes
  refine Body.look rfl h61 h₄.recoverable fun _ _ _ _ => ?_
  refine Body.look rfl h65 h₄.recoverable fun (hash : Str) _ hr ha => ?_
  have hhash : w₄.bytes (.staged i) = some hash := ha hash hr
  have hnew : hash = newContent render init name i := Option.some.inj (hhash.symm.trans hbytes)
  have h₅ := h₄.update i (g := fun f => { f with newHash := hash }) (h₄.unchanged i)
  refine (body_assign h₅.recoverable).mono fun _ v' w' ⟨hv, hw⟩ => ?_
  subst hv hw
  have hback : w'.file (.backup i) = w.file (.backup i) := by
    rw [hw₄ _ (by simp), hw₃ _ (by simp)]
  refine ⟨h₅, ⟨?_, ?_⟩, fun j hj => ?_, fun q hq => ?_⟩
  · unfold Backed
    rw [update_self, hback, hv₃]
    exact hb
  · rw [update_self]
    exact hnew
  · rw [update_other hj, hv₃]
  · rw [hw₄ q hq, hw₃ q hq]

lemma body_stageFile {old name : Str} (hold : old = oldHostname (init.bytes (.target .hostname)))
    {i : Which} (h : Prepared init v w) :
    Body render init (stageFile old name i) v w fun _ v' w' => Prepared init v' w' ∧
    Ready render init name v' w' i ∧
      (∀ j, j ≠ i → v'.file j = v.file j) ∧ ∀ q, q ≠ .backup i → q ≠ .staged i →
        w'.file q = w.file q := by
  have h₁ := h.update i (g := fun f => { f with changed := false }) rfl
  unfold stageFile
  refine Body.assign h₁.recoverable ((body_recordOld h₁).bind fun _ v₂ w₂ ⟨h₂, hb, hv₂, hw₂⟩ => ?_)
  refine (body_stageNew hold h₂ hb).mono fun _ v' w' ⟨h', hready, hv', hw'⟩ =>
    ⟨h', hready, fun j hj => ?_, fun q hq hq' => ?_⟩
  · rw [hv' j hj, hv₂ j hj, update_other hj]
  · rw [hw' q hq', hw₂ q hq]

/-- **The first loop** leaves both files ready. -/
lemma body_staging {old name : Str} (hold : old = oldHostname (init.bytes (.target .hostname)))
    (h : Prepared init v w) :
    Body render init (Script.forEach [.hostname, .hosts] (stageFile old name)) v w fun _ v' w' =>
      Prepared init v' w' ∧ ∀ i, Ready render init name v' w' i := by
  refine (body_stageFile hold h).bind fun _ v₁ w₁ ⟨h₁, hready₁, _, _⟩ => ?_
  refine (body_stageFile hold h₁).bind fun _ v₂ w₂ ⟨h₂, hready₂, hv₂, hw₂⟩ =>
    body_pure ⟨h₂, fun i => ?_⟩
  cases i with
  | hostname =>
    have hv := hv₂ .hostname (by simp)
    exact hready₁.congr (by rw [hv]) (by rw [hv]) (by rw [hv]) (by rw [hv])
      (hw₂ _ (by simp) (by simp))
  | hosts => exact hready₂

/-! ### Writing -/

lemma body_inodeIs {p : Path} {n : Option ℕ} (h : Recoverable init v w) :
    Body render init (inodeIs p n) v w fun _ v' w' => v' = v ∧ w' = w := by
  unfold inodeIs
  cases n with
  | none => exact body_pure ⟨rfl, rfl⟩
  | some n => exact (body_run_quiet rfl h).bind fun _ v' w' ⟨hv, hw, _⟩ => body_pure ⟨hv, hw⟩

lemma body_ok {c : Call} (hc : c.quiet = true) (h : Recoverable init v w) :
    Body render init (ok c) v w fun _ v' w' => v' = v ∧ w' = w :=
  (body_run_quiet hc h).bind fun _ _ _ ⟨hv, hw, _⟩ => body_pure ⟨hv, hw⟩

lemma body_both {p q : Transaction Bool}
    (hp : Body render init p v w fun _ v' w' => v' = v ∧ w' = w)
    (hq : Body render init q v w fun _ v' w' => v' = v ∧ w' = w) :
    Body render init (both p q) v w fun _ v' w' => v' = v ∧ w' = w := by
  unfold both
  refine hp.bind fun b v' w' ⟨hv, hw⟩ => ?_
  subst hv hw
  split
  · exact hq
  · exact body_pure ⟨rfl, rfl⟩

lemma body_ownedFileValid {p : Path} (h : Recoverable init v w) :
    Body render init (ownedFileValid p) v w fun _ v' w' => v' = v ∧ w' = w := by
  unfold ownedFileValid
  refine Body.vars (body_both (body_ok rfl h) (body_both ?_ (body_both (body_ok rfl h) ?_)))
  · unfold stageInodeIs
    cases v.stageInode with
    | none => exact body_pure ⟨rfl, rfl⟩
    | some n => exact (body_run_quiet rfl h).bind fun _ v' w' ⟨hv, hw, _⟩ => body_pure ⟨hv, hw⟩
  · split
    · exact body_inodeIs h
    · exact body_pure ⟨rfl, rfl⟩

lemma body_checkStaged {i : Which} (h : Recoverable init v w) :
    Body render init (checkStaged i) v w fun _ v' w' => v' = v ∧ w' = w := by
  have h61 : ExitStatus 61 := .inl rfl
  have h65 : ExitStatus 65 := .inr (.inl rfl)
  unfold checkStaged
  refine Body.vars (Body.look rfl h61 h fun _ _ _ _ => ?_)
  refine (body_ownedFileValid h).bind fun valid v' w' ⟨hv, hw⟩ => ?_
  subst hv hw
  refine Body.check h65 h fun _ => Body.look rfl h65 h fun _ _ _ _ => ?_
  exact (body_check h65 h).mono fun _ v' w' ⟨hv, hw, _⟩ => ⟨hv, hw⟩

/-- The record of a file, but for the inode and for whether it is changed. -/
def SameRecord (f f' : FileVars) : Prop :=
  f'.existed = f.existed ∧ f'.metadata = f.metadata ∧ f'.oldHash = f.oldHash ∧
    f'.newHash = f.newHash

/-- What is between two moments of the second loop: the file in turn may have been written. -/
structure Onto (i : Which) (v : Vars) (w : World) (v' : Vars) (w' : World) : Prop where
  record : SameRecord (v.file i) (v'.file i)
  others : ∀ j, j ≠ i → v'.file j = v.file j
  stage : v'.stage = v.stage
  owned : v'.ownedPaths = v.ownedPaths
  world : ∀ q, q ≠ .target i → w'.file q = w.file q

namespace Onto

variable {i : Which} {v' v'' : Vars} {w' w'' : World}

lemma refl : Onto i v w v w := ⟨⟨rfl, rfl, rfl, rfl⟩, fun _ _ => rfl, rfl, rfl, fun _ _ => rfl⟩

lemma trans (h : Onto i v w v' w') (h' : Onto i v' w' v'' w'') : Onto i v w v'' w'' where
  record := by
    obtain ⟨h1, h2, h3, h4⟩ := h.record
    obtain ⟨h1', h2', h3', h4'⟩ := h'.record
    exact ⟨h1'.trans h1, h2'.trans h2, h3'.trans h3, h4'.trans h4⟩
  others j hj := (h'.others j hj).trans (h.others j hj)
  stage := h'.stage.trans h.stage
  owned := h'.owned.trans h.owned
  world q hq := (h'.world q hq).trans (h.world q hq)

lemma update {g : FileVars → FileVars} (hg : SameRecord (v.file i) (g (v.file i))) :
    Onto i v w (v.update i g) w where
  record := by rw [update_self]; exact hg
  others j hj := update_other hj g
  stage := rfl
  owned := rfl
  world _ _ := rfl

lemma command {c : Call} (hc : c.writes = some (.target i)) (r : Answer c) :
    Onto i v w v (w.next ⟨c, r⟩) :=
  ⟨⟨rfl, rfl, rfl, rfl⟩, fun _ _ => rfl, rfl, rfl, (next_frame hc r).1⟩

/-- The other file is recoverable as before. -/
lemma recoverable (h : Onto i v w v' w') (hs : w'.stage = w.stage) (hrec : Recoverable init v w)
    (hi : RecoverableFile init v' w' i) : Recoverable init v' w' where
  file j := by
    by_cases hj : j = i
    · exact hj ▸ hi
    · have hv := h.others j hj
      have ht := h.world (.target j) (by simp [hj])
      have hb := h.world (.backup j) (by simp)
      exact ⟨by rw [hv, ht]; exact (hrec.file j).kept,
        by rw [hv, ht, hb]; exact (hrec.file j).overwritten,
        by rw [hv]; exact (hrec.file j).created⟩
  stage hst := by
    rw [hs]
    exact hrec.stage (h.stage ▸ hst)
  owned j := by
    rw [h.owned]
    exact hrec.owned j

end Onto

/-- A file that is ready can be recorded as changed. -/
lemma Recoverable.mark {name : Str} {i : Which} (h : Recoverable init v w)
    (hready : Ready render init name v w i)
    (hkept : (v.file i).existed = true → w.file (.target i) = init.file (.target i)) :
    Recoverable init (v.update i fun f => { f with changed := true }) w := by
  refine Onto.recoverable (.update ⟨rfl, rfl, rfl, rfl⟩) rfl h ⟨fun hc => ?_, fun _ he => ?_,
    fun _ he => ?_⟩
  · rw [update_self] at hc
    cases hc
  · rw [update_self] at he ⊢
    rcases hready.1 with ⟨-, f, b, hf, hm, ho, hb, ht⟩ | ⟨hno, -⟩
    · exact ⟨f, f, b, hf, (hkept he).trans hf, rfl, hm, ho, hb, ht⟩
    · rw [hno] at he
      cases he
  · rw [update_self] at he
    rcases hready.1 with ⟨hyes, -⟩ | ⟨-, hnone⟩
    · rw [hyes] at he
      cases he
    · exact hnone

/-- The file in turn is written: its bytes and its time if it was there, and as one likes if it was
not. -/
lemma Recoverable.write {i : Which} (h : Recoverable init v w) (hch : (v.file i).changed = true)
    {c : Call} (hc : c.writes = some (.target i)) (r : Answer c)
    (hg : (v.file i).existed = true → ∀ g, w.file (.target i) = some g → ∃ bytes mtime,
      (w.next ⟨c, r⟩).file (.target i) = some { g with bytes := bytes, mtime := mtime }) :
    Recoverable init v (w.next ⟨c, r⟩) := by
  refine (Onto.command hc r).recoverable (next_frame hc r).2 h ⟨fun hno => ?_, fun _ he => ?_,
    (h.file i).created⟩
  · rw [hch] at hno
    cases hno
  · obtain ⟨f, g, b, hf, hgf, heq, hm, ho, hb, ht⟩ := (h.file i).overwritten hch he
    obtain ⟨bytes, mtime, hw⟩ := hg he g hgf
    refine ⟨f, _, b, hf, hw, ?_, hm, ho, ((next_frame hc r).1 _ (by simp)).trans hb, ht⟩
    rw [heq]

lemma Recoverable.writeNew {i : Which} (h : Recoverable init v w) (hch : (v.file i).changed = true)
    (hno : (v.file i).existed = false) {c : Call} (hc : c.writes = some (.target i))
    (r : Answer c) :
    Recoverable init v (w.next ⟨c, r⟩) :=
  h.write hch hc r fun he => by simp [hno] at he

lemma update_eq_self {i : Which} {g : FileVars → FileVars} (hg : g (v.file i) = v.file i) :
    v.update i g = v := by
  have hfile : (fun j => if j = i then g (v.file i) else v.file j) = v.file := by
    funext j
    split
    · rename_i hj
      rw [hg, hj]
    · rfl
  unfold Vars.update
  rw [hfile]

lemma body_unchangedSince {i : Which} (h : Recoverable init v w) :
    Body render init (unchangedSince i) v w fun _ v' w' => v' = v ∧ w' = w := by
  have h61 : ExitStatus 61 := .inl rfl
  unfold unchangedSince
  refine Body.vars (Body.look rfl h61 h fun _ _ _ _ => Body.look rfl h61 h fun _ _ _ _ => ?_)
  refine Body.look rfl h61 h fun _ _ _ _ => Body.look rfl h61 h fun _ _ _ _ => ?_
  exact (body_check h61 h).mono fun _ v' w' ⟨hv, hw, _⟩ => ⟨hv, hw⟩

/-- A missing file is created and recorded; no signal arrives in between. -/
lemma body_createTarget {i : Which} (h : Recoverable init v w) (hno : (v.file i).existed = false)
    (hnone : init.file (.target i) = none) :
    Body render init (createTarget i) v w fun _ v' w' =>
      Recoverable init v' w' ∧ (v'.file i).changed = true ∧ Onto i v w v' w' := by
  have h61 : ExitStatus 61 := .inl rfl
  have h66 : ExitStatus 66 := .inr (.inr (.inl rfl))
  unfold createTarget
  refine (body_orExit h61 fun r _ hr => ?_).bind fun _ v₁ w₁ ⟨hv₁, r, hr, _, hw₁⟩ => ?_
  · have hfail : r.result.isSome = false := by simpa using hr i rfl
    show Recoverable init v (if r.result.isSome then _ else w)
    rw [if_neg (by simp [hfail])]
    exact h
  subst hv₁
  have hcreate : Onto i v₁ w v₁ w₁ := by
    rw [hw₁]
    exact Onto.command rfl r
  have hstage : w₁.stage = w.stage := by
    rw [hw₁]
    exact (next_frame rfl r).2
  -- from here on the file counts as created
  have hmarked : ∀ v', Onto i v₁ w v' w₁ → (v'.file i).changed = true → Recoverable init v' w₁ := by
    intro v' ho hch
    refine ho.recoverable hstage h ⟨fun hc => ?_, fun _ he => ?_, fun _ _ => hnone⟩
    · rw [hch] at hc
      cases hc
    · rw [ho.record.1, hno] at he
      cases he
  have ho₂ : Onto i v₁ w (v₁.update i fun f => { f with changed := true }) w₁ :=
    hcreate.trans (.update ⟨rfl, rfl, rfl, rfl⟩)
  have hr₂ := hmarked _ ho₂ (by rw [update_self])
  refine Body.assign hr₂ (Body.look rfl h66 hr₂ fun (inode : ℕ) _ _ _ => ?_)
  have ho₃ :=
    ho₂.trans (.update (g := fun f => { f with finalInode := some inode }) ⟨rfl, rfl, rfl, rfl⟩)
  have hch₃ : (((v₁.update i fun f => { f with changed := true }).update i
      fun f => { f with finalInode := some inode }).file i).changed = true := by
    rw [update_self, update_self]
  have hr₃ := hmarked _ ho₃ hch₃
  have hno₃ : (((v₁.update i fun f => { f with changed := true }).update i
      fun f => { f with finalInode := some inode }).file i).existed =
        false := ho₃.record.1.trans hno
  refine Body.assign hr₃ ?_
  refine (body_orExit h66 fun r _ _ => hr₃.writeNew hch₃ hno₃ rfl r).bind fun _ v₄ w₄
    ⟨hv₄, r₄, _, _, hw₄⟩ => ?_
  subst hv₄ hw₄
  have hr₄ := hr₃.writeNew hch₃ hno₃ (c := .chmod (.target i) 0o644) rfl r₄
  refine (body_orExit h66 fun r _ _ => hr₄.writeNew hch₃ hno₃ rfl r).bind fun _ v₅ w₅
    ⟨hv₅, r₅, _, _, hw₅⟩ => body_pure ?_
  subst hv₅ hw₅
  exact ⟨hr₄.writeNew hch₃ hno₃ rfl r₅, hch₃, (ho₃.trans (.command rfl r₄)).trans (.command rfl r₅)⟩

/-- Either way the file can be recorded as changed afterwards. -/
lemma body_openTarget {name : Str} {i : Which} (h : Recoverable init v w)
    (hready : Ready render init name v w i) (hch : (v.file i).changed = false) :
    Body render init (openTarget i) v w fun _ v' w' =>
      Recoverable init (v'.update i fun f => { f with changed := true }) w' ∧ Onto i v w v' w' := by
  unfold openTarget
  refine Body.vars ?_
  split
  · refine (body_unchangedSince h).mono fun _ v' w' ⟨hv, hw⟩ => ?_
    subst hv hw
    exact ⟨h.mark hready fun _ => (h.file i).kept hch, .refl⟩
  · rename_i he
    have hno : (v.file i).existed = false := by simpa using he
    have hnone : init.file (.target i) = none := by
      rcases hready.1 with ⟨hyes, -⟩ | ⟨-, hnone⟩
      · exact absurd hyes he
      · exact hnone
    refine (body_createTarget h hno hnone).mono fun _ v' w' ⟨hr, hc, ho⟩ => ⟨?_, ho⟩
    have hself : ({ v'.file i with changed := true } : FileVars) = v'.file i := by rw [← hc]
    rw [update_eq_self hself]
    exact hr

lemma body_keepTime {i : Which} (h : Recoverable init v w) (hch : (v.file i).changed = true) :
    Body render init (keepTime i) v w fun _ v' w' => v' = v ∧ Recoverable init v w' ∧
    Onto i v w v w' := by
  have h66 : ExitStatus 66 := .inr (.inr (.inl rfl))
  have htouch : ∀ r : Answer (.touch (.backup i) (.target i)),
      Recoverable init v (w.next ⟨.touch (.backup i) (.target i), r⟩) := by
    intro r
    refine h.write hch rfl r fun _ g hg => ?_
    dsimp only [World.next]
    split
    · exact ⟨_, _, (modify_file _ _).trans (by rw [hg]; rfl)⟩
    · exact ⟨g.bytes, g.mtime, hg⟩
  unfold keepTime
  refine Body.vars ?_
  split
  · refine (body_orExit h66 fun r _ _ => htouch r).bind fun _ v' w' ⟨hv, r, _, _, hw⟩ =>
      body_pure ?_
    subst hw
    exact ⟨hv, htouch r, .command rfl r⟩
  · exact body_pure ⟨rfl, h, .refl⟩

lemma body_readBack {i : Which} (h : Recoverable init v w) :
    Body render init (readBack i) v w fun _ v' w' =>
      v' = v ∧ w' = w ∧ w.bytes (.target i) = some (v.file i).newHash := by
  have h65 : ExitStatus 65 := .inr (.inl rfl)
  unfold readBack
  refine Body.vars (Body.look rfl h65 h fun _ _ _ _ => Body.look rfl h65 h
    fun (inode : ℕ) _ _ _ => ?_)
  refine Body.look rfl h65 h fun (m : Metadata) _ _ _ =>
    Body.look rfl h65 h fun (hash : Str) _ hr ha => ?_
  refine (body_check h65 h).mono fun _ v' w' ⟨hv, hw, hb⟩ => ⟨hv, hw, ?_⟩
  rw [Bool.and_eq_true, beq_iff_eq] at hb
  have hhash : w.bytes (.target i) = some hash := ha hash hr
  rw [hhash, hb.2]

lemma body_writeFile {name : Str} {i : Which} (h : Recoverable init v w)
    (hready : Ready render init name v w i) (hch : (v.file i).changed = false) :
    Body render init (writeFile i) v w fun _ v' w' => Recoverable init v' w' ∧ Onto i v w v' w' ∧
      w'.bytes (.target i) = some (newContent render init name i) := by
  have h66 : ExitStatus 66 := .inr (.inr (.inl rfl))
  unfold writeFile
  refine (body_checkStaged h).bind fun _ v' w' ⟨hv, hw⟩ => ?_
  subst hv hw
  refine (body_openTarget h hready hch).bind fun _ v₁ w₁ ⟨h₁, ho₁⟩ => Body.assign h₁ ?_
  have hch₁ : ((v₁.update i fun f => { f with changed := true }).file i).changed = true := by
    rw [update_self]
  have hcopy : ∀ r : Answer (.copy (.staged i) (.target i)), Recoverable init
      (v₁.update i fun f => { f with changed := true })
        (w₁.next ⟨.copy (.staged i) (.target i), r⟩) := by
    intro r
    exact h₁.write hch₁ rfl r fun _ g hg => ⟨_, _, (modify_file _ _).trans (by rw [hg]; rfl)⟩
  refine (body_orExit h66 fun r _ _ => hcopy r).bind fun _ v₂ w₂ ⟨hv₂, r, _, _, hw₂⟩ => ?_
  subst hv₂ hw₂
  refine (body_keepTime (hcopy r) hch₁).bind fun _ v₃ w₃ ⟨hv₃, h₃, ho₃⟩ => ?_
  subst hv₃
  refine (body_readBack h₃).mono fun _ v₄ w₄ ⟨hv₄, hw₄, hbytes⟩ => ?_
  subst hv₄ hw₄
  have ho :=
    ((ho₁.trans (.update (g := fun f => { f with changed := true }) ⟨rfl, rfl, rfl, rfl⟩)).trans
    (.command (c := .copy (.staged i) (.target i)) rfl r)).trans ho₃
  refine ⟨h₃, ho, ?_⟩
  rw [hbytes, ho.record.2.2.2, hready.2]

/-- **The second loop** leaves the new content in both files. -/
lemma body_writing {name : Str} (h : Prepared init v w)
    (hready : ∀ i, Ready render init name v w i) :
    Body render init (Script.forEach [.hostname, .hosts] writeFile) v w fun _ v' w' =>
      Recoverable init v' w' ∧
      ∀ i, w'.bytes (.target i) = some (newContent render init name i) := by
  refine (body_writeFile h.recoverable (hready _) (h.unchanged _)).bind fun _ v₁ w₁
    ⟨h₁, ho₁, hb₁⟩ => ?_
  have hv := ho₁.others .hosts (by simp)
  have hr₁ : Ready render init name v₁ w₁ .hosts :=
    (hready .hosts).congr (by rw [hv]) (by rw [hv]) (by rw [hv]) (by rw [hv])
      (ho₁.world _ (by simp))
  have hc₁ : (v₁.file .hosts).changed = false := by rw [hv]; exact h.unchanged _
  refine (body_writeFile h₁ hr₁ hc₁).bind fun _ v₂ w₂ ⟨h₂, ho₂, hb₂⟩ => body_pure ⟨h₂, fun i => ?_⟩
  cases i with
  | hostname =>
    rw [← hb₁]
    unfold World.bytes
    rw [ho₂.world (.target .hostname) (by simp)]
  | hosts => exact hb₂

/-- **The subshell**: it ends with the new content in both files, and whenever it exits, the trap
can take its changes back. -/
theorem body_transaction {name : Str} (hs : init.stage = none) :
    Body render init (transaction name) initialVars init fun _ v' w' => Recoverable init v' w' ∧
      ∀ i, w'.bytes (.target i) = some (newContent render init name i) := by
  have h61 : ExitStatus 61 := .inl rfl
  have h65 : ExitStatus 65 := .inr (.inl rfl)
  have h66 : ExitStatus 66 := .inr (.inr (.inl rfl))
  unfold transaction
  refine (body_preflight hs).bind fun _ v w hpass => ?_
  obtain ⟨hv, rfl, hver⟩ := hpass
  have hfile : ∀ i, (v.file i).changed = false := by rw [hv]; exact fun _ => rfl
  have hown : v.ownedPaths = [] := by rw [hv]; rfl
  have hrec : Recoverable w v w := recoverable_untouched hfile rfl hs hown
  refine Body.vars ?_
  split
  · refine Body.look rfl h65 hrec fun (old : Str) _ hr ha => ?_
    have hold : old = oldHostname (w.bytes (.target .hostname)) := ha old hr
    -- a signal that follows `mktemp` finds the stage in its variable
    have hmk : ∀ (r : Answer .mktemp) (v' : Vars), (v'.stage = false → r.result.isSome = false) →
        v'.file = v.file →
        v'.ownedPaths = v.ownedPaths → Recoverable w v' (w.next ⟨.mktemp, r⟩) := by
      intro r v' hst hf ho
      refine ⟨fun i => ⟨fun _ => ?_, fun hc => ?_, fun hc => ?_⟩, fun h => ?_,
        fun i => by simp [ho, hown]⟩
      · dsimp only [World.next]
        split <;> rfl
      · simp [hf, hfile] at hc
      · simp [hf, hfile] at hc
      · dsimp only [World.next]
        rw [if_neg (by simp [hst h])]
        exact hs
    refine (body_captureOrExit h66 fun r _ _ => ?_).bind fun _ v₁ w₁ ⟨hv₁, r, hr, _, hw₁⟩ => ?_
    · cases hres : r.result with
      | none => exact hmk r v (fun _ => by simp [hres]) rfl rfl
      | some a => exact hmk r _ (fun h => by cases h) rfl rfl
    subst hv₁
    have h₁ : Prepared w { v with stage := true } w₁ := by
      refine ⟨hfile, fun i => ?_, rfl, fun i => by simp [hown]⟩
      rw [hw₁]
      dsimp only [World.next]
      split <;> rfl
    have hinode : ∀ n : Option ℕ, Prepared w { v with stage := true, stageInode := n } w₁ :=
      fun n => ⟨h₁.unchanged, h₁.targets, rfl, h₁.owned⟩
    refine (body_captureOrExit h66 fun r _ _ => ?_).bind fun (n : ℕ) v₂ w₂ ⟨hv₂, _, _, _, hw₂⟩ => ?_
    · rw [next_quiet rfl]
      cases r.result with
      | none => exact h₁.recoverable
      | some n => exact (hinode (some n)).recoverable
    rw [next_quiet rfl] at hw₂
    subst hv₂ hw₂
    have h₂ := hinode (some n)
    refine Body.look rfl h61 h₂.recoverable fun _ _ _ _ => Body.look rfl h61 h₂.recoverable
      fun _ _ _ _ => ?_
    refine (body_staging hold h₂).bind fun _ v₃ w₃ ⟨h₃, hready⟩ => ?_
    exact body_writing h₃ hready
  · rename_i hver'
    exact body_pure ⟨hrec, hver (by simpa using hver')⟩

end Body

/-! ### The EXIT trap -/

section Trap

variable {render : Option Str → Str → Str → Str} {init : World} {α β : Type} {v : Vars} {w : World}

variable (render init) in
/-- The triple of the trap, which leaves the variables alone: a signal ends it only while everything
is as it was. -/
def Trap (p : Transaction α) (v : Vars) (w : World) (Q : α → World → Prop) : Prop :=
  Script.Holds (contract render init) p v ⟨w, true⟩ (fun a v' s => v' = v ∧
    s.trap = true ∧ Q a s.world)
    fun n _ s => ExitStatus n ∧ AsBefore init s.world

lemma Trap.bind {p : Transaction α} {f : α → Transaction β} {Q : α → World → Prop}
    {R : β → World → Prop} (h : Trap render init p v w Q)
    (hf : ∀ a w', Q a w' → Trap render init (f a) v w' R) :
    Trap render init (p >>= f) v w R := by
  refine Script.Holds.bind h fun a v' s ⟨hv, ht, hQ⟩ => ?_
  obtain ⟨w', _⟩ := s
  obtain rfl : _ = true := ht
  subst hv
  exact hf a w' hQ

lemma Trap.mono {p : Transaction α} {Q Q' : α → World → Prop} (h : Trap render init p v w Q)
    (hQ : ∀ a w', Q a w' → Q' a w') : Trap render init p v w Q' :=
  Script.Holds.mono h (fun a _ s ⟨hv, ht, hq⟩ => ⟨hv, ht, hQ a s.world hq⟩) fun _ _ _ h => h

lemma trap_pure {a : α} {Q : α → World → Prop} (h : Q a w) : Trap render init (pure a) v w Q :=
  Script.holds_pure ⟨rfl, rfl, h⟩

lemma Trap.vars {f : Vars → Transaction β} {R : β → World → Prop}
    (h : Trap render init (f v) v w R) :
    Trap render init (Script.vars >>= f) v w R :=
  Script.Holds.seq (Script.holds_vars h)

/-- A command, before or in the trap. -/
lemma holds_run (c : Call) (trap : Bool) : Script.Holds (contract render init) (run c) v ⟨w, trap⟩
    (fun o v' s => v' = v ∧ ∃ r : Answer c, r.result = o ∧ w.Answers render ⟨c, r⟩ ∧
      s = Moment.next ⟨w, trap⟩ ⟨c, r⟩)
    fun n _ s => ExitStatus n ∧ (∃ r : Answer c, s = Moment.next ⟨w, trap⟩ ⟨c, r⟩) ∧
      (s.trap = true → AsBefore init s.world) := by
  refine Script.Holds.seq (Script.holds_ask fun r hr => ⟨trivial, ?_⟩)
  refine Script.Holds.seq (Script.holds_set ?_)
  have hv : (match r.result with | some _ => v | none => v) = v := by cases r.result <;> rfl
  cases hs : r.signal with
  | none => exact Script.holds_pure ⟨hv, r, rfl, hr.1, rfl⟩
  | some s => exact Script.holds_exit ⟨exitStatus_signal s, ⟨r, rfl⟩, (hr.2 (by simp [hs])).2⟩

lemma trap_run (c : Call) : Trap render init (run c) v w fun o w' =>
    ∃ r : Answer c, r.result = o ∧ w.Answers render ⟨c, r⟩ ∧ w' = w.next ⟨c, r⟩ := by
  refine Script.Holds.mono (holds_run c true) (fun o v' s ⟨hv, r, hr, ha, hs⟩ => ?_)
    fun n v' s ⟨hn, ⟨r, hs⟩, hb⟩ => ?_
  · rw [hs]
    exact ⟨hv, rfl, r, hr, ha, rfl⟩
  · exact ⟨hn, hb (by rw [hs]; rfl)⟩

lemma trap_ok (c : Call) : Trap render init (ok c) v w fun b w' =>
    ∃ r : Answer c, r.result.isSome = b ∧ w.Answers render ⟨c, r⟩ ∧ w' = w.next ⟨c, r⟩ :=
  (trap_run c).bind fun _ _ ⟨r, hr, ha, hw⟩ => trap_pure ⟨r, by rw [hr], ha, hw⟩

lemma trap_ok_quiet {c : Call} (hc : c.quiet = true) :
    Trap render init (ok c) v w fun _ w' => w' = w :=
  (trap_ok c).mono fun _ _ ⟨r, _, _, hw⟩ => hw.trans (next_quiet hc r)

/-- `p && q`, for a postcondition that holds when `p` fails. -/
lemma trap_both {p q : Transaction Bool} {P Q : Bool → World → Prop} (hp : Trap render init p v w P)
    (hq : ∀ w', P true w' → Trap render init q v w' Q) (hno : ∀ w', P false w' → Q false w') :
    Trap render init (both p q) v w Q := by
  unfold both
  refine hp.bind fun b w' hP => ?_
  cases b with
  | true => exact hq w' hP
  | false => exact trap_pure (hno w' hP)

/-- A check before `q`. -/
lemma trap_check {p q : Transaction Bool} {P : Bool → Prop} {Q : Bool → World → Prop}
    (hp : Trap render init p v w fun b w' => w' = w ∧ P b) (hq : P true → Trap render init q v w Q)
    (hno : Q false w) :
    Trap render init (both p q) v w Q := by
  refine trap_both hp (fun w' ⟨hw, hP⟩ => ?_) fun w' ⟨hw, _⟩ => ?_
  · rw [hw]
    exact hq hP
  · rw [hw]
    exact hno

lemma trap_present (p : Path) :
    Trap render init (isPresent p) v w fun b w' => w' = w ∧ b = (w.file p).isSome := by
  refine (trap_run (.present p)).bind fun o w' ⟨r, hr, ha, hw⟩ => trap_pure ⟨hw, ?_⟩
  have ha : r.result = some (w.file p).isSome := ha
  rw [hr] at ha
  simp [ha]

lemma trap_inodeIs (p : Path) (n : Option ℕ) :
    Trap render init (inodeIs p n) v w fun _ w' => w' = w ∧ True := by
  unfold inodeIs
  cases n with
  | none => exact trap_pure ⟨rfl, trivial⟩
  | some n => exact (trap_run (.inode p)).bind fun _ w' ⟨_, _, _, hw⟩ => trap_pure ⟨hw, trivial⟩

lemma trap_stageInodeIs (n : Option ℕ) :
    Trap render init (stageInodeIs n) v w fun _ w' => w' = w ∧ True := by
  unfold stageInodeIs
  cases n with
  | none => exact trap_pure ⟨rfl, trivial⟩
  | some n => exact (trap_run .stageInode).bind fun _ w' ⟨_, _, _, hw⟩ => trap_pure ⟨hw, trivial⟩

lemma trap_statIs (p : Path) (m : Option Metadata) :
    Trap render init (statIs p m) v w fun _ w' => w' = w ∧ True :=
  (trap_run (.stat p)).bind fun _ _ ⟨_, _, _, hw⟩ => trap_pure ⟨hw, trivial⟩

lemma trap_hashIs (p : Path) (h : Str) :
    Trap render init (hashIs p h) v w fun b w' => w' = w ∧ (b = true → w.bytes p = some h) := by
  refine (trap_run (.hash p)).bind fun (o : Option Str) w' ⟨r, hr, ha, hw⟩ =>
    trap_pure ⟨hw, fun hb => ?_⟩
  have ho : o = some h := by simpa using hb
  exact ha h (hr.trans ho)

lemma trap_ownedFileValid (p : Path) :
    Trap render init (ownedFileValid p) v w fun _ w' => w' = w ∧ True := by
  have hquiet : ∀ {c : Call}, c.quiet = true → Trap render init (ok c) v w fun _ w' =>
      w' = w ∧ True :=
    fun hc => (trap_ok_quiet hc).mono fun _ _ hw => ⟨hw, trivial⟩
  unfold ownedFileValid
  refine Trap.vars (trap_check (hquiet rfl) (fun _ => ?_) ⟨rfl, trivial⟩)
  refine trap_check (trap_stageInodeIs _)
    (fun _ => trap_check (hquiet rfl) (fun _ => ?_) ⟨rfl, trivial⟩) ⟨rfl, trivial⟩
  split
  · exact trap_inodeIs _ _
  · exact trap_pure ⟨rfl, trivial⟩

/-! ### Rollback -/

/-- After the rollback of a file: it is as before, or the answer is no. -/
def Undone (init : World) (w : World) (i : Which) (b : Bool) (w' : World) : Prop :=
  (b = true → w'.file (.target i) = init.file (.target i)) ∧
    (∀ q, q ≠ .target i → w'.file q = w.file q) ∧
    w'.stage = w.stage

lemma undone_no (i : Which) : Undone init w i false w :=
  ⟨fun h => Bool.noConfusion h, fun _ _ => rfl, rfl⟩

lemma trap_restoreTarget {i : Which} (h : RecoverableFile init v w i)
    (hch : (v.file i).changed = true) (he : (v.file i).existed = true) :
    Trap render init (restoreTarget v i) v w (Undone init w i) := by
  obtain ⟨f, g, b, hf, hg, heq, -, ho, hb, ht⟩ := h.overwritten hch he
  have hquiet : ∀ {c : Call}, c.quiet = true → Trap render init (ok c) v w fun _ w' =>
      w' = w ∧ True :=
    fun hc => (trap_ok_quiet hc).mono fun _ _ hw => ⟨hw, trivial⟩
  unfold restoreTarget
  refine trap_check (hquiet rfl) (fun _ => ?_) (undone_no i)
  refine trap_check (trap_statIs _ _)
    (fun _ => trap_check (trap_ownedFileValid _) (fun _ => ?_) (undone_no i)) (undone_no i)
  refine trap_check (trap_hashIs _ _) (fun _ => ?_) (undone_no i)
  refine trap_both (trap_ok _) (fun w₁ ⟨r₁, _, _, hw₁⟩ => ?_) fun w₁ ⟨r₁, _, _, hw₁⟩ => ?_
  swap
  · rw [hw₁]
    have hframe := next_frame (w := w) (c := .copy (.backup i) (.target i)) rfl r₁
    exact ⟨fun h => Bool.noConfusion h, hframe.1, hframe.2⟩
  have hframe₁ := next_frame (w := w) (c := .copy (.backup i) (.target i)) rfl r₁
  rw [← hw₁] at hframe₁
  have hg₁ : w₁.file (.target i) = some { g with bytes := r₁.bytes, mtime := r₁.mtime } := by
    rw [hw₁]
    exact (modify_file _ _).trans (by rw [hg]; rfl)
  have hb₁ : w₁.file (.backup i) = some b := (hframe₁.1 _ (by simp)).trans hb
  refine trap_both (trap_ok _) (fun w₂ ⟨r₂, hr₂, _, hw₂⟩ => ?_) fun w₂ ⟨r₂, _, _, hw₂⟩ => ?_
  swap
  · have hframe₂ := next_frame (w := w₁) (c := .touch (.backup i) (.target i)) rfl r₂
    rw [hw₂]
    exact ⟨fun h => Bool.noConfusion h, fun q hq => (hframe₂.1 q hq).trans (hframe₁.1 q hq),
      hframe₂.2.trans hframe₁.2⟩
  have hframe₂ := next_frame (w := w₁) (c := .touch (.backup i) (.target i)) rfl r₂
  rw [← hw₂] at hframe₂
  have hg₂ : w₂.file (.target i) = some { g with bytes := r₁.bytes, mtime := f.mtime } := by
    rw [hw₂]
    show (if r₂.result.isSome then _ else w₁).file (.target i) = _
    rw [if_pos hr₂]
    refine (modify_file _ _).trans ?_
    rw [hg₁, hb₁, ← ht]
    rfl
  have hall : ∀ b',
      Undone init w i b' w₂ ↔ (b' = true → w₂.file (.target i) = init.file (.target i)) :=
    fun b' =>
      ⟨fun h => h.1, fun h => ⟨h, fun q hq => (hframe₂.1 q hq).trans (hframe₁.1 q hq),
        hframe₂.2.trans hframe₁.2⟩⟩
  refine trap_check (trap_hashIs _ _) (fun hhash => ?_) ((hall false).mpr fun h => by cases h)
  -- the digest of what was written back is the one of the file as it was
  have hbytes : r₁.bytes = f.bytes := by
    have hh := hhash rfl
    unfold World.bytes at hh
    rw [hg₂, ho] at hh
    exact Option.some.inj hh
  have hfinal : w₂.file (.target i) = init.file (.target i) := by
    rw [hg₂, hf, heq, hbytes]
  exact (trap_statIs _ _).mono fun b' w' ⟨hw, _⟩ => by
    rw [hw]
    exact (hall b').mpr fun _ => hfinal

lemma trap_removeTarget {i : Which} (h : RecoverableFile init v w i)
    (hch : (v.file i).changed = true) (he : (v.file i).existed = false) :
    Trap render init (removeTarget i) v w (Undone init w i) := by
  have hquiet : ∀ {c : Call}, c.quiet = true → Trap render init (ok c) v w fun _ w' =>
      w' = w ∧ True :=
    fun hc => (trap_ok_quiet hc).mono fun _ _ hw => ⟨hw, trivial⟩
  unfold removeTarget
  refine trap_check (hquiet rfl) (fun _ => ?_) (undone_no i)
  refine (trap_ok (.remove (.target i))).mono fun b w' ⟨r, hb, _, hw⟩ => ?_
  have hframe := next_frame (w := w) (c := .remove (.target i)) rfl r
  rw [hw]
  refine ⟨fun hbt => ?_, hframe.1, hframe.2⟩
  show (if r.result.isSome then w.put (.target i) none else w).file (.target i) = _
  rw [if_pos (hb.trans hbt), h.created hch he, put_file, if_pos rfl]

lemma trap_rollbackFile {i : Which} (h : RecoverableFile init v w i) :
    Trap render init (rollbackFile i) v w (Undone init w i) := by
  have hquiet : ∀ {c : Call}, c.quiet = true → Trap render init (ok c) v w fun _ w' =>
      w' = w ∧ True :=
    fun hc => (trap_ok_quiet hc).mono fun _ _ hw => ⟨hw, trivial⟩
  unfold rollbackFile
  refine Trap.vars ?_
  split
  · rename_i hch
    refine trap_check (hquiet rfl) (fun _ => ?_) (undone_no i)
    refine trap_check (trap_present _)
      (fun _ => trap_check (trap_inodeIs _ _) (fun _ => ?_) (undone_no i)) (undone_no i)
    split
    · rename_i he
      exact trap_restoreTarget h hch he
    · rename_i he
      exact trap_removeTarget h hch (by simpa using he)
  · rename_i hch
    exact trap_pure ⟨fun _ => h.kept (by simpa using hch), fun _ _ => rfl, rfl⟩

/-- **The rollback**: when it answers yes, both files are as before. -/
lemma trap_rollback (h : ∀ i, RecoverableFile init v w i) :
    Trap render init (forAll [.hosts, .hostname] rollbackFile) v w fun b w' =>
      (b = true → ∀ i, w'.file (.target i) = init.file (.target i)) ∧ w'.stage = w.stage := by
  refine (trap_rollbackFile (h .hosts)).bind fun b₁ w₁ ⟨hb₁, hw₁, hs₁⟩ => ?_
  have h₁ : RecoverableFile init v w₁ .hostname := by
    have ht := hw₁ (.target .hostname) (by simp)
    have hb := hw₁ (.backup .hostname) (by simp)
    exact ⟨by rw [ht]; exact (h _).kept, by rw [ht, hb]; exact (h _).overwritten, (h _).created⟩
  refine ((trap_rollbackFile h₁).bind fun b₂ w₂ ⟨hb₂, hw₂, hs₂⟩ => ?_).bind fun b w' hb =>
    trap_pure hb
  refine trap_pure ⟨fun hb i => ?_, hs₂.trans hs₁⟩
  simp only [Bool.and_true, Bool.and_eq_true] at hb
  cases i with
  | hostname => exact hb₂ hb.2
  | hosts => rw [hw₂ _ (by simp), hb₁ hb.1]

/-! ### Removal of the stage -/

lemma trap_removeOwned {p : Path} (hp : ∀ i, .target i ≠ p) :
    Trap render init (removeOwned p) v w fun _ w' =>
      (∀ i, w'.file (.target i) = w.file (.target i)) ∧ w'.stage = w.stage := by
  unfold removeOwned
  refine (trap_present p).bind fun b w' ⟨hw, _⟩ => ?_
  rw [hw]
  split
  · refine trap_check (trap_ownedFileValid p) (fun _ => ?_) ⟨fun _ => rfl, rfl⟩
    refine (trap_ok (.remove p)).mono fun b w' ⟨r, _, _, hw⟩ => ?_
    have hframe := next_frame (w := w) (c := .remove p) rfl r
    rw [hw]
    exact ⟨fun i => hframe.1 _ (hp i), hframe.2⟩
  · exact trap_pure ⟨fun _ => rfl, rfl⟩

lemma trap_forAll_removeOwned {ps : List Path} (hps : ∀ i, .target i ∉ ps) :
    Trap render init (forAll ps removeOwned) v w fun _ w' =>
      (∀ i, w'.file (.target i) = w.file (.target i)) ∧ w'.stage = w.stage := by
  induction ps generalizing w with
  | nil => exact trap_pure ⟨fun _ => rfl, rfl⟩
  | cons p ps ih =>
    refine (trap_removeOwned fun i hi => hps i (by simp [hi])).bind fun _ w₁ ⟨hw₁, hs₁⟩ => ?_
    refine (ih fun i hi => hps i (List.mem_cons_of_mem _ hi)).bind fun _ w₂ ⟨hw₂, hs₂⟩ =>
      trap_pure ?_
    exact ⟨fun i => (hw₂ i).trans (hw₁ i), hs₂.trans hs₁⟩

/-- The stage is gone when the answer is 0, and the two files are left alone. -/
lemma trap_removeStaging (hown : ∀ i, .target i ∉ v.ownedPaths)
    (hstage : v.stage = false → w.stage = none) :
    Trap render init removeStaging v w fun n w' =>
      (∀ i, w'.file (.target i) = w.file (.target i)) ∧ (n = 0 ∨ n = 68) ∧
      (n = 0 → w'.stage = none) := by
  unfold removeStaging
  refine Trap.vars ((trap_forAll_removeOwned (fun i hi => hown i (by simpa using hi))).bind
    fun a w₁ ⟨hw₁, hs₁⟩ => ?_)
  have hremove : Trap render init removeStage v w₁ fun b w' =>
      (∀ i, w'.file (.target i) = w₁.file (.target i)) ∧ (b = true → w'.stage = none) := by
    unfold removeStage
    refine Trap.vars ?_
    split
    · refine trap_check (trap_stageInodeIs _) (fun _ => ?_) ⟨fun _ => rfl, fun h => by cases h⟩
      refine (trap_ok .rmdir).mono fun b w' ⟨r, hb, _, hw⟩ => ?_
      rw [hw]
      dsimp only [World.next]
      split
      · exact ⟨fun _ => rfl, fun _ => rfl⟩
      · rename_i hno
        exact ⟨fun _ => rfl, fun hbt => absurd (hb.trans hbt) hno⟩
    · rename_i hno
      exact trap_pure ⟨fun _ => rfl, fun _ => hs₁.trans (hstage (by simpa using hno))⟩
  refine hremove.bind fun b w₂ ⟨hw₂, hs₂⟩ =>
    trap_pure ⟨fun i => (hw₂ i).trans (hw₁ i), ?_, fun h0 => ?_⟩
  · split
    · exact .inl rfl
    · exact .inr rfl
  · split at h0
    · rename_i hab
      simp only [Bool.and_eq_true] at hab
      exact hs₂ hab.2
    · cases h0

/-- What a status says about the files. -/
def Outcome (render : Option Str → Str → Str → Str) (init : World) (name : Str) (status : ℕ)
    (w : World) : Prop :=
  (status = 0 → ∀ i, w.bytes (.target i) = some (newContent render init name i)) ∧
    (status ≠ 0 → status ≠ 67 → status ≠ 68 → AsBefore init w)

lemma outcome_exit {name : Str} {n : ℕ} (hn : ExitStatus n) (h : AsBefore init w) :
    Outcome render init name n w := by
  refine ⟨fun h0 => ?_, fun _ _ _ => h⟩
  unfold ExitStatus at hn
  omega

lemma trap_transactionCleanup {name : Str} {status : ℕ} (h : Recoverable init v w)
    (hnew : status = 0 → ∀ i, w.bytes (.target i) = some (newContent render init name i)) :
    Trap render init (transactionCleanup status) v w fun n w' =>
      Outcome render init name (if n = 0 then status else n) w' := by
  have hrestored : Trap render init (rollback status) v w fun b w' =>
      (b = true → (∀ i, w'.file (.target i) = (if status = 0 then w else init).file (.target i))) ∧
        w'.stage = w.stage := by
    unfold rollback
    split
    · exact trap_pure ⟨fun _ _ => rfl, rfl⟩
    · exact trap_rollback h.file
  unfold transactionCleanup
  refine hrestored.bind fun b w₁ ⟨hw₁, hs₁⟩ => ?_
  split
  · rename_i hb
    refine (trap_removeStaging h.owned fun hv => hs₁.trans (h.stage hv)).mono
      fun n w₂ ⟨hw₂, hn, hs₂⟩ => ?_
    have hfile : ∀ i, w₂.file (.target i) = (if status = 0 then w else init).file (.target i) :=
      fun i => (hw₂ i).trans (hw₁ hb i)
    rcases hn with rfl | rfl
    · rw [if_pos rfl]
      refine ⟨fun h0 i => ?_, fun h0 _ _ => ⟨fun i => ?_, hs₂ rfl⟩⟩
      · rw [← hnew h0 i]
        unfold World.bytes
        rw [hfile i, if_pos h0]
      · rw [hfile i, if_neg h0]
    · exact ⟨fun h0 => absurd h0 (by simp), fun _ _ h68 => absurd rfl h68⟩
  · exact trap_pure ⟨fun h0 => absurd h0 (by simp), fun _ h67 => absurd rfl h67⟩

lemma holds_exitTrap {name : Str} {status : ℕ} (h : Recoverable init v w)
    (hnew : status = 0 → ∀ i, w.bytes (.target i) = some (newContent render init name i))
    (trap : Bool) :
    Script.Holds (contract render init) (exitTrap status) v ⟨w, trap⟩
      (fun n _ s => Outcome render init name n s.world) fun n _ s =>
        Outcome render init name n s.world := by
  have hbegin : Script.Holds (contract render init) (run .trap) v ⟨w, trap⟩
      (fun _ v' s => v' = v ∧ s = ⟨w, true⟩)
      fun n _ s => Outcome render init name n s.world := by
    have hmoment : ∀ r : Answer .trap, Moment.next ⟨w, trap⟩ ⟨.trap, r⟩ = ⟨w, true⟩ := by
      intro r
      simp [Moment.next, World.next]
    refine (holds_run .trap trap).mono (fun _ v' s ⟨hv, r, _, _, hs⟩ => ⟨hv, hs.trans (hmoment r)⟩)
      ?_
    intro n v' s ⟨hn, ⟨r, hs⟩, hb⟩
    exact outcome_exit hn (hb (by rw [hs, hmoment]))
  unfold exitTrap
  refine hbegin.bind fun _ v' s ⟨hv, hs⟩ => ?_
  subst hv hs
  have hrest := (trap_transactionCleanup h hnew).bind fun n w' hout =>
    (trap_run (v := v') (w := w') .assign).bind fun _ w'' ⟨_, _, _, hw''⟩ =>
      trap_pure (a := if n = 0 then status else n) (Q := fun n w => Outcome render init name n w)
        (by rw [hw'']; exact hout)
  exact Script.Holds.mono hrest (fun n _ s ⟨_, _, h⟩ => h) fun n _ s ⟨hn, hb⟩ => outcome_exit hn hb

end Trap

/-! ### The transaction -/

section Runs

variable {render : Option Str → Str → Str → Str} {init : World}

lemma safe_writeAtRoot {name : Str} (hs : init.stage = none) :
    (contract render init).Safe (linuxHostnameWriteAtRoot name) ⟨init, false⟩
      fun n s => Outcome render init name n s.world := by
  unfold linuxHostnameWriteAtRoot
  refine Contract.Safe.seq (body_transaction hs false) fun r s hend => ?_
  obtain ⟨ended, v⟩ := r
  obtain ⟨w, trap⟩ := s
  have htrap : ∀ {status : ℕ}, Recoverable init v w →
      (status = 0 → ∀ i, w.bytes (.target i) = some (newContent render init name i)) →
      (contract render init).Safe (exitTrap status v) ⟨w, trap⟩
        fun r s => ∀ n, r.1 = .ok n ∨ r.1 = .error n → Outcome render init name n s.world := by
    intro status hrec hnew
    refine Contract.Safe.mono (holds_exitTrap hrec hnew trap) fun r s hres => ?_
    obtain ⟨result, v'⟩ := r
    cases result with
    | ok n =>
      rintro m (h | h)
      · cases h
        exact hres
      · cases h
    | error n =>
      rintro m (h | h)
      · cases h
      · cases h
        exact hres
  have hstatus : ∀ status, ExitStatus status → status ≠ 0 := by
    intro status hn
    unfold ExitStatus at hn
    omega
  cases ended with
  | ok _ =>
    refine Contract.Safe.seq (htrap hend.1 fun _ => hend.2) fun r s hres => ?_
    obtain ⟨_ | _, v'⟩ := r
    · exact hres _ (.inr rfl)
    · exact hres _ (.inl rfl)
  | error n =>
    refine Contract.Safe.seq (htrap hend.2 fun h0 => absurd h0 (hstatus n hend.1)) fun r s hres =>
      ?_
    obtain ⟨_ | _, v'⟩ := r
    · exact hres _ (.inr rfl)
    · exact hres _ (.inl rfl)

/-- **The hostname transaction is atomic.**  From any state of the two files, with any commands
failing, and with any signal but one right behind the creation of a missing file or one in the EXIT
trap after something has been written: status 0 means the new content in both files, and every other
status but 67 and 68 means both files as they were and no stage. -/
theorem writeAtRoot_atomic {name : Str} {τ : List (Sigma Answer)} {status : ℕ}
    (hs : init.stage = none) (hr : Prog.Runs (linuxHostnameWriteAtRoot name) τ (some status))
    (hrely : (contract render init).Along (contract render init).rely ⟨init, false⟩ τ) :
    (status = 0 → ∀ i, ((contract render init).after ⟨init, false⟩ τ).world.bytes (.target i) =
        some (newContent render init name i)) ∧
      (status ≠ 0 → status ≠ 67 → status ≠ 68 →
        AsBefore init ((contract render init).after ⟨init, false⟩ τ).world) :=
  ((safe_writeAtRoot hs).along hr hrely).2 status rfl

end Runs

/-! ### Signals in the wrong moment -/

/-- What the commands answer when none of them fails. -/
def World.result (render : Option Str → Str → Str → Str) (w : World) : (c : Call) → Option c.Value
  | .assign => some ()
  | .trap => some ()
  | .check _ => some ()
  | .present p => some (w.file p).isSome
  | .fileSafe p => require ((w.file p).any fun f => f.regular && f.metadata == ⟨0, 0, 0o644, 1⟩)
  | .metadataSafe p exact =>
    require ((w.file p).any fun f => f.regular && f.metadata == ⟨0, 0, exact.getD 0o644, 1⟩ &&
      (exact.getD 0o644 == 0o644 || exact.getD 0o644 == 0o600))
  | .stageSafe => require w.stage.isSome
  | .safeWriteDirectory => some ()
  | .inode p => (w.file p).map (·.inode)
  | .stageInode => w.stage
  | .sameDevice => some ()
  | .stat p => (w.file p).map (·.metadata)
  | .hash p => w.bytes p
  | .hashName name => some (name ++ ['\n'])
  | .oldHostname => some (oldHostname (w.bytes (.target .hostname)))
  | .hashRendered old name => some (render (w.bytes (.target .hosts)) old name)
  | .mktemp => some ()
  | .create p => require (w.file p).isNone
  | .chmod _ _ => some ()
  | .chown _ => some ()
  | .copy p _ => require (w.file p).isSome
  | .touch p _ => require (w.file p).isSome
  | .printName _ _ => some ()
  | .render _ _ _ => some ()
  | .remove _ => some ()
  | .rmdir =>
    require ([Which.hostname, .hosts].all fun i => (w.file (.backup i)).isNone &&
      (w.file (.staged i)).isNone)

/-- What is written when nothing fails. -/
def World.content (render : Option Str → Str → Str → Str) (w : World) : Call → Str
  | .copy p _ => (w.bytes p).getD []
  | .printName _ name => name ++ ['\n']
  | .render _ old name => render (w.bytes (.target .hosts)) old name
  | _ => []

/-- A machine on which nothing fails and `TERM` arrives behind one command. -/
def machine (render : Option Str → Str → Str → Str) (init : World) (at' : Call)
    (seen : List (Sigma Answer)) (c : Call) :
    Answer c :=
  let w := (seen.foldr (fun e s => Moment.next s e) ⟨init, false⟩).world
  ⟨w.result render c, w.content render c, 7, 70, if c = at' then some .term else none⟩

lemma machine_answers (render : Option Str → Str → Str → Str) (init : World) (at' : Call)
    (seen : List (Sigma Answer)) (c : Call) :
    (seen.foldr (fun e s => Moment.next s e) ⟨init, false⟩).world.Answers render
      ⟨c, machine render init at' seen c⟩ := by
  generalize hw : (seen.foldr (fun e s => Moment.next s e) ⟨init, false⟩).world = w
  have hr : (machine render init at' seen c).result = w.result render c := by rw [← hw]; rfl
  have hb : (machine render init at' seen c).bytes = w.content render c := by rw [← hw]; rfl
  generalize machine render init at' seen c = r at hr hb
  cases c with
  | assign | trap | present =>
    simp only [World.Answers, hr]
    rfl
  | check | safeWriteDirectory | sameDevice | mktemp | chmod | chown | remove => trivial
  | fileSafe p =>
    intro h
    rw [hr] at h
    have h := (require_isSome _).symm.trans h
    cases hf : w.file p with
    | none => simp [hf] at h
    | some f =>
      refine ⟨f, rfl, ?_⟩
      have hsafe : f.regular = true ∧ f.metadata = ⟨0, 0, 0o644, 1⟩ := by simpa [hf] using h
      unfold File.fileSafe File.metadataSafe
      rw [hsafe.1, hsafe.2]
      decide
  | metadataSafe p exact =>
    intro h
    rw [hr] at h
    have h := (require_isSome _).symm.trans h
    cases hf : w.file p with
    | none => simp [hf] at h
    | some f =>
      refine ⟨f, rfl, ?_⟩
      have hsafe : (f.regular = true ∧ f.metadata = ⟨0, 0, exact.getD 0o644, 1⟩) ∧
          (exact.getD 0o644 = 0o644 ∨ exact.getD 0o644 = 0o600) := by simpa [hf] using h
      obtain ⟨⟨h1, h2⟩, h3⟩ := hsafe
      unfold File.metadataSafe
      rw [h1, h2]
      have hmode : ∀ mode ∈ exact, exact.getD 0o644 = mode := by
        intro mode hm
        rw [Option.mem_def.mp hm]
        rfl
      rcases h3 with h3 | h3
      all_goals
        rw [h3] at hmode ⊢
        exact ⟨rfl, rfl, rfl, by decide, by decide, by decide, hmode, rfl⟩
  | stageSafe | touch =>
    intro h
    rw [hr] at h
    exact (require_isSome _).symm.trans h
  | inode | stageInode | stat | hash => exact fun n hn => hr.symm.trans hn
  | hashName | oldHostname | hashRendered => exact fun n hn =>
    (Option.some.inj (hr.symm.trans hn)).symm
  | create p =>
    intro h
    rw [hr] at h
    exact Option.isNone_iff_eq_none.mp ((require_isSome _).symm.trans h)
  | copy p q =>
    intro h
    rw [hr] at h
    rw [hb]
    obtain ⟨f, hf⟩ := Option.isSome_iff_exists.mp ((require_isSome _).symm.trans h)
    simp [World.content, World.bytes, hf]
  | printName | render => exact fun _ => hb
  | rmdir =>
    intro h i
    rw [hr] at h
    have hall := List.all_eq_true.mp ((require_isSome _).symm.trans h) i (by cases i <;> simp)
    simpa using hall

/-- A system without `/etc/hostname` and `/etc/hosts`. -/
def bareSystem : World := ⟨fun _ => none, none⟩

/-- What `rootpxe_lh_render_hosts` prints when there is no `/etc/hosts`. -/
def renderDefault (_ : Option Str) (_ name : Str) : Str :=
  "127.0.0.1 localhost\n127.0.1.1 ".toList ++ name ++ ['\n']

/-- A run on the bare system with `TERM` behind one command. -/
def bareRun (at' : Call) : List (Sigma Answer) × Option ℕ :=
  (linuxHostnameWriteAtRoot "pc1".toList).exec (machine renderDefault bareSystem at') []

/-- `/etc` after it. -/
def bareAfter (at' : Call) : World :=
  ((contract renderDefault bareSystem).after ⟨bareSystem, false⟩ (bareRun at').1).world

lemma bareRun_answers (at' : Call) : (contract renderDefault bareSystem).Along
    (fun s e => s.world.Answers renderDefault e) ⟨bareSystem, false⟩ (bareRun at').1 :=
  Contract.along_exec _ (fun seen c => machine_answers renderDefault bareSystem at' seen c) _ []

/-- The run whose only signal is behind `at'` and where no command fails ends with 143 and leaves
something behind. -/
def LeavesBehind (at' : Call) : Prop :=
  Prog.Runs (linuxHostnameWriteAtRoot "pc1".toList) (bareRun at').1 (some 143) ∧
    (contract renderDefault bareSystem).Along (fun s e => s.world.Answers renderDefault e)
      ⟨bareSystem, false⟩
      (bareRun at').1 ∧
    ((bareRun at').1.filter fun e => e.2.signal.isSome).length = 1 ∧
      ((bareRun at').1.all fun e => e.2.result.isSome) ∧
    ¬ AsBefore bareSystem (bareAfter at')

lemma leavesBehind_of_run {at' : Call} (h143 : (bareRun at').2 = some 143)
    (hone : ((bareRun at').1.filter fun e => e.2.signal.isSome).length = 1)
    (hall : ((bareRun at').1.all fun e => e.2.result.isSome))
    (hfile : ((bareAfter at').file (.target .hostname)).isSome) : LeavesBehind at' := by
  refine ⟨?_, bareRun_answers at', hone, hall, fun hbefore => ?_⟩
  · rw [← h143]
    exact Prog.runs_exec _ _ _
  · rw [hbefore.1] at hfile
    cases hfile

/-- A signal behind the creation of `/etc/hostname` leaves it there, empty; one while the stage is
removed leaves both new files. -/
theorem writeAtRoot_interrupted :
    LeavesBehind (.create (.target .hostname)) ∧ LeavesBehind (.remove (.staged .hosts)) := by
  constructor
  · apply leavesBehind_of_run <;> decide +kernel
  · apply leavesBehind_of_run <;> decide +kernel

/-- A signal behind the copy of the new `/etc/hosts` takes everything back. -/
theorem writeAtRoot_atomic_interrupted :
    (bareRun (.copy (.staged .hosts) (.target .hosts))).2 = some 143 ∧
      AsBefore bareSystem (bareAfter (.copy (.staged .hosts) (.target .hosts))) := by
  have hrun : (bareRun (.copy (.staged .hosts) (.target .hosts))).2 = some 143 := by decide +kernel
  have hspared : (contract renderDefault bareSystem).Along
      (fun s e => e.2.signal.isSome = true → e.1 = .copy (.staged .hosts) (.target .hosts) ∧
        s.trap = false)
      ⟨bareSystem, false⟩ (bareRun (.copy (.staged .hosts) (.target .hosts))).1 := by
    decide +kernel
  refine ⟨hrun, (writeAtRoot_atomic rfl (hrun ▸ Prog.runs_exec _ _ _) ?_).2 (by decide)
    (by decide) (by decide)⟩
  refine (bareRun_answers _).and _ (hspared.mono _ fun s e h hs => ?_)
  obtain ⟨hcopy, htrap⟩ := h hs
  refine ⟨fun i hi => ?_, fun ht => ?_⟩
  · rw [hcopy] at hi
    cases hi
  · simp [Moment.next, hcopy, htrap] at ht

end Pxeos.Linux
