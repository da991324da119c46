import Pxeos.Storage.Session

/-!
# Programs that leave the protocol and the storage alone

Moving data and looking at a node read no line, send no event that has a number, change no name, and
close no descriptor.
-/

namespace Pxeos.Storage

open Pxeos.Lib

/-- A step that changes no name, and gives no descriptor away. -/
def LooseStep (e : Step) : Prop := targets e = [] ∧ ∀ fd, e.1 ≠ .close fd ∧ e.1 ≠ .fdopendir fd

/-- A step that shows nothing, changes nothing and gives no descriptor away. -/
def StillStep (L : Libs) (e : Step) : Prop := act L e = .quiet ∧ LooseStep e

/-- A step that shows at most an event without a number, changes nothing and gives no descriptor
away. -/
def CalmStep (L : Libs) (e : Step) : Prop := (act L e = .quiet ∨ act L e = .said) ∧ LooseStep e

lemma still_of {L : Libs} {e : Step} (h1 : act L e = .quiet) (h2 : targets e = [])
    (h3 : ∀ fd, e.1 ≠ .close fd ∧ e.1 ≠ .fdopendir fd) : StillStep L e := ⟨h1, h2, h3⟩

lemma calm_ask {L : Libs} {e : Step} (h1 : act L e = .quiet) (h2 : targets e = [])
    (h3 : ∀ fd, e.1 ≠ .close fd ∧ e.1 ≠ .fdopendir fd) : CalmStep L e := ⟨.inl h1, h2, h3⟩

/-! ### Lines, files and directories -/

section Still

variable {L : Libs}

lemma still_alive : (ask .parentAlive).Only (StillStep L) :=
  Prog.only_ask fun _ => still_of rfl rfl (by simp)

lemma still_stat (fd : Fd) : (rxStatFd fd).Only (StillStep L) :=
  Prog.only_ask fun _ => still_of rfl rfl (by simp)

lemma still_writeAll (target : Stream) : ∀ (fuel : ℕ) (bytes : Bytes),
    (rxWriteAll target fuel bytes).Only (StillStep L)
  | 0, [] => trivial
  | _ + 1, [] => trivial
  | 0, _ :: _ => trivial
  | fuel + 1, b :: bytes => by
    refine (Prog.only_ask fun _ => still_of rfl rfl (by simp)).bind fun r => ?_
    cases r with
    | interrupted => exact still_writeAll target fuel (b :: bytes)
    | failed => trivial
    | wrote n _ =>
      show Prog.Only (StillStep L) (if _ then _ else _)
      split
      · trivial
      · exact still_writeAll target fuel _

lemma still_listLoop : ∀ (fuel count : ℕ) (names : List Json),
    (listLoop fuel count names).Only (StillStep L)
  | 0, _, _ => trivial
  | fuel + 1, count, names => by
    refine (Prog.only_ask fun _ => still_of rfl rfl (by simp)).bind fun r => ?_
    cases r with
    | done => exact (Prog.only_ask fun _ => still_of rfl rfl (by simp)).bind fun _ => trivial
    | failed => exact (Prog.only_ask fun _ => still_of rfl rfl (by simp)).bind fun _ => trivial
    | entry name =>
      show Prog.Only (StillStep L) (if _ then _ else _)
      split
      · exact still_listLoop fuel count names
      · split
        · exact (Prog.only_ask fun _ => still_of rfl rfl (by simp)).bind fun _ => trivial
        · exact still_listLoop fuel _ _

lemma still_digestFinal (bytes : Bytes) : (digestFinal L bytes).Only (StillStep L) :=
  (Prog.only_ask fun _ => still_of rfl rfl (by simp)).bind fun _ => trivial

end Still

/-! ### Data -/

section Calm

variable {L : Libs} {α : Type}

lemma calm_of_still {p : Helper α} (h : p.Only (StillStep L)) : p.Only (CalmStep L) :=
  h.mono fun _ he => ⟨.inl he.1, he.2⟩

lemma sendAct_said {event : Json} (h : number event = none) (written : Bool) :
    sendAct event written = .said := by
  simp [sendAct, h]

lemma calm_emit {event : Json} (h : number event = none) : (rxEmit L event).Only (CalmStep L) := by
  unfold rxEmit
  split
  · exact Prog.only_ask fun r => ⟨.inr (sendAct_said h r), rfl, by simp⟩
  · trivial

lemma calm_progressAt (stage : String) (count progress : ℕ) :
    (progressAt L stage count progress).Only (CalmStep L) := by
  unfold progressAt
  split
  · refine Prog.Only.bind (calm_emit ?_) fun r => ?_
    · rfl
    · cases r <;> trivial
  · trivial

lemma calm_streamLoop {fd : Fd} {writing : Bool} {limit size steps : ℕ} :
    ∀ (fuel progress : ℕ) (moved : Bytes),
    (streamLoop L fd writing limit size steps fuel progress moved).Only (CalmStep L)
  | 0, _, _ => trivial
  | fuel + 1, progress, moved => by
    refine (Prog.only_ask fun _ => calm_ask rfl rfl (by simp)).bind fun alive => ?_
    show Prog.Only (CalmStep L) (if _ then _ else _)
    split
    · trivial
    split
    · trivial
    refine (Prog.only_ask fun _ => calm_ask rfl rfl (by simp)).bind fun r => ?_
    cases r with
    | interrupted => exact calm_streamLoop fuel progress moved
    | failed => trivial
    | got bytes _ =>
      show Prog.Only (CalmStep L) (if _ then _ else _)
      split
      · trivial
      split
      · trivial
      refine (calm_of_still (still_writeAll _ _ _)).bind fun written => ?_
      split
      · trivial
      refine (Prog.only_ask fun _ => calm_ask rfl rfl (by simp)).bind fun hashed => ?_
      show Prog.Only (CalmStep L) (if _ then _ else _)
      split
      · trivial
      refine (calm_progressAt _ _ _).bind fun p => ?_
      cases p with
      | none => trivial
      | some p => exact calm_streamLoop fuel p _

lemma calm_readbackLoop {fd : Fd} {count : ℕ} : ∀ (fuel progress : ℕ) (got : Bytes),
    (readbackLoop L fd count fuel progress got).Only (CalmStep L)
  | 0, _, _ => trivial
  | fuel + 1, progress, got => by
    unfold readbackLoop
    split
    · trivial
    refine (Prog.only_ask fun _ => calm_ask rfl rfl (by simp)).bind fun r => ?_
    cases r with
    | interrupted => exact calm_readbackLoop fuel progress got
    | failed => trivial
    | got bytes _ =>
      show Prog.Only (CalmStep L) (if _ then _ else _)
      split
      · trivial
      refine (Prog.only_ask fun _ => calm_ask rfl rfl (by simp)).bind fun hashed => ?_
      show Prog.Only (CalmStep L) (if _ then _ else _)
      split
      · trivial
      refine (calm_progressAt _ _ _).bind fun p => ?_
      cases p with
      | none => trivial
      | some p => exact calm_readbackLoop fuel p _

lemma calm_readback (fuel : ℕ) (fd : Fd) (count : ℕ) (digest : Bytes) (before : Stat) :
    (readback L fuel fd count digest before).Only (CalmStep L) := by
  refine (Prog.only_ask fun _ => calm_ask rfl rfl (by simp)).bind fun r => ?_
  show Prog.Only (CalmStep L) (if _ then _ else _)
  split
  · trivial
  refine (Prog.only_ask fun _ => calm_ask rfl rfl (by simp)).bind fun r => ?_
  show Prog.Only (CalmStep L) (if _ then _ else _)
  split
  · trivial
  refine (calm_readbackLoop fuel 0 []).bind fun got => ?_
  cases got with
  | none => trivial
  | some got =>
    refine (calm_of_still (still_digestFinal got)).bind fun verified => ?_
    cases verified with
    | none => trivial
    | some verified =>
      show Prog.Only (CalmStep L) (if _ then _ else _)
      split
      · trivial
      refine (calm_of_still (still_stat fd)).bind fun after => ?_
      cases after <;> trivial

lemma calm_streamEnd (fuel : ℕ) (fd : Fd) (writing : Bool) (before : Stat) (moved : Bytes) :
    (streamEnd L fuel fd writing before moved).Only (CalmStep L) := by
  refine Prog.Only.bind ?_ fun synced => ?_
  · cases writing
    · trivial
    · exact Prog.only_ask fun _ => calm_ask rfl rfl (by simp)
  show Prog.Only (CalmStep L) (if _ then _ else _)
  split
  · trivial
  refine (calm_of_still (still_stat fd)).bind fun after => ?_
  cases after with
  | none => trivial
  | some after =>
    show Prog.Only (CalmStep L) (if _ then _ else _)
    split
    · trivial
    refine (calm_of_still (still_digestFinal moved)).bind fun digest => ?_
    cases digest with
    | none => trivial
    | some digest =>
      show Prog.Only (CalmStep L) (if _ then _ else _)
      split
      · refine (calm_readback fuel fd _ digest after).bind fun r => ?_
        cases r <;> trivial
      · trivial

/-- Data is moved without an event that has a number. -/
lemma calm_streamFile (fuel : ℕ) (fd : Fd) (writing : Bool) (limit : ℕ) :
    (streamFile L fuel fd writing limit).Only (CalmStep L) := by
  refine (calm_of_still (still_stat fd)).bind fun before => ?_
  cases before with
  | none => trivial
  | some before =>
    show Prog.Only (CalmStep L) (if _ then _ else _)
    split
    · trivial
    refine (Prog.only_ask fun _ => calm_ask rfl rfl (by simp)).bind fun r => ?_
    show Prog.Only (CalmStep L) (if _ then _ else _)
    split
    · trivial
    refine (calm_streamLoop _ _ _).bind fun moved => ?_
    cases moved with
    | none => trivial
    | some moved =>
      refine (calm_streamEnd fuel fd writing before moved).bind fun r => ?_
      cases r <;> trivial

lemma calm_writeData (fuel : ℕ) (fd : Fd) (expected : Option ℕ) :
    (writeData L fuel fd expected).Only (CalmStep L) := by
  refine (calm_streamFile fuel fd true _).bind fun details => ?_
  cases details with
  | none => trivial
  | some details =>
    cases expected with
    | none => trivial
    | some size =>
      refine (calm_of_still (still_stat fd)).bind fun r => ?_
      cases r <;> trivial

end Calm

end Pxeos.Storage
