import Pxeos.Storage.Transfer
import Pxeos.Storage.Guarantees

/-!
# Writes and reads succeed

In an environment where no call fails and interruptions are bounded, the data of a `write` command
is stored, read again and reported, and a `read` delivers its file, whatever the length up to
`INT64_MAX` and however it is cut into chunks.
-/

namespace Pxeos.Storage

open Pxeos.Lib

/-! ### The environment -/

/-- A call that was interrupted. -/
def interruptedBy : Step → ℕ
  | ⟨.read _ _, .interrupted⟩ => 1
  | ⟨.write _ _, .interrupted⟩ => 1
  | _ => 0

/-- How often a run was interrupted. -/
def interruptions (h : List Step) : ℕ := (h.map interruptedBy).sum

/-- Where a file is read next. -/
def offsetStep (fd : Fd) (n : ℕ) : Step → ℕ
  | ⟨.openat _ _ _, some fd'⟩ => if fd' = fd then 0 else n
  | ⟨.rewind fd', _⟩ => if fd' = fd then 0 else n
  | e => n + (readBy (.file fd) e).length

def offset (fd : Fd) (h : List Step) : ℕ := h.foldl (offsetStep fd) 0

/-- An environment in which the calls succeed: the data pipe delivers `data`, the file has what was
found in it or written to it, and a status that depends on nothing else, and there are at most
`most` interruptions. -/
def Benign (found : Option Bytes) (data : Bytes) (fd : Fd) (stamp : Bytes → Stat) (most : ℕ)
    (h : List Step) : Step → Prop
  | ⟨.parentAlive, alive⟩ => alive = true
  | ⟨.emit _, sent⟩ => sent = true
  | ⟨.digest, ok⟩ => ok = true
  | ⟨.fsync _, ok⟩ => ok = true
  | ⟨.rewind _, ok⟩ => ok = true
  | ⟨.statx fd', st⟩ => fd' = fd → st = (contentFrom found fd h).map stamp
  | ⟨.read .data _, .got bytes _⟩ =>
    readFrom .data h ++ bytes <+: data ∧ (bytes = [] → readFrom .data h = data)
  | ⟨.read (.file fd') _, .got bytes _⟩ =>
    fd' = fd → ∀ content, contentFrom found fd h = some content →
      bytes <+: content.drop (offset fd h) ∧ (bytes = [] → content.length ≤ offset fd h)
  | ⟨.write _ _, .wrote n _⟩ => 0 < n
  | ⟨.read _ _, .interrupted⟩ => interruptions h < most
  | ⟨.write _ _, .interrupted⟩ => interruptions h < most
  | ⟨.read _ _, .failed⟩ => False
  | ⟨.write _ _, .failed⟩ => False
  | _ => True

/-- What is relied on of the libraries: SHA-256 has 32 bytes, and the text of a progress event is
short. -/
structure Libs.Sound (L : Libs) : Prop where
  sha256 : ∀ bytes, ∃ digest, L.sha256 bytes = some digest ∧ digest.length = 32
  progress : ∀ stage ∈ ["read", "write", "readback"], ∀ count,
    (L.serialize (.object [(ascii "event", .string (ascii "progress")),
    (ascii "stage", .string (ascii stage)),
      (ascii "bytes", .string (snprintf 21 (decimal count)))])).length < resultMax

/-- What is known of a history: the data read so far, what the file has, and a bound on the
interruptions. -/
structure Known (found : Option Bytes) (fd : Fd) (most : ℕ) (read content : Bytes) (h : List Step) :
    Prop where
  read : readFrom .data h = read
  content : contentFrom found fd h = some content
  interrupted : interruptions h ≤ most

section Known

variable {found : Option Bytes} {fd : Fd} {most : ℕ} {read content : Bytes} {h σ : List Step}

lemma interruptions_append : interruptions (h ++ σ) = interruptions h + interruptions σ := by
  unfold interruptions
  rw [List.map_append, List.sum_append]

lemma contentOf_append (hσ : ∀ e ∈ σ, Closed e) (hc : contentFrom found fd h = some content) :
    contentFrom found fd (h ++ σ) = some (content ++ writtenTo (.file fd) σ) := by
  unfold contentFrom at hc ⊢
  rw [List.foldl_append, hc, foldl_contentStep hσ]

lemma Known.append (hk : Known found fd most read content h) (hσ : ∀ e ∈ σ, Closed e)
    (hi : interruptions (h ++ σ) ≤ most) :
    Known found fd most (read ++ readFrom .data σ) (content ++ writtenTo (.file fd) σ) (h ++ σ) :=
  ⟨by rw [readFrom_append, hk.read], contentOf_append hσ hk.content, hi⟩

lemma interruptedBy_plain {e : Step} (he : Plain e) : interruptedBy e = 0 := by
  unfold interruptedBy
  split
  · exact absurd rfl (he.1.1 _ _)
  · exact absurd rfl (he.1.2 _ _)
  · rfl

/-- A step that moves nothing. -/
lemma Known.plain (hk : Known found fd most read content h) {e : Step} (he : Plain e) :
    Known found fd most read content (h ++ [e]) := by
  have hone : ∀ e' ∈ [e], Plain e' := by
    intro e' he'
    rw [List.mem_singleton.mp he']
    exact he
  have hi : interruptions (h ++ [e]) ≤ most := by
    rw [interruptions_append]
    have : interruptions [e] = 0 := by simp [interruptions, interruptedBy_plain he]
    have := hk.interrupted
    omega
  have := hk.append (fun e' he' => (hone e' he').2) hi
  rwa [readFrom_idle fun e' he' => (hone e' he').1, writtenTo_idle fun e' he' => (hone e' he').1,
    List.append_nil,
    List.append_nil] at this

/-- An interrupted call. -/
lemma Known.interrupt (hk : Known found fd most read content h) {e : Step}
    (hr : ∀ s, readBy s e = []) (hw : ∀ s, writtenBy s e = []) (hc : Closed e)
    (h1 : interruptedBy e = 1) (hlt : interruptions h < most) :
    Known found fd most read content (h ++ [e]) ∧
    interruptions (h ++ [e]) = interruptions h + 1 := by
  have hsum : interruptions (h ++ [e]) = interruptions h + 1 := by
    rw [interruptions_append]
    simp [interruptions, h1]
  have := hk.append (σ := [e]) (by simpa using hc) (by omega)
  simp only [readFrom, writtenTo, List.flatMap_cons, List.flatMap_nil, hr, hw,
    List.append_nil] at this
  exact ⟨this, hsum⟩

/-- What a file is given by bytes that are written to a stream. -/
def gained (fd : Fd) (target : Stream) (bytes : Bytes) : Bytes :=
  if target = .file fd then bytes else []

lemma gained_append (target : Stream) (bytes : Bytes) (n : ℕ) :
    gained fd target (bytes.take n) ++ gained fd target (bytes.drop n) =
      gained fd target bytes := by
  unfold gained
  split
  · exact List.take_append_drop n bytes
  · rfl

/-- Bytes that are written. -/
lemma Known.wrote (hk : Known found fd most read content h) (target : Stream) {bytes : Bytes}
    {n : ℕ} (le : n ≤ bytes.length) :
    Known found fd most read (content ++ gained fd target (bytes.take n))
        (h ++ [⟨.write target bytes, .wrote n le⟩]) ∧
      interruptions (h ++ [⟨.write target bytes, .wrote n le⟩]) = interruptions h := by
  have hsum : interruptions (h ++ [⟨.write target bytes, .wrote n le⟩]) = interruptions h :=
    interruptions_append
  have := hk.append (σ := [⟨.write target bytes, .wrote n le⟩]) (by simp [Closed])
    (by rw [hsum]; exact hk.interrupted)
  refine ⟨?_, hsum⟩
  have hread : readFrom .data [⟨.write target bytes, .wrote n le⟩] = [] := rfl
  have hwritten : writtenTo (.file fd) [⟨.write target bytes, .wrote n le⟩] =
      gained fd target (bytes.take n) := by
    simp [writtenTo, writtenBy, gained]
  rwa [hread, hwritten, List.append_nil] at this

/-- Bytes that are read from the data pipe. -/
lemma Known.got (hk : Known found fd most read content h) {want : ℕ} {bytes : Bytes}
    (le : bytes.length ≤ want) :
    Known found fd most (read ++ bytes) content (h ++ [⟨.read .data want, .got bytes le⟩]) ∧
      interruptions (h ++ [⟨.read .data want, .got bytes le⟩]) = interruptions h := by
  have hsum : interruptions (h ++ [⟨.read .data want, .got bytes le⟩]) = interruptions h :=
    interruptions_append
  have := hk.append (σ := [⟨.read .data want, .got bytes le⟩]) (by simp [Closed])
    (by rw [hsum]; exact hk.interrupted)
  refine ⟨?_, hsum⟩
  have hread : readFrom .data [⟨.read .data want, .got bytes le⟩] = bytes := by
    simp [readFrom, readBy]
  have hwritten : writtenTo (.file fd) [⟨.read .data want, .got bytes le⟩] = [] := rfl
  rwa [hread, hwritten, List.append_nil] at this

/-- Bytes that are read from the file again. -/
lemma Known.reread (hk : Known found fd most read content h) {want : ℕ} {bytes : Bytes}
    (le : bytes.length ≤ want) :
    Known found fd most read content (h ++ [⟨.read (.file fd) want, .got bytes le⟩]) ∧
      interruptions (h ++ [⟨.read (.file fd) want, .got bytes le⟩]) = interruptions h := by
  have hsum : interruptions (h ++ [⟨.read (.file fd) want, .got bytes le⟩]) = interruptions h :=
    interruptions_append
  have := hk.append (σ := [⟨.read (.file fd) want, .got bytes le⟩]) (by simp [Closed])
    (by rw [hsum]; exact hk.interrupted)
  refine ⟨?_, hsum⟩
  have hread : readFrom .data [⟨.read (.file fd) want, .got bytes le⟩] = [] := by
    simp [readFrom, readBy]
  have hwritten : writtenTo (.file fd) [⟨.read (.file fd) want, .got bytes le⟩] = [] := rfl
  rwa [hread, hwritten, List.append_nil, List.append_nil] at this

lemma offset_snoc {e : Step} {n : ℕ} (he : offsetStep fd (offset fd h) e = n) :
    offset fd (h ++ [e]) = n := by
  unfold offset at he ⊢
  rw [List.foldl_append]
  exact he

end Known

/-! ### The loops -/

section Loops

variable {L : Libs} {found : Option Bytes} {data : Bytes} {fd : Fd} {stamp : Bytes →
  Stat} {most : ℕ}

/-- A call that succeeds, and moves nothing. -/
lemma sure_plain {c : Call} {read content : Bytes} {h : List Step} {Q : c.Answer → List Step → Prop}
    (hk : Known found fd most read content h) (hc : ∀ r, Plain ⟨c, r⟩)
    (hQ : ∀ r, Benign found data fd stamp most h ⟨c, r⟩ →
      Known found fd most read content (h ++ [⟨c, r⟩]) →
      interruptions (h ++ [⟨c, r⟩]) = interruptions h → Q r (h ++ [⟨c, r⟩])) :
    (history (Benign found data fd stamp most)).Sure (ask c) h Q := by
  refine Contract.sure_ask fun r hr => hQ r hr (hk.plain (hc r)) ?_
  rw [interruptions_append]
  simp [interruptions, interruptedBy_plain (hc r)]

/-- A step of the digest. -/
lemma digest_sure {read content : Bytes} {h : List Step} (hk : Known found fd most read content h) :
    (history (Benign found data fd stamp most)).Sure (ask .digest) h fun ok h' =>
      ok = true ∧ Known found fd most read content h' ∧ interruptions h' = interruptions h ∧
      offset fd h' = offset fd h :=
  sure_plain hk (fun _ => plain_of (by simp) (by simp) (by simp) (by simp)) fun _ hr hk' hi =>
    ⟨hr, hk', hi, offset_snoc rfl⟩

/-- `rx_write_all` ends, and the bytes are written. -/
lemma rxWriteAll_sure (target : Stream) : ∀ {fuel : ℕ} {bytes read content : Bytes} {h : List Step},
    Known found fd most read content h → bytes.length + (most - interruptions h) ≤ fuel →
    (history (Benign found data fd stamp most)).Sure (rxWriteAll target fuel bytes) h fun ok h' =>
      ok = true ∧ Known found fd most read (content ++ gained fd target bytes) h' ∧
        interruptions h ≤ interruptions h' ∧ offset fd h' = offset fd h
  | fuel, [], read, content, h, hk, _ => by
    have hnil : rxWriteAll target fuel [] = pure true := by cases fuel <;> rfl
    rw [hnil]
    refine Contract.sure_pure ⟨rfl, ?_, le_rfl, rfl⟩
    have : gained fd target [] = [] := by
      unfold gained
      split <;> rfl
    rwa [this, List.append_nil]
  | 0, b :: bytes, read, content, h, hk, hfuel => by
    rw [List.length_cons] at hfuel
    omega
  | fuel + 1, b :: bytes, read, content, h, hk, hfuel => by
    refine Contract.Sure.seq
      (Contract.sure_ask (Q := fun r h' => h' = h ++ [⟨.write target (b :: bytes), r⟩] ∧
      Benign found data fd stamp most h ⟨.write target (b :: bytes), r⟩) fun r hr => ⟨rfl, hr⟩) ?_
    rintro r h' ⟨rfl, hr⟩
    cases r with
    | interrupted =>
      have hlt : interruptions h < most := hr
      obtain ⟨hk', hsum⟩ :=
        hk.interrupt (e := ⟨.write target (b :: bytes), .interrupted⟩) (fun _ => rfl) (fun _ => rfl)
        ⟨by simp, by simp⟩ rfl hlt
      refine (rxWriteAll_sure target hk' (by rw [hsum]; omega)).mono ?_
      rintro ok h' ⟨h1, h2, h3, h4⟩
      exact ⟨h1, h2, by omega, h4.trans (offset_snoc rfl)⟩
    | failed => exact hr.elim
    | wrote n le =>
      have hpos : 0 < n := hr
      obtain ⟨hk', hsum⟩ := hk.wrote target le
      show (history (Benign found data fd stamp most)).Sure (if n = 0 then pure false else _) _ _
      rw [if_neg (by omega)]
      have hlen : ((b :: bytes).drop n).length + n = (b :: bytes).length := by
        rw [List.length_drop]
        omega
      refine (rxWriteAll_sure target hk' (by rw [hsum]; omega)).mono ?_
      rintro ok h' ⟨h1, h2, h3, h4⟩
      rw [List.append_assoc, gained_append] at h2
      exact ⟨h1, h2, by omega, h4.trans (offset_snoc rfl)⟩

/-- A progress event is sent. -/
lemma progressAt_sure (hL : L.Sound) {stage : String}
    (hstage : stage ∈ ["read", "write", "readback"]) (count progress : ℕ) {read content : Bytes}
    {h : List Step} (hk : Known found fd most read content h) :
    (history (Benign found data fd stamp most)).Sure (progressAt L stage count progress) h
      fun r h' =>
      (∃ p, r = some p) ∧ Known found fd most read content h' ∧ interruptions h' = interruptions h ∧
      offset fd h' = offset fd h := by
  unfold progressAt
  split
  · refine Contract.Sure.seq (R := fun sent h' => sent = true ∧
      Known found fd most read content h' ∧
      interruptions h' = interruptions h ∧ offset fd h' = offset fd h) ?_ ?_
    · unfold streamProgress rxEmit
      rw [if_pos (hL.progress stage hstage count)]
      exact sure_plain hk (fun _ => plain_of (by simp) (by simp) (by simp) (by simp))
        fun r hr hk' hi => ⟨hr, hk', hi, offset_snoc rfl⟩
    · rintro sent h' ⟨rfl, hk', hi, ho⟩
      exact Contract.sure_pure ⟨⟨count, rfl⟩, hk', hi, ho⟩
  · exact Contract.sure_pure ⟨⟨progress, rfl⟩, hk, rfl, rfl⟩

/-- **The loop of a write** ends with all the data. -/
lemma streamLoop_sure (hL : L.Sound) (hdata : data.length ≤ i64Max) {limit size steps : ℕ}
    (hlimit : limit = 0 ∨ limit = data.length + 1)
    (hsteps : data.length + most ≤ steps) : ∀ {fuel progress : ℕ} {moved : Bytes} {h : List Step},
      Known found fd most moved moved h →
    moved <+: data → (data.length - moved.length) + (most - interruptions h) < fuel →
    (history (Benign found data fd stamp most)).Sure
      (streamLoop L fd true limit size steps fuel progress moved) h fun r h' =>
      r = some data ∧ Known found fd most data data h'
  | 0, _, _, _, _, _, hfuel => by omega
  | fuel + 1, progress, moved, h, hk, hmoved, hfuel => by
    have hle := hmoved.length_le
    refine Contract.Sure.seq
      (sure_plain (c := .parentAlive) (Q := fun alive h' => alive = true ∧
        Known found fd most moved moved h' ∧
      interruptions h' = interruptions h) hk (fun _ =>
        plain_of (by simp) (by simp) (by simp) (by simp))
      fun r hr hk' hi => ⟨hr, hk', hi⟩) ?_
    rintro alive h1 ⟨rfl, hk1, hi1⟩
    have hwant : wantedBytes true limit size moved.length ≠ 0 := by
      have hmax : dataMax = 131072 := rfl
      unfold wantedBytes
      rcases hlimit with rfl | rfl
      · simp [hmax]
      · simp only [if_true, Nat.succ_ne_zero, if_false]
        omega
    show (history (Benign found data fd stamp most)).Sure (if _ then _ else _) h1 _
    rw [if_neg hwant]
    refine Contract.Sure.seq (Contract.sure_ask (Q := fun r h' =>
      h' = h1 ++ [⟨.read .data (wantedBytes true limit size moved.length), r⟩] ∧
      Benign found data fd stamp most h1 ⟨.read .data (wantedBytes true limit size moved.length),
        r⟩) fun r hr => ⟨rfl, hr⟩) ?_
    rintro r h2 ⟨rfl, hr⟩
    cases r with
    | interrupted =>
      have hlt : interruptions h1 < most := hr
      obtain ⟨hk2, hsum⟩ :=
        hk1.interrupt (e := ⟨.read .data (wantedBytes true limit size moved.length), .interrupted⟩)
        (fun _ => rfl) (fun _ => rfl) ⟨by simp, by simp⟩ rfl hlt
      exact streamLoop_sure hL hdata hlimit hsteps hk2 hmoved (by rw [hsum]; omega)
    | failed => exact hr.elim
    | got bytes le =>
      obtain ⟨hpre, hend⟩ : readFrom .data h1 ++ bytes <+: data ∧
          (bytes = [] → readFrom .data h1 = data) := hr
      rw [hk1.read] at hpre hend
      obtain ⟨hk2, hi2⟩ := hk1.got le
      show (history (Benign found data fd stamp most)).Sure (if _ then _ else _) _ _
      split
      next hnil =>
        obtain rfl := hend hnil
        subst hnil
        rw [List.append_nil] at hk2
        exact Contract.sure_pure ⟨rfl, hk2⟩
      next hne =>
        have hpos := List.length_pos_iff.mpr hne
        have hbound := hpre.length_le
        rw [List.length_append] at hbound
        rw [if_neg (by omega)]
        refine Contract.Sure.seq (rxWriteAll_sure (.file fd) hk2 (by rw [hi2]; omega)) ?_
        rintro written h3 ⟨rfl, hk3, hi3, -⟩
        have hgained : gained fd (.file fd) bytes = bytes := if_pos rfl
        rw [hgained] at hk3
        refine Contract.Sure.seq (digest_sure hk3) ?_
        rintro ok h4 ⟨rfl, hk4, hi4, -⟩
        refine Contract.Sure.seq (progressAt_sure hL (by simp) _ _ hk4) ?_
        rintro p h5 ⟨⟨p, rfl⟩, hk5, hi5, -⟩
        refine streamLoop_sure hL hdata hlimit hsteps hk5 hpre ?_
        rw [List.length_append]
        omega

/-- **The loop of a read** ends with all of the file. -/
lemma readLoop_sure (hL : L.Sound) {read file : Bytes} (hfile : file.length ≤ i64Max) {steps : ℕ}
    (hsteps : file.length + most ≤ steps) : ∀ {fuel progress : ℕ} {moved : Bytes} {h : List Step},
    Known found fd most read file h → offset fd h = moved.length → moved <+: file →
    (file.length - moved.length) + (most - interruptions h) < fuel →
    (history (Benign found data fd stamp most)).Sure
      (streamLoop L fd false 0 file.length steps fuel progress moved) h
      fun r h' => r = some file ∧ Known found fd most read file h'
  | 0, _, _, _, _, _, _, hfuel => by omega
  | fuel + 1, progress, moved, h, hk, hoff, hmoved, hfuel => by
    have hle := hmoved.length_le
    refine Contract.Sure.seq (sure_plain (c := .parentAlive) (Q := fun alive h' => alive = true ∧
      Known found fd most read file h' ∧ interruptions h' = interruptions h ∧
        offset fd h' = offset fd h) hk
      (fun _ => plain_of (by simp) (by simp) (by simp) (by simp)) fun r hr hk' hi =>
        ⟨hr, hk', hi, offset_snoc rfl⟩) ?_
    rintro alive h1 ⟨rfl, hk1, hi1, ho1⟩
    rw [hoff] at ho1
    show (history (Benign found data fd stamp most)).Sure (if _ then _ else _) h1 _
    have hwanted : wantedBytes false 0 file.length moved.length =
        min (file.length - moved.length) dataMax := by
      simp [wantedBytes]
    have hmax : dataMax = 131072 := rfl
    by_cases hzero : wantedBytes false 0 file.length moved.length = 0
    · rw [if_pos hzero]
      have : moved = file := hmoved.eq_of_length (by rw [hwanted] at hzero; omega)
      exact Contract.sure_pure ⟨by rw [this], hk1⟩
    · rw [if_neg hzero]
      refine Contract.Sure.seq (Contract.sure_ask (Q := fun r h' =>
        h' = h1 ++ [⟨.read (.file fd) (wantedBytes false 0 file.length moved.length), r⟩] ∧
        Benign found data fd stamp most h1
          ⟨.read (.file fd) (wantedBytes false 0 file.length moved.length), r⟩)
        fun r hr => ⟨rfl, hr⟩) ?_
      rintro r h2 ⟨rfl, hr⟩
      cases r with
      | interrupted =>
        have hlt : interruptions h1 < most := hr
        obtain ⟨hk2, hsum⟩ := hk1.interrupt
          (e := ⟨.read (.file fd) (wantedBytes false 0 file.length moved.length), .interrupted⟩)
          (fun _ => rfl) (fun _ => rfl) ⟨by simp, by simp⟩ rfl hlt
        exact readLoop_sure hL hfile hsteps hk2 (offset_snoc ho1) hmoved (by rw [hsum]; omega)
      | failed => exact hr.elim
      | got bytes le =>
        obtain ⟨hpre, hend⟩ := hr rfl file hk1.content
        rw [ho1] at hpre hend
        obtain ⟨hk2, hi2⟩ := hk1.reread le
        have ho2 :
            offset fd
              (h1 ++ [⟨.read (.file fd) (wantedBytes false 0 file.length moved.length),
                .got bytes le⟩]) =
            (moved ++ bytes).length := by
          refine offset_snoc ?_
          rw [List.length_append, ho1]
          simp [offsetStep, readBy]
        have hmoved2 : moved ++ bytes <+: file := by
          rw [← List.prefix_append_right_inj moved, List.prefix_iff_eq_append.mp hmoved] at hpre
          exact hpre
        have hbound := hmoved2.length_le
        rw [List.length_append] at hbound
        -- the end of the file has not been reached, since something is still wanted
        have hne : bytes ≠ [] := fun hnil => hzero (by rw [hwanted]; have := hend hnil; omega)
        have hpos := List.length_pos_iff.mpr hne
        show (history (Benign found data fd stamp most)).Sure (if _ then _ else _) _ _
        rw [if_neg hne, if_neg (by omega)]
        refine Contract.Sure.seq (rxWriteAll_sure .data hk2 (by rw [hi2]; omega)) ?_
        rintro written h3 ⟨rfl, hk3, hi3, ho3⟩
        have hgained : gained fd .data bytes = [] := if_neg (by simp)
        rw [hgained, List.append_nil] at hk3
        refine Contract.Sure.seq (digest_sure hk3) ?_
        rintro ok h4 ⟨rfl, hk4, hi4, ho4⟩
        refine Contract.Sure.seq (progressAt_sure hL (by simp) _ _ hk4) ?_
        rintro p h5 ⟨⟨p, rfl⟩, hk5, hi5, ho5⟩
        refine readLoop_sure hL hfile hsteps hk5 (((ho5.trans ho4).trans ho3).trans ho2) hmoved2 ?_
        rw [List.length_append]
        omega

/-- **The file is read again**, to its end. -/
lemma readbackLoop_sure (hL : L.Sound) {read content : Bytes} :
    ∀ {fuel progress : ℕ} {got : Bytes} {h : List Step},
    Known found fd most read content h → offset fd h = got.length → got <+: content →
    (content.length - got.length) + (most - interruptions h) < fuel →
    (history (Benign found data fd stamp most)).Sure
      (readbackLoop L fd content.length fuel progress got) h fun r h' =>
      r = some content ∧ Known found fd most read content h'
  | 0, _, _, _, _, _, _, hfuel => by omega
  | fuel + 1, progress, got, h, hk, hoff, hgot, hfuel => by
    have hle := hgot.length_le
    unfold readbackLoop
    split
    next hdone =>
      have : got = content := hgot.eq_of_length (by omega)
      exact Contract.sure_pure ⟨by rw [this], hk⟩
    next hmore =>
      refine Contract.Sure.seq (Contract.sure_ask (Q := fun r h' =>
        h' = h ++ [⟨.read (.file fd) (min (content.length - got.length) dataMax), r⟩] ∧
        Benign found data fd stamp most h
          ⟨.read (.file fd) (min (content.length - got.length) dataMax), r⟩) fun r hr => ⟨rfl, hr⟩)
            ?_
      rintro r h1 ⟨rfl, hr⟩
      cases r with
      | interrupted =>
        have hlt : interruptions h < most := hr
        obtain ⟨hk1, hsum⟩ := hk.interrupt
          (e := ⟨.read (.file fd) (min (content.length - got.length) dataMax), .interrupted⟩)
          (fun _ => rfl) (fun _ => rfl) ⟨by simp, by simp⟩ rfl hlt
        exact readbackLoop_sure hL hk1 (offset_snoc hoff) hgot (by rw [hsum]; omega)
      | failed => exact hr.elim
      | got bytes le =>
        obtain ⟨hpre, hend⟩ := hr rfl content hk.content
        rw [hoff] at hpre hend
        obtain ⟨hk1, hi1⟩ := hk.reread le
        have hoff1 :
            offset fd
              (h ++ [⟨.read (.file fd) (min (content.length - got.length) dataMax),
                .got bytes le⟩]) =
            (got ++ bytes).length := by
          refine offset_snoc ?_
          rw [List.length_append, hoff]
          simp [offsetStep, readBy]
        have hgot1 : got ++ bytes <+: content := by
          rw [← List.prefix_append_right_inj got, List.prefix_iff_eq_append.mp hgot] at hpre
          exact hpre
        have hbound := hgot1.length_le
        rw [List.length_append] at hbound
        show (history (Benign found data fd stamp most)).Sure (if _ then _ else _) _ _
        rw [if_neg fun hnil => hmore (hend hnil)]
        have hpos : 0 < bytes.length := List.length_pos_iff.mpr fun hnil => hmore (hend hnil)
        refine Contract.Sure.seq (digest_sure hk1) ?_
        rintro ok h2 ⟨rfl, hk2, hi2, hoff2⟩
        refine Contract.Sure.seq (progressAt_sure hL (by simp) _ _ hk2) ?_
        rintro p h3 ⟨⟨p, rfl⟩, hk3, hi3, hoff3⟩
        refine readbackLoop_sure hL hk3 ((hoff3.trans hoff2).trans hoff1) hgot1 ?_
        rw [List.length_append]
        omega

end Loops

/-! ### The stream -/

section Stream

variable {L : Libs} {found : Option Bytes} {data : Bytes} {fd : Fd} {stamp : Bytes →
  Stat} {most : ℕ}

/-- The status of the file. -/
lemma stat_sure {read content : Bytes} {h : List Step} (hk : Known found fd most read content h) :
    (history (Benign found data fd stamp most)).Sure (rxStatFd fd) h fun st h' =>
      st = some (stamp content) ∧ Known found fd most read content h' ∧
      interruptions h' = interruptions h :=
  sure_plain hk (fun _ => plain_of (by simp) (by simp) (by simp) (by simp)) fun r hr hk' hi =>
    ⟨(hr rfl).trans (by rw [hk.content]; rfl), hk', hi⟩

lemma digestFinal_sure (hL : L.Sound) (bytes : Bytes) {read content : Bytes} {h : List Step}
    (hk : Known found fd most read content h) :
    (history (Benign found data fd stamp most)).Sure (digestFinal L bytes) h fun r h' =>
      r = L.sha256 bytes ∧ r.isSome = true ∧ Known found fd most read content h' ∧
      interruptions h' = interruptions h := by
  refine Contract.Sure.seq (digest_sure hk) ?_
  rintro ok h1 ⟨rfl, hk1, hi1, -⟩
  obtain ⟨digest, hsha, hlen⟩ := hL.sha256 bytes
  refine Contract.sure_pure ⟨?_, ?_, hk1, hi1⟩ <;> simp [hsha, hlen]

/-- **A written file is verified.** -/
lemma readback_sure (hL : L.Sound) {fuel : ℕ} {digest read content : Bytes} {h : List Step}
    (hk : Known found fd most read content h) (hdigest : L.sha256 content = some digest)
    (hfuel : content.length + (most - interruptions h) < fuel) :
    (history (Benign found data fd stamp most)).Sure
      (readback L fuel fd content.length digest (stamp content)) h fun r h' =>
      r = some (stamp content) ∧ Known found fd most read content h' := by
  refine Contract.Sure.seq
    (sure_plain (c := .rewind fd) (Q := fun ok h' => ok = true ∧
      Known found fd most read content h' ∧
    interruptions h' = interruptions h ∧ offset fd h' = 0) hk (fun _ =>
      plain_of (by simp) (by simp) (by simp) (by simp))
    fun r hr hk' hi => ⟨hr, hk', hi, offset_snoc (by simp [offsetStep])⟩) ?_
  rintro ok h1 ⟨rfl, hk1, hi1, ho1⟩
  refine Contract.Sure.seq (digest_sure hk1) ?_
  rintro ok h2 ⟨rfl, hk2, hi2, ho2⟩
  refine Contract.Sure.seq
    (readbackLoop_sure hL hk2 (ho2.trans ho1) List.nil_prefix (by rw [List.length_nil]; omega)) ?_
  rintro got h3 ⟨rfl, hk3⟩
  refine Contract.Sure.seq (digestFinal_sure hL content hk3) ?_
  rintro verified h4 ⟨rfl, -, hk4, -⟩
  rw [hdigest]
  show (history (Benign found data fd stamp most)).Sure (if _ then _ else _) _ _
  rw [if_neg (by simp)]
  refine Contract.Sure.seq (stat_sure hk4) ?_
  rintro st h5 ⟨rfl, hk5, -⟩
  exact Contract.sure_pure ⟨by simp [Stat.sameRuntime], hk5⟩

/-- **The end of a write.** -/
lemma streamEnd_sure (hL : L.Sound) (hstamp : ∀ content, (stamp content).size = content.length)
    {fuel : ℕ} {before : Stat} {read content : Bytes} {h : List Step}
    (hk : Known found fd most read content h)
    (hfuel : content.length + (most - interruptions h) < fuel) :
    (history (Benign found data fd stamp most)).Sure (streamEnd L fuel fd true before content) h
      fun r h' =>
      (∃ digest, r = some (stamp content, digest)) ∧ Known found fd most read content h' := by
  refine Contract.Sure.seq
    (sure_plain (c := .fsync fd) (Q := fun ok h' => ok = true ∧
      Known found fd most read content h' ∧
    interruptions h' = interruptions h) hk (fun _ =>
      plain_of (by simp) (by simp) (by simp) (by simp))
    fun r hr hk' hi => ⟨hr, hk', hi⟩) ?_
  rintro ok h1 ⟨rfl, hk1, hi1⟩
  refine Contract.Sure.seq (stat_sure hk1) ?_
  rintro st h2 ⟨rfl, hk2, hi2⟩
  show (history (Benign found data fd stamp most)).Sure (if _ then _ else _) _ _
  rw [if_neg (by simp [hstamp])]
  refine Contract.Sure.seq (digestFinal_sure hL content hk2) ?_
  rintro digest h3 ⟨rfl, hsome, hk3, hi3⟩
  obtain ⟨digest, hdigest⟩ := Option.isSome_iff_exists.mp hsome
  rw [hdigest]
  refine Contract.Sure.seq (readback_sure hL hk3 hdigest (by omega)) ?_
  rintro after h4 ⟨rfl, hk4⟩
  exact Contract.sure_pure ⟨⟨digest, rfl⟩, hk4⟩

/-- **The data of a write is stored**, in stream mode whatever its length, and in fixed mode when it
has that length. -/
lemma writeData_sure (hL : L.Sound)
    (hstamp : ∀ content, (stamp content).isReg = true ∧ (stamp content).size = content.length)
    (hdata : data.length ≤ i64Max) {expected : Option ℕ}
    (hexpected : expected = none ∨ expected = some data.length) {fuel : ℕ}
    (hfuel : data.length + most < fuel) {h : List Step} (hk : Known found fd most [] [] h) :
    (history (Benign found data fd stamp most)).Sure (writeData L fuel fd expected) h fun r h' =>
      (∃ details, r = some details) ∧ readFrom .data h' = data ∧
      contentFrom found fd h' = some data := by
  refine Contract.Sure.seq (R := fun r h' => (∃ details, r = some details) ∧
    Known found fd most data data h') ?_ ?_
  · refine Contract.Sure.seq (stat_sure hk) ?_
    rintro st h1 ⟨rfl, hk1, hi1⟩
    show (history (Benign found data fd stamp most)).Sure (if _ then _ else _) _ _
    rw [if_neg (by simp [hstamp])]
    refine Contract.Sure.seq (digest_sure hk1) ?_
    rintro ok h2 ⟨rfl, hk2, hi2, -⟩
    refine Contract.Sure.seq
      (streamLoop_sure hL hdata ?_ (by omega) hk2 List.nil_prefix (by rw [List.length_nil]; omega))
        ?_
    · rcases hexpected with rfl | rfl
      · exact .inl rfl
      · exact .inr rfl
    rintro moved h3 ⟨rfl, hk3⟩
    refine Contract.Sure.seq (streamEnd_sure hL (fun c => (hstamp c).2) hk3 (by omega)) ?_
    rintro r h4 ⟨⟨digest, rfl⟩, hk4⟩
    exact Contract.sure_pure ⟨⟨_, rfl⟩, hk4⟩
  · rintro r h1 ⟨⟨details, rfl⟩, hk1⟩
    rcases hexpected with rfl | rfl
    · exact Contract.sure_pure ⟨⟨details, rfl⟩, hk1.read, hk1.content⟩
    · refine Contract.Sure.seq (stat_sure hk1) ?_
      rintro st h2 ⟨rfl, hk2, -⟩
      exact Contract.sure_pure ⟨⟨details, by simp [hstamp]⟩, hk2.read, hk2.content⟩

/-- A program that moves no data. -/
lemma silent_sure {α : Type} {R : List Step → Step → Prop} {p : Helper α} {h : List Step}
    {Q : α → List Step → Prop} (hp : (history R).Sure p h Q) (honly : p.Only Plain) :
    (history R).Sure p h fun a h' => Q a h' ∧ writtenTo .data h' = writtenTo .data h := by
  refine (Contract.Sure.runs (fun _ _ => rfl) hp).mono ?_
  rintro a h' ⟨hQ, τ, hτ, hr⟩
  refine ⟨hQ, ?_⟩
  rw [hτ, writtenTo_append, writtenTo_idle fun e he => (honly.of_runs hr e he).1, List.append_nil]

/-- **A read delivers the file**, whatever its length, and reports its digest. -/
lemma streamFile_read_sure (hL : L.Sound) {read file : Bytes} (hfile : file.length ≤ i64Max)
    (hreg : (stamp file).isReg = true) (hsize : (stamp file).size = file.length) {fuel : ℕ}
    (hfuel : file.length + most < fuel) {h : List Step} (hk : Known found fd most read file h)
    (hoff : offset fd h = 0) :
    (history (Benign found data fd stamp most)).Sure (streamFile L fuel fd false 0) h fun r h' =>
      (∃ digest, r = some (streamDetails (stamp file) digest) ∧ L.sha256 file = some digest) ∧
        writtenTo .data h' = writtenTo .data h ++ file := by
  have hstat : ∀ {h : List Step}, Known found fd most read file h →
      (history (Benign found data fd stamp most)).Sure (rxStatFd fd) h fun st h' =>
        (st = some (stamp file) ∧ Known found fd most read file h' ∧
          interruptions h' = interruptions h ∧
          offset fd h' = offset fd h) ∧ writtenTo .data h' = writtenTo .data h := by
    intro h hk
    refine silent_sure ?_ (plain_stat fd)
    exact sure_plain hk (fun _ => plain_of (by simp) (by simp) (by simp) (by simp))
      fun r hr hk' hi =>
      ⟨(hr rfl).trans (by rw [hk.content]; rfl), hk', hi, offset_snoc rfl⟩
  refine Contract.Sure.seq (hstat hk) ?_
  rintro st h1 ⟨⟨rfl, hk1, hi1, ho1⟩, hw1⟩
  show (history (Benign found data fd stamp most)).Sure (if _ then _ else _) _ _
  rw [if_neg (by simp [hreg]), hsize]
  refine Contract.Sure.seq (silent_sure (digest_sure hk1) plain_digest) ?_
  rintro ok h2 ⟨⟨rfl, hk2, hi2, ho2⟩, hw2⟩
  have hzero : offset fd h2 = ([] : Bytes).length := (ho2.trans ho1).trans hoff
  refine Contract.Sure.seq
    (Contract.Sure.runs (fun _ _ => rfl) (readLoop_sure hL hfile (by omega) hk2 hzero
    List.nil_prefix (by rw [List.length_nil]; omega))) ?_
  rintro moved h3 ⟨⟨rfl, hk3⟩, τ, rfl, hr⟩
  -- what the loop has written is what it has moved
  have hloop : writtenTo .data τ = file := (streamLoop_runs hr).written
  refine Contract.Sure.seq
    (R := fun r h' => (∃ digest, r = some (stamp file, digest) ∧ L.sha256 file = some digest) ∧
    writtenTo .data h' = writtenTo .data (h2 ++ τ)) ?_ ?_
  · refine Contract.Sure.seq (R := fun ok h' => ok = true ∧ h' = h2 ++ τ)
      (Contract.sure_pure ⟨rfl, rfl⟩) ?_
    rintro ok h' ⟨rfl, rfl⟩
    refine Contract.Sure.seq (hstat hk3) ?_
    rintro after h4 ⟨⟨rfl, hk4, -, -⟩, hw4⟩
    show (history (Benign found data fd stamp most)).Sure (if _ then _ else _) _ _
    rw [if_neg (by simp [Stat.sameRuntime, hsize])]
    refine Contract.Sure.seq (silent_sure (digestFinal_sure hL file hk4) (plain_digestFinal file))
      ?_
    rintro digest h5 ⟨⟨rfl, hsome, -, -⟩, hw5⟩
    obtain ⟨digest, hdigest⟩ := Option.isSome_iff_exists.mp hsome
    rw [hdigest]
    exact Contract.sure_pure ⟨⟨digest, rfl, rfl⟩, hw5.trans hw4⟩
  · rintro r h4 ⟨⟨digest, rfl, hdigest⟩, hw4⟩
    refine Contract.sure_pure ⟨⟨digest, rfl, hdigest⟩, ?_⟩
    rw [hw4, writtenTo_append, hloop, hw2, hw1]

end Stream

end Pxeos.Storage
