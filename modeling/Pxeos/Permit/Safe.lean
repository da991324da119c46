import Pxeos.Permit.Binding
import Mathlib.Data.List.Nodup

/-!
# What a permit allows

The calls of a task one after another, in any order, with any answers.  Beside the state of the
script, a run knows what the server has granted since the last reset.  A binding is verified only
for what was granted.
-/

namespace Pxeos.Permit

open Pxeos.Lib

/-! ### Runs -/

/-- A call, with what the system and the server answer. -/
inductive Event where
  | request (target op : Str) (q : Request)
  | batch (args : List Str) (q : BatchRequest)
  | record (disk target op : Str) (made readable appended : Bool)
  | activate (disk op : Str) (look : Look)
  | clear
  | reset (owned removed : Bool)

/-- What an answer about one disk grants. -/
def Reply.grants (r : Reply) : List (Str × Str) :=
  match r.granted, r.targetId, r.operation with
  | some true, some target, some op => [(target, op)]
  | _, _, _ => []

/-- What an answer about several disks grants. -/
def BatchReply.grants (r : BatchReply) : List (Str × Str) :=
  if r.granted = some true then
    (r.targets.getD []).filterMap fun t => match t with
      | (some id, some op) => some (id, op)
      | _ => none
  else []

/-- The task: the state of the script, and what was granted since the last reset. -/
structure Task where
  state : State
  grants : List (Str × Str)

def Task.initial : Task := ⟨.empty, []⟩

/-- The answers to what is sent. -/
def Request.answer (q : Request) : Option Reply :=
  if q.context && q.api && q.capabilities then q.reply else none

def BatchRequest.answer (q : BatchRequest) : Option BatchReply :=
  if q.context && q.jq && q.api && q.capabilities then q.reply else none

/-- The task after a call. -/
def Task.step (sameNumber : Str → Str → Bool) (t : Task) : Event → Task
  | .request target op q =>
    ⟨(rootpxeRequestDiskPermitForTarget t.state target op q).1,
      (q.answer.map Reply.grants).getD [] ++ t.grants⟩
  | .batch args q =>
    ⟨(rootpxeRequestDiskPermitBatch t.state args q).1,
      (q.answer.map BatchReply.grants).getD [] ++ t.grants⟩
  | .record disk target op made readable appended =>
    ⟨(rootpxeRecordDiskPermitBinding sameNumber t.state disk target op made readable appended).1,
      t.grants⟩
  | .activate disk op look =>
    ⟨(rootpxeActivateDiskPermitBinding sameNumber t.state disk op look).1, t.grants⟩
  | .clear => ⟨rootpxeClearDiskPermit t.state, t.grants⟩
  | .reset owned removed =>
    let r := rootpxeResetDiskPermitRetryState t.state owned removed
    ⟨r.1, if r.2 then [] else t.grants⟩

/-- The task after a run. -/
def Task.run (sameNumber : Str → Str → Bool) (events : List Event) : Task :=
  events.foldl (Task.step sameNumber) .initial

/-! ### What holds -/

/-- A binding that is verified is the only one of its disk, is for the disk that is there, and was
granted. -/
def Verified (sameNumber : Str → Str → Bool) (t : Task) : Prop :=
  ∀ disk op look, rootpxeVerifyDiskPermitBinding sameNumber t.state disk op look = true →
    ∃ map id mapped, t.state.map = some map ∧ (mapRows map).filter (fun r => field r 1 == disk) =
      [[disk, id, mapped]] ∧
      look.identity = some id ∧
        (mapped = op ∨ (mapped = nvmeFormatDeployWrite ∧ op = deployWrite)) ∧
          (id, mapped) ∈ t.grants

/-- No two rows of the map have the same disk or the same identity. -/
def Distinct (t : Task) : Prop :=
  ∀ map, t.state.map = some map → ((mapRows map).map (field · 1)).Nodup ∧
    ((mapRows map).map (field · 2)).Nodup

/-- The texts of a call are kept as they are: a disk has nothing in its name that ends a field or a
row or is an escape, and what is granted has no NUL and no newline at its end. -/
def Event.Plain : Event → Prop
  | .record disk _ _ _ _ _ => '\\' ∉ disk ∧ '\t' ∉ disk ∧ '\n' ∉ disk
  | .request _ _ q =>
    ∀ r, q.reply = some r → ∀ p ∈ r.grants, captured p.1 = p.1 ∧ captured p.2 = p.2
  | _ => True

/-- The rows of the map, with what is known of them. -/
structure Rows (map : Str) (rows : List (Str × Str × Str)) : Prop where
  text : map = unlines (rows.map fun r => row r.1 r.2.1 r.2.2)
  plain : ∀ r ∈ rows, ('\t' ∉ r.1 ∧ '\n' ∉ r.1) ∧ isTargetId r.2.1 = true ∧ isOperation r.2.2 = true
  disks : (rows.map (·.1)).Nodup
  targets : (rows.map (·.2.1)).Nodup

/-- What every call preserves. -/
structure Sound (t : Task) : Prop where
  rows : ∀ map, t.state.map = some map → ∃ rows, Rows map rows
  granted : t.state.granted = true → (t.state.targetId, t.state.operation) ∈ t.grants
  bindings : ∀ b, t.state.bindings = some b → ∀ p ∈ b, p ∈ t.grants

/-! ### Rows -/

lemma targetChar_notMem {c : Char} (hc : isTargetChar c = false) {s : Str}
    (h : isTargetId s = true) : c ∉ s := by
  cases s with
  | nil => cases h
  | cons a s =>
    unfold isTargetId at h
    rw [Bool.and_eq_true] at h
    have ha : isTargetChar a = true := by
      unfold isTargetChar
      simp [h.1]
    intro hmem
    rcases List.mem_cons.mp hmem with rfl | hmem
    · rw [hc] at ha
      cases ha
    · have := List.all_eq_true.mp h.2 c hmem
      rw [hc] at this
      cases this

lemma operation_notMem {c : Char} (h1 : c ∉ captureReadWrite) (h2 : c ∉ deployWrite)
    (h3 : c ∉ nvmeFormatDeployWrite) {s : Str} (h : isOperation s = true) : c ∉ s := by
  simp only [isOperation, Bool.or_eq_true, beq_iff_eq] at h
  rcases h with (rfl | rfl) | rfl
  · exact h1
  · exact h2
  · exact h3

lemma Rows.mapRows {map : Str} {rows : List (Str × Str × Str)} (h : Rows map rows) :
    mapRows map = rows.map fun r => [r.1, r.2.1, r.2.2] := by
  unfold Permit.mapRows
  have hlines : ∀ l ∈ rows.map (fun r => row r.1 r.2.1 r.2.2), '\n' ∉ l := by
    intro l hl
    obtain ⟨r, hr, rfl⟩ := List.mem_map.mp hl
    obtain ⟨⟨-, hd⟩, ht, ho⟩ := h.plain r hr
    have h1 : '\n' ∉ r.2.1 := targetChar_notMem (by decide) ht
    have h2 : '\n' ∉ r.2.2 := operation_notMem (by decide) (by decide) (by decide) ho
    simp [row, hd, h1, h2]
  rw [h.text, records_unlines hlines, List.map_map]
  refine List.map_congr_left fun r hr => ?_
  obtain ⟨⟨hd, -⟩, ht, ho⟩ := h.plain r hr
  exact tabFields_three hd (targetChar_notMem (by decide) ht)
    (operation_notMem (by decide) (by decide) (by decide) ho)

lemma Rows.distinct {map : Str} {rows : List (Str × Str × Str)} (h : Rows map rows) :
    ((Permit.mapRows map).map (field · 1)).Nodup ∧
    ((Permit.mapRows map).map (field · 2)).Nodup := by
  rw [h.mapRows, List.map_map, List.map_map]
  exact ⟨h.disks, h.targets⟩

lemma rows_nil : Rows [] [] := ⟨rfl, (fun r hr => by cases hr), List.nodup_nil, List.nodup_nil⟩

/-- One more row, of a disk and an identity that are not in the map. -/
lemma Rows.concat {map disk target op : Str} {rows : List (Str × Str × Str)} (h : Rows map rows)
    (hdisk : '\t' ∉ disk ∧ '\n' ∉ disk) (htarget : isTargetId target = true)
    (hop : isOperation op = true) (hd : disk ∉ rows.map (·.1)) (ht : target ∉ rows.map (·.2.1)) :
    Rows (map ++ (row disk target op ++ ['\n'])) (rows ++ [(disk, target, op)]) := by
  constructor
  · rw [h.text]
    simp [unlines]
  · intro r hr
    rcases List.mem_append.mp hr with hr | hr
    · exact h.plain r hr
    · rw [List.mem_singleton.mp hr]
      exact ⟨hdisk, htarget, hop⟩
  · rw [List.map_append, List.nodup_append]
    refine ⟨h.disks, List.nodup_singleton _, fun a ha b hb => ?_⟩
    rw [List.map_singleton, List.mem_singleton] at hb
    rintro rfl
    rw [hb] at ha
    exact hd ha
  · rw [List.map_append, List.nodup_append]
    refine ⟨h.targets, List.nodup_singleton _, fun a ha b hb => ?_⟩
    rw [List.map_singleton, List.mem_singleton] at hb
    rintro rfl
    rw [hb] at ha
    exact ht ha

/-! ### Verification -/

section Verify

variable {sameNumber : Str → Str → Bool} {t : Task}

/-- What a successful verification has looked at. -/
lemma verify_spec {s : State} {disk op : Str} {look : Look}
    (h : rootpxeVerifyDiskPermitBinding sameNumber s disk op look = true) :
    ∃ map id mapped, s.map = some map ∧ verifiedRow sameNumber (mapRows map) disk = some
      [disk, id, mapped] ∧
      look.identity = some id ∧ allows mapped op = true ∧ isGranted s look id mapped = true := by
  unfold rootpxeVerifyDiskPermitBinding at h
  split at h
  · cases h
  next map hmap =>
    have hmap' : s.map = some map := by
      split at hmap
      · exact hmap
      · cases hmap
    split at h
    next mapDisk id mapped hrow =>
      simp only [Bool.and_eq_true, decide_eq_true_eq] at h
      obtain ⟨⟨⟨⟨rfl, -⟩, hid⟩, hallows⟩, hgranted⟩ := h
      exact ⟨map, id, mapped, hmap', hrow, hid, hallows, hgranted⟩
    next => cases h

/-- The row of a disk is the only one that `awk` matches. -/
lemma verifiedRow_spec {rows : List (List Str)} {disk : Str} {r : List Str}
    (h : verifiedRow sameNumber rows disk = some r) :
    rows.filter (fun r => awkEqual sameNumber (field r 1) (unescape disk)) = [r] := by
  unfold verifiedRow at h
  split at h
  · cases h
  · split at h
    next r' hr =>
      obtain rfl := Option.some.inj h
      exact hr
    next => cases h

/-- A disk whose row is matched is spelled without escapes, and has no other row. -/
lemma verifiedRow_only {map disk id mapped : Str} {rows : List (Str × Str × Str)}
    (hrows : Rows map rows)
    (h : verifiedRow sameNumber (mapRows map) disk = some [disk, id, mapped]) :
    (mapRows map).filter (fun r => field r 1 == disk) = [[disk, id, mapped]] := by
  have hfilter := verifiedRow_spec h
  have hmem : [disk, id, mapped] ∈ mapRows map := by
    have : [disk, id, mapped] ∈ (mapRows map).filter fun r =>
        awkEqual sameNumber (field r 1) (unescape disk) := by
      rw [hfilter]
      exact List.mem_singleton_self _
    exact (List.mem_filter.mp this).1
  -- the disks differ, so that a row of this disk is the one that was matched
  have hnodup := hrows.distinct.1
  obtain ⟨pre, post, hsplit⟩ := List.append_of_mem hmem
  rw [hsplit] at hnodup ⊢
  rw [List.map_append, List.map_cons, List.nodup_append] at hnodup
  obtain ⟨-, hpost, hpre⟩ := hnodup
  rw [List.nodup_cons] at hpost
  have hpre' : pre.filter (fun r => field r 1 == disk) = [] := by
    refine List.filter_eq_nil_iff.mpr fun r hr he => ?_
    exact hpre (field r 1) (List.mem_map_of_mem hr) disk List.mem_cons_self (by simpa using he)
  have hpost' : post.filter (fun r => field r 1 == disk) = [] := by
    refine List.filter_eq_nil_iff.mpr fun r hr he => ?_
    refine hpost.1 ?_
    have he : field r 1 = disk := by simpa using he
    show disk ∈ _
    rw [← he]
    exact List.mem_map_of_mem hr
  have hself : (field [disk, id, mapped] 1 == disk) = true := by simp [field]
  rw [List.filter_append, List.filter_cons, hpre', hpost', if_pos hself]
  rfl

lemma isGranted_mem {look : Look} (h : Sound t) {id op : Str}
    (hg : isGranted t.state look id op = true) : (id, op) ∈ t.grants := by
  unfold isGranted at hg
  split at hg
  next b hb =>
    have hb' : t.state.bindings = some b := by
      split at hb
      · exact hb
      · cases hb
    exact h.bindings b hb' _ (by simpa using hg)
  next =>
    simp only [Bool.and_eq_true, beq_iff_eq] at hg
    obtain ⟨⟨hg, rfl⟩, rfl⟩ := hg
    exact h.granted hg

lemma allows_spec {mapped op : Str} (h : allows mapped op = true) :
    mapped = op ∨ (mapped = nvmeFormatDeployWrite ∧ op = deployWrite) := by
  simpa [allows] using h

/-- **A sound task verifies only what was granted.** -/
lemma Sound.verified (h : Sound t) : Verified sameNumber t := by
  intro disk op look hv
  obtain ⟨map, id, mapped, hmap, hrow, hid, hallows, hgranted⟩ := verify_spec hv
  obtain ⟨rows, hrows⟩ := h.rows map hmap
  exact ⟨map, id, mapped, hmap, verifiedRow_only hrows hrow, hid, allows_spec hallows,
    isGranted_mem h hgranted⟩

lemma Sound.distinct (h : Sound t) : Distinct t := by
  intro map hmap
  obtain ⟨rows, hrows⟩ := h.rows map hmap
  exact hrows.distinct

end Verify

/-! ### Calls -/

section Calls

variable {sameNumber : Str → Str → Bool} {t : Task}

lemma sound_initial : Sound .initial :=
  ⟨(fun _ h => by cases h), (fun h => by cases h), (fun _ h => by cases h)⟩

/-- More may have been granted. -/
lemma Sound.grow {grants : List (Str × Str)} (h : Sound t) (hsub : ∀ p ∈ t.grants, p ∈ grants) :
    Sound ⟨t.state, grants⟩ :=
  ⟨h.rows, fun hg => hsub _ (h.granted hg), fun b hb p hp => hsub p (h.bindings b hb p hp)⟩

lemma Sound.clear (h : Sound t) (grants : List (Str × Str)) :
    Sound ⟨rootpxeClearDiskPermit t.state, grants⟩ :=
  ⟨h.rows, (fun hg => by cases hg), (fun _ hb => by cases hb)⟩

/-- The reason is not part of a permit. -/
lemma Sound.reason (h : Sound t) (r : Reason) : Sound ⟨{ t.state with reason := r }, t.grants⟩ :=
  ⟨h.rows, h.granted, h.bindings⟩

lemma Sound.setReason (h : Sound t) (code : Option Str) (httpCode : Str) :
    Sound ⟨rootpxeSetDiskPermitReason t.state code httpCode, t.grants⟩ := by
  unfold rootpxeSetDiskPermitReason
  simp only
  split
  · exact h.reason _
  · exact h.reason _

lemma Sound.answered (h : Sound t) {target op : Str} {jq : Bool} {r : Reply}
    (hplain : ∀ p ∈ r.grants, captured p.1 = p.1 ∧ captured p.2 = p.2)
    (hsub : ∀ p ∈ r.grants, p ∈ t.grants) :
    Sound ⟨(answered t.state target op jq r).1, t.grants⟩ := by
  unfold Permit.answered
  split
  · exact h.reason _
  split
  · exact h.reason _
  · exact h.setReason _ _
  next hgranted =>
    split
    next echoedTarget echoedOperation htarget hoperation =>
      split
      · have hmem : (echoedTarget, echoedOperation) ∈ r.grants := by
          unfold Reply.grants
          rw [hgranted, htarget, hoperation]
          exact List.mem_singleton_self _
        obtain ⟨h1, h2⟩ := hplain _ hmem
        refine ⟨h.rows, fun _ => ?_, h.bindings⟩
        show (captured echoedTarget, captured echoedOperation) ∈ t.grants
        simp only at h1 h2
        rw [h1, h2]
        exact hsub _ hmem
      · exact h.reason _
    next => exact h.reason _

lemma Sound.received (h : Sound t) {target op : Str} {jq : Bool} {r : Reply}
    (hplain : ∀ p ∈ r.grants, captured p.1 = p.1 ∧ captured p.2 = p.2)
    (hsub : ∀ p ∈ r.grants, p ∈ t.grants) :
    Sound ⟨(received t.state target op jq r).1, t.grants⟩ := by
  unfold Permit.received
  split
  · exact h.reason _
  split
  · exact h
  split
  · exact h.answered hplain hsub
  split
  · exact h.setReason _ _
  · exact h.reason _

lemma Sound.request (h : Sound t) (target op : Str) {q : Request}
    (hplain : (Event.request target op q).Plain) :
    Sound (t.step sameNumber (.request target op q)) := by
  have hc :
      Sound ⟨rootpxeClearDiskPermit t.state, (q.answer.map Reply.grants).getD [] ++ t.grants⟩ :=
        h.clear _
  show Sound ⟨(rootpxeRequestDiskPermitForTarget t.state target op q).1, _⟩
  unfold rootpxeRequestDiskPermitForTarget
  simp only
  split
  · exact hc
  next hcontext =>
    split
    · exact hc
    next hapi =>
      split
      · exact hc
      next hcapabilities =>
        split
        · exact hc
        next r hreply =>
          have hanswer : q.answer = some r := by
            unfold Request.answer
            simp only [Bool.not_eq_true', Bool.not_eq_false] at hcontext hapi hcapabilities
            rw [hcontext, hapi, hcapabilities, hreply]
            rfl
          refine hc.received (hplain r hreply) fun p hp => ?_
          show p ∈ (q.answer.map Reply.grants).getD [] ++ t.grants
          rw [hanswer]
          exact List.mem_append_left _ hp

lemma targetPairs_grants {targets : List (Option Str × Option Str)} {pairs : List (Str × Str)}
    (h : targetPairs targets = some pairs) {p : Str × Str} (hp : p ∈ pairs) :
    p ∈ targets.filterMap fun t => match t with
      | (some id, some op) => some (id, op)
      | _ => none := by
  unfold targetPairs at h
  induction targets generalizing pairs with
  | nil =>
    obtain rfl := Option.some.inj h
    cases hp
  | cons a targets ih =>
    simp only [List.mapM_cons, Option.bind_eq_bind, Option.bind_eq_some_iff, Option.pure_def,
      Option.some.injEq] at h
    obtain ⟨q, ⟨id, hid, op, hop, rfl⟩, rest, hrest, rfl⟩ := h
    obtain ⟨x, y⟩ := a
    simp only at hid hop
    subst hid hop
    rw [List.filterMap_cons]
    rcases List.mem_cons.mp hp with rfl | hp
    · exact List.mem_cons_self
    · exact List.mem_cons_of_mem _ (ih hrest hp)

lemma Sound.kept (h : Sound t) {expected : List (Str × Str)} {r : BatchReply} {stored : Bool}
    (hgranted : r.granted = some true) (hsub : ∀ p ∈ r.grants, p ∈ t.grants) :
    Sound ⟨(kept t.state expected r stored).1, t.grants⟩ := by
  unfold Permit.kept
  split
  · exact h.reason _
  next actual hactual =>
    split
    · split
      · refine ⟨h.rows, h.granted, fun b hb p hp => hsub p ?_⟩
        obtain rfl := Option.some.inj hb
        rw [List.mem_mergeSort] at hp
        obtain ⟨targets, htargets, hpairs⟩ := Option.bind_eq_some_iff.mp hactual
        unfold BatchReply.grants
        rw [if_pos hgranted, htargets]
        exact targetPairs_grants hpairs hp
      · exact h
    · exact h.reason _

lemma Sound.batchReceived (h : Sound t) {items : List (Str × Str)} {r : BatchReply} {stored : Bool}
    (hsub : ∀ p ∈ r.grants, p ∈ t.grants) :
    Sound ⟨(batchReceived t.state items r stored).1, t.grants⟩ := by
  unfold Permit.batchReceived
  split
  · exact h.reason _
  split
  · exact h
  split
  · split
    next hgranted => exact h.kept hgranted hsub
    next => exact h.reason _
  split
  · exact h.setReason _ _
  · exact h.reason _

lemma Sound.batch (h : Sound t) (args : List Str) (q : BatchRequest) :
    Sound (t.step sameNumber (.batch args q)) := by
  have hc : Sound ⟨t.state, (q.answer.map BatchReply.grants).getD [] ++ t.grants⟩ :=
    h.grow fun p hp => List.mem_append_right _ hp
  show Sound ⟨(rootpxeRequestDiskPermitBatch t.state args q).1, _⟩
  unfold rootpxeRequestDiskPermitBatch
  split
  · exact hc
  next items hitems =>
    split
    · exact hc
    next hcontext =>
      split
      · exact hc
      next hjq =>
        split
        · exact hc
        next hapi =>
          split
          · exact hc
          next hcapabilities =>
            split
            · exact hc
            split
            · exact hc
            next r hreply =>
              have hanswer : q.answer = some r := by
                unfold BatchRequest.answer
                simp only [Bool.not_eq_true', Bool.not_eq_false] at hcontext hjq hapi hcapabilities
                rw [hcontext, hjq, hapi, hcapabilities, hreply]
                rfl
              refine hc.batchReceived fun p hp => ?_
              show p ∈ (q.answer.map BatchReply.grants).getD [] ++ t.grants
              rw [hanswer]
              exact List.mem_append_left _ hp

lemma Sound.record (h : Sound t) {disk target op : Str} {made readable appended : Bool}
    (hplain : '\\' ∉ disk ∧ '\t' ∉ disk ∧ '\n' ∉ disk) :
    Sound (t.step sameNumber (.record disk target op made readable appended)) := by
  show Sound
    ⟨(rootpxeRecordDiskPermitBinding sameNumber t.state disk target op made readable appended).1, _⟩
  unfold rootpxeRecordDiskPermitBinding
  split
  · exact h
  next hargs =>
    split
    · exact h
    next map hmap =>
      have hrows : ∃ rows, Rows map rows := by
        split at hmap
        · cases hm : t.state.map with
          | none =>
            rw [hm] at hmap
            obtain rfl : [] = map := Option.some.inj hmap
            exact ⟨[], rows_nil⟩
          | some m =>
            rw [hm] at hmap
            obtain rfl : m = map := Option.some.inj hmap
            exact h.rows m hm
        · exact h.rows map hmap
      have hsame : Sound ⟨{ t.state with map := some map }, t.grants⟩ := by
        refine ⟨fun m hm => ?_, h.granted, h.bindings⟩
        obtain rfl : map = m := Option.some.inj hm
        exact hrows
      simp only
      split
      · exact hsame
      split
      · exact hsame
      next hfree =>
        split
        · exact hsame
        · obtain ⟨rows, hr⟩ := hrows
          simp only [Bool.not_eq_true, Bool.not_eq_false', Bool.and_eq_true,
            isShortTargetId] at hargs
          refine ⟨fun m hm => ?_, h.granted, h.bindings⟩
          obtain rfl := Option.some.inj hm
          -- no row has this disk or this identity, as `awk` compares them
          have hnone : ∀ r ∈ rows, r.1 ≠ disk ∧ r.2.1 ≠ target := by
            intro r hmem
            have hnot : ¬ _ := hfree
            rw [hr.mapRows, List.any_map, List.any_eq_true] at hnot
            push Not at hnot
            have := hnot r hmem
            have hslash : '\\' ∉ target := targetChar_notMem (by decide) hargs.1.2.1
            simp only [Function.comp, field, unescape_of_notMem hplain.1, unescape_of_notMem hslash,
              awkEqual] at this
            constructor
            · rintro rfl
              simp at this
            · rintro rfl
              simp at this
          refine ⟨_, hr.concat hplain.2 hargs.1.2.1 hargs.2 ?_ ?_⟩
          · intro hmem
            obtain ⟨r, hr', heq⟩ := List.mem_map.mp hmem
            exact (hnone r hr').1 heq
          · intro hmem
            obtain ⟨r, hr', heq⟩ := List.mem_map.mp hmem
            exact (hnone r hr').2 heq

lemma Sound.activate (h : Sound t) (disk op : Str) (look : Look) :
    Sound (t.step sameNumber (.activate disk op look)) := by
  show Sound ⟨(rootpxeActivateDiskPermitBinding sameNumber t.state disk op look).1, _⟩
  unfold rootpxeActivateDiskPermitBinding
  split
  · exact h
  next hv =>
    obtain ⟨map, id, mapped, hmap, hrow, -, -, hgranted⟩ := verify_spec (by simpa using hv)
    have hfilter := verifiedRow_spec hrow
    split
    next mapDisk mappedId mappedOperation hfind =>
      split
      · -- the row that is found is the one that was verified
        rw [hmap, Option.getD_some] at hfind
        rw [← List.head?_filter, hfilter, List.head?_cons, Option.some.injEq] at hfind
        simp only [List.cons.injEq, and_true] at hfind
        obtain ⟨-, rfl, rfl⟩ := hfind
        exact ⟨h.rows, fun _ => isGranted_mem h hgranted, h.bindings⟩
      · exact h
    next => exact h

lemma Sound.reset (h : Sound t) (owned removed : Bool) :
    Sound (t.step sameNumber (.reset owned removed)) := by
  show Sound ⟨(rootpxeResetDiskPermitRetryState t.state owned removed).1, _⟩
  unfold rootpxeResetDiskPermitRetryState
  split
  · split
    · exact ⟨(fun _ hm => by cases hm), (fun hg => by cases hg), (fun _ hb => by cases hb)⟩
    · exact h
  · exact h.clear _

/-- **Every call keeps a task sound.** -/
lemma Sound.step (h : Sound t) {e : Event} (he : e.Plain) : Sound (t.step sameNumber e) := by
  cases e with
  | request target op q => exact h.request target op he
  | batch args q => exact h.batch args q
  | record disk target op made readable appended => exact h.record he
  | activate disk op look => exact h.activate disk op look
  | clear => exact h.clear _
  | reset owned removed => exact h.reset owned removed

lemma sound_run {events : List Event} (h : ∀ e ∈ events, e.Plain) (ht : Sound t) :
    Sound (events.foldl (Task.step sameNumber) t) := by
  induction events generalizing t with
  | nil => exact ht
  | cons e events ih =>
    exact ih (fun x hx => h x (List.mem_cons_of_mem _ hx)) (ht.step (h e List.mem_cons_self))

end Calls

/-- **What is verified was granted**, in every run whose texts are kept as they are. -/
theorem run_verified (sameNumber : Str → Str → Bool) (events : List Event)
    (h : ∀ e ∈ events, e.Plain) :
    Verified sameNumber (Task.run sameNumber events) ∧ Distinct (Task.run sameNumber events) := by
  have hsound : Sound (Task.run sameNumber events) := sound_run h sound_initial
  exact ⟨hsound.verified, hsound.distinct⟩

/-- A permit for one disk that is granted, and the disk with it. -/
def grantedRun : List Event :=
  [.request (text "wwn-1") deployWrite ⟨true, true, true, true,
      some ⟨text "200", some true, some (text "wwn-1"), some deployWrite, none, false⟩⟩,
    .record (text "/dev/sda") (text "wwn-1") deployWrite true true true]

/-- It is verified for the disk, and it was granted. -/
theorem run_verified_granted :
    rootpxeVerifyDiskPermitBinding (fun _ _ => false) (Task.run (fun _ _ => false) grantedRun).state
      (text "/dev/sda") deployWrite
      ⟨some (text "wwn-1"), true, true⟩ = true ∧
      ∃ mapped, (text "wwn-1", mapped) ∈ (Task.run (fun _ _ => false) grantedRun).grants := by
  have hplain : ∀ e ∈ grantedRun, e.Plain := by
    intro e he
    simp only [grantedRun, List.mem_cons, List.not_mem_nil, or_false] at he
    rcases he with rfl | rfl
    · intro r hr p hp
      obtain rfl := Option.some.inj hr
      rw [List.mem_singleton.mp hp]
      decide
    · show '\\' ∉ _ ∧ _
      decide
  have hverified := (run_verified (fun _ _ => false) grantedRun hplain).1
  have h : rootpxeVerifyDiskPermitBinding (fun _ _ => false)
      (Task.run (fun _ _ => false) grantedRun).state (text "/dev/sda")
      deployWrite ⟨some (text "wwn-1"), true, true⟩ = true := by decide +kernel
  obtain ⟨map, id, mapped, -, -, hid, -, hmem⟩ := hverified _ _ _ h
  obtain rfl : text "wwn-1" = id := Option.some.inj hid
  exact ⟨h, mapped, hmem⟩

/-- A disk with an escape in its name, as `udev` writes a blank, is recorded twice. -/
def escapedRun : List Event :=
  [.record (text "/dev/disk/by-label/a\\x20b") (text "wwn-1") deployWrite true true true,
    .record (text "/dev/disk/by-label/a\\x20b") (text "wwn-2") deployWrite true true true]

/-- The map has two rows of it. -/
theorem run_two_rows : ¬ Distinct (Task.run (fun _ _ => false) escapedRun) := by
  intro h
  have hrows := (h _ rfl).1
  revert hrows
  decide +kernel

end Pxeos.Permit
