import Pxeos.Lvm.Prepared

/-!
# The facts are prepared once

`rootpxe_lvm_prepare_capture_lv_facts` of `funcs.sh` leaves a group out when
`rootpxe_lvm_capture_lv_facts_prepared` accepts its facts.  It accepts what a preparation publishes,
and nothing that a preparation accepts.
-/

namespace Pxeos.Lvm

open Pxeos.Lib
open Pxeos.Lib.Script (Holds)

/-! ### The check -/

/-- A record with the filesystem is accepted. -/
def preparedRecord (record : Str) : Bool :=
  match record.splitOn '|' with
  | [name, uuid, path, size, fs] => Fact.sound ⟨name, uuid, path, size⟩ && supported fs
  | _ => false

/-- `rootpxe_lvm_capture_lv_facts_prepared`, of facts that can be read. -/
def lvmCaptureLvFactsPrepared (facts : Str) : Bool :=
  records facts != [] && (records facts).all preparedRecord

/-- One turn of the loop of `rootpxe_lvm_prepare_capture_lv_facts`, for a group that is loaded. -/
def prepareGroup (sameText : Str → Str → Bool) (n : ℕ) (ready : Bool) (facts : Str) : Shell Unit :=
  if lvmCaptureLvFactsPrepared facts then pure ()
  else lvmPrepareCaptureLvFactsSingle sameText n true ready facts

/-- What the file of the facts holds. -/
def World.file (facts : Str) (w : World) : Str :=
  match w.facts with
  | some recorded => unlines recorded
  | none => facts

lemma preparedRecord_of_awkFact {record : Str} {f : Fact} (h : awkFact record = some f) :
    preparedRecord record = false := by
  unfold awkFact at h
  split at h
  · rename_i name uuid path size hsplit
    unfold preparedRecord
    rw [hsplit]
  · cases h

/-- What can be prepared is not prepared yet. -/
lemma not_prepared_of_acceptFacts {facts : Str} (h : acceptFacts facts = true) :
    lvmCaptureLvFactsPrepared facts = false := by
  unfold acceptFacts at h
  cases hall : (records facts).mapM awkFact with
  | none =>
    rw [hall] at h
    cases h
  | some fs =>
    have hread := mapM_some hall
    unfold lvmCaptureLvFactsPrepared
    cases hrecords : records facts with
    | nil => rfl
    | cons record others =>
      rw [hrecords] at hread
      cases hread with
      | cons hfirst _ =>
        rw [List.all_cons, preparedRecord_of_awkFact hfirst, Bool.false_and, Bool.and_false]

/-! ### What is published -/

lemma notMem_getD {c : Char} {fields : List Str} (h : ∀ field ∈ fields, c ∉ field) (i : ℕ) :
    c ∉ fields.getD i [] := by
  rw [List.getD_eq_getElem?_getD]
  cases hi : fields[i]? with
  | none => exact List.not_mem_nil
  | some field => exact h field (List.mem_of_getElem? hi)

/-- The fields that are read of a line. -/
lemma readFact_spec {line : Str} {f : Fact} (h : readFact line = some f) :
    f.sound = true ∧ ∀ field ∈ [f.name, f.uuid, f.path, f.size], '|' ∉ field := by
  unfold readFact at h
  dsimp only at h
  split at h
  · rename_i hread
    obtain rfl := Option.some.inj h
    have hsplit : ∀ field ∈ line.splitOn '|', '|' ∉ field := fun field hfield hbar =>
      absurd (not_of_mem_splitOnP hfield _ hbar) (by decide)
    refine ⟨(Bool.and_eq_true_iff.mp hread).1, fun field hfield => ?_⟩
    simp only [List.mem_cons, List.not_mem_nil, or_false] at hfield
    rcases hfield with rfl | rfl | rfl | rfl
    · exact notMem_getD hsplit 0
    · exact notMem_getD hsplit 1
    · exact notMem_getD hsplit 2
    · exact notMem_getD hsplit 3
  · cases h

lemma notMem_of_supported {fs : Str} (h : supported fs = true) : '|' ∉ fs ∧ '\n' ∉ fs := by
  have hall : ∀ w ∈ ["ext2".toList, "ext3".toList, "ext4".toList, "xfs".toList, "swap".toList],
      '|' ∉ w ∧ '\n' ∉ w := by decide
  exact hall fs (List.contains_iff_mem.mp h)

/-- A record is the line of the fact with the filesystem behind it. -/
lemma record_eq (f : Fact) (fs : Str) :
    List.intercalate ['|'] [f.name, f.uuid, f.path, f.size, fs] = f.line ++ '|' :: fs := by
  unfold Fact.line
  simp [List.intercalate_cons_cons]

lemma preparedRecord_of_readFact {f : Fact} {fs : Str} (h : readFact f.line = some f)
    (hsupported : supported fs = true) :
    preparedRecord (List.intercalate ['|'] [f.name, f.uuid, f.path, f.size, fs]) = true := by
  obtain ⟨hsound, hbar⟩ := readFact_spec h
  have hfields : ∀ field ∈ [f.name, f.uuid, f.path, f.size] ++ [fs], '|' ∉ field := by
    intro field hfield
    rcases List.mem_append.mp hfield with hfield | hfield
    · exact hbar field hfield
    · rw [List.mem_singleton.mp hfield]
      exact (notMem_of_supported hsupported).1
  have hsplit : (List.intercalate ['|'] [f.name, f.uuid, f.path, f.size, fs]).splitOn '|' =
      [f.name, f.uuid, f.path, f.size, fs] :=
    List.splitOn_intercalate '|' hfields (List.cons_ne_nil _ _)
  unfold preparedRecord
  rw [hsplit]
  exact Bool.and_eq_true_iff.mpr ⟨hsound, hsupported⟩

/-- The records are lines that are accepted. -/
lemma Covered.records {facts : Str} {w : World} {recorded : List Str}
    (h : Covered facts w recorded) :
    ∀ record ∈ recorded, '\n' ∉ record ∧ preparedRecord record = true := by
  obtain ⟨-, fs, -, hlines, hread, hstage, -⟩ := h
  intro record hrecord
  obtain ⟨f, hf, t, hsupported, -, rfl⟩ := exists_left_of_forall₂ hstage hrecord
  have hline : f.line ∈ endedLines facts := by
    rw [hlines]
    exact List.mem_map_of_mem hf
  refine ⟨?_, preparedRecord_of_readFact (hread f hf) hsupported⟩
  rw [record_eq, List.mem_append, List.mem_cons, not_or, not_or]
  exact ⟨notMem_of_mem_endedLines hline, by decide, (notMem_of_supported hsupported).2⟩

/-- Records of all the facts are accepted, and the facts were not. -/
lemma Covered.prepared {facts : Str} {w : World} {recorded : List Str}
    (h : Covered facts w recorded) :
    lvmCaptureLvFactsPrepared facts = false ∧
    lvmCaptureLvFactsPrepared (unlines recorded) = true := by
  have hrecorded := h.records
  obtain ⟨haccept, fs, hne, -, -, hstage, -⟩ := h
  have hne' : recorded ≠ [] := by
    rintro rfl
    exact hne (List.forall₂_nil_right_iff.mp hstage)
  refine ⟨not_prepared_of_acceptFacts haccept, ?_⟩
  unfold lvmCaptureLvFactsPrepared
  rw [records_unlines fun record hrecord => (hrecorded record hrecord).1, Bool.and_eq_true,
    bne_iff_ne, List.all_eq_true]
  exact ⟨hne', fun record hrecord => (hrecorded record hrecord).2⟩

/-! ### Runs -/

/-- A turn that succeeds leaves facts that are prepared. -/
lemma holds_prepareGroup {sameText : Str → Str → Bool} {n : ℕ} {ready : Bool} {facts : Str}
    {v : Vars} {initial : Str → Bool} {E : ℕ → Vars → World → Prop} :
    Holds (contract facts) (Script.status (prepareGroup sameText n ready facts)) v
      (World.before initial)
      (fun m _ w => Restored w ∧ (m = 0 → lvmCaptureLvFactsPrepared (w.file facts) = true)) E := by
  unfold prepareGroup
  split
  · rename_i hprepared
    exact Script.holds_status (Script.holds_pure ⟨fun _ => rfl, fun _ => hprepared⟩)
  · refine holds_lvmPrepareCaptureLvFactsSingle.mono (fun m _ w h => ⟨h.restored, fun hm => ?_⟩)
      fun _ _ _ h => h
    obtain ⟨-, recorded, hfacts, hcovered⟩ := h.done hm rfl
    unfold World.file
    rw [hfacts]
    exact hcovered.prepared.2

/-- **A group is prepared once.**  In every run of a turn: when the facts are replaced, they were
not prepared yet, and the new ones are. In the end the volumes are as before unless a deactivation
has failed, and if the turn succeeds, the next one does nothing. -/
theorem prepareGroup_once (sameText : Str → Str → Bool) (n : ℕ) (ready : Bool) (facts : Str)
    (v : Vars) (initial : Str → Bool) {τ : List (Sigma Answer)} {o : Option (Except ℕ ℕ × Vars)}
    (hr : Prog.Runs (Script.status (prepareGroup sameText n ready facts) v) τ o)
    (hanswers : (contract facts).Along World.Answers (World.before initial) τ) :
    (∀ e ∈ τ, ∀ recorded, e.1 = .publish recorded →
      lvmCaptureLvFactsPrepared facts = false ∧
      lvmCaptureLvFactsPrepared (unlines recorded) = true) ∧
    ∀ m v', o = some (.ok m, v') → Restored ((contract facts).after (World.before initial) τ) ∧
      (m = 0 →
        prepareGroup sameText n ready
          (((contract facts).after (World.before initial) τ).file facts) = pure ()) := by
  have hsafe : Holds (contract facts) (Script.status (prepareGroup sameText n ready facts)) v
      (World.before initial)
      (fun m _ w => Restored w ∧ (m = 0 → lvmCaptureLvFactsPrepared (w.file facts) = true))
        fun _ _ _ => True := holds_prepareGroup
  obtain ⟨hmet, hend⟩ := hsafe.along hr hanswers
  refine ⟨fun e he recorded hpublish => ?_, fun m v' ho => ?_⟩
  · obtain ⟨pre, post, rfl⟩ := List.append_of_mem he
    obtain ⟨c, r⟩ := e
    obtain rfl : c = .publish recorded := hpublish
    have hcovered : Covered facts _ recorded := (Contract.Along.append _ hmet).2.1.2
    exact hcovered.prepared
  · obtain ⟨hrestored, hprepared⟩ := hend _ ho
    exact ⟨hrestored, fun hm => if_pos (hprepared hm)⟩

def groupRun : List (Sigma Answer) × Option (Except ℕ ℕ × Vars) :=
  (Script.status (prepareGroup (fun s t => s = t) 1 true sampleFacts) Vars.fresh).exec
    (sampleEnv none) []

/-- The facts of the sample are replaced, and then the group is left out. -/
theorem prepareGroup_once_sample :
    (∃ e ∈ groupRun.1, e.1 = .publish ["root|R1|/dev/vg/root|2048|ext4".toList,
      "swap|S1|/dev/vg/swap|1024|swap".toList]) ∧
      groupRun.2 = some (.ok 0, ⟨[], [], 2⟩) ∧
      prepareGroup (fun s t => s = t) 1 true
        (((contract sampleFacts).after (World.before sampleInitial) groupRun.1).file sampleFacts) =
        pure () := by
  have hanswers : (contract sampleFacts).Along World.Answers
      (World.before sampleInitial) groupRun.1 :=
    Contract.along_exec _ (sampleEnv_answers none) _ []
  have hend : groupRun.2 = some (.ok 0, ⟨[], [], 2⟩) := by decide +kernel
  refine ⟨by decide +kernel, hend, ?_⟩
  exact ((prepareGroup_once _ _ _ _ _ _ (Prog.runs_exec (sampleEnv none) _ []) hanswers).2
    0 _ hend).2 rfl

end Pxeos.Lvm
