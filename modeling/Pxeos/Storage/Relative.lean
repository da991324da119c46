import Pxeos.Storage.Owned
import Pxeos.Storage.Guarantees

/-!
# Relative paths, and the stages of different executions

`rx_relative` as its pointer walks over the text, the components it accepts, and why no path is
below the stage of one execution and of another.
-/

namespace Pxeos.Storage

/-! ### The scan -/

/-- The loop of `rx_relative` from the pointer `p` on, after `atoms` components. -/
def scanLoop (atoms : ℕ) (p : Bytes) : Bool :=
  if p = [] then true
  else
    let n := (p.takeWhile (· != slash)).length
    if n = 0 ∨ 255 < n ∨ (n = 1 ∧ p[0]? = some 46) ∨ (n = 2 ∧ p[0]? = some 46 ∧ p[1]? = some 46) ∨
      32 < atoms + 1 then false
    else if (p.take n).any unprintable then false
    else
      match _h : p.dropWhile (· != slash) with
      -- no slash ahead
      | [] => true
      | _ :: rest => scanLoop (atoms + 1) rest
termination_by p.length
decreasing_by
  have hlen := List.IsSuffix.length_le (List.dropWhile_suffix (l := p) (· != slash))
  rw [_h, List.length_cons] at hlen
  omega

/-- `rx_relative` over the bytes of the path; `rxRelative` is the same by components. -/
def scanRelative (path : Bytes) (empty : Bool) : Bool :=
  if 4095 < path.length then false
  else if path = [] then empty
  else if path.head? = some slash ∨ path.getLast? = some slash then false
  else scanLoop 0 path

lemma take_length_takeWhile (f : UInt8 → Bool) (p : Bytes) :
    p.take (p.takeWhile f).length = p.takeWhile f :=
  List.prefix_iff_eq_take.mp (List.takeWhile_prefix f) |>.symm

/-- The tests on the length and the first bytes are tests on the component. -/
lemma scan_tests (p : Bytes) (atoms : ℕ) :
    ((p.takeWhile (· != slash)).length = 0 ∨ 255 < (p.takeWhile (· != slash)).length ∨
        ((p.takeWhile (· != slash)).length = 1 ∧ p[0]? = some 46) ∨
        ((p.takeWhile (· != slash)).length = 2 ∧ p[0]? = some 46 ∧ p[1]? = some 46) ∨
        32 < atoms + 1) ↔
      (p.takeWhile (· != slash) = [] ∨ 255 < (p.takeWhile (· != slash)).length ∨
        p.takeWhile (· != slash) = ascii "." ∨
        p.takeWhile (· != slash) = ascii ".." ∨ 32 < atoms + 1) := by
  obtain ⟨rest, hrest⟩ := List.takeWhile_prefix (l := p) (· != slash)
  generalize p.takeWhile (· != slash) = w at hrest ⊢
  subst hrest
  have h1 : ascii "." = [46] := rfl
  have h2 : ascii ".." = [46, 46] := rfl
  rw [h1, h2]
  match w with
  | [] => simp
  | [a] => simp
  | [a, b] => simp
  | a :: b :: c :: w => simp

lemma splitOn_of_dropWhile_nil {p : Bytes} (h : p.dropWhile (· != slash) = []) :
    p.splitOn slash = [p] := by
  refine List.splitOn_eq_singleton fun hs => ?_
  rw [List.dropWhile_eq_nil_iff] at h
  simpa using h slash hs

/-- A text with a slash ahead, cut there. -/
lemma cut_of_dropWhile_cons {p rest : Bytes} {x : UInt8}
    (h : p.dropWhile (· != slash) = x :: rest) :
    p = p.takeWhile (· != slash) ++ slash :: rest ∧
    p.splitOn slash = p.takeWhile (· != slash) :: rest.splitOn slash := by
  have hx : x = slash := by
    have hhead := List.head?_dropWhile_not (· != slash) p
    rw [h] at hhead
    simpa using hhead
  subst hx
  have hp : p = p.takeWhile (· != slash) ++ slash :: rest := by
    conv_lhs => rw [← List.takeWhile_append_dropWhile (p := (· != slash)) (l := p), h]
  refine ⟨hp, ?_⟩
  have hno : slash ∉ p.takeWhile (· != slash) :=
    fun hmem => by simpa using List.mem_takeWhile_imp hmem
  conv_lhs => rw [hp, List.splitOn_append_cons_self, List.splitOn_eq_singleton hno]
  rfl

/-- **The pointer loop goes over the components.**  A path that ends in a slash is the exception:
the pointer stops before its last component, which is empty. -/
lemma scanLoop_eq {p : Bytes} (atoms : ℕ) (hne : p ≠ []) (hlast : p.getLast? ≠ some slash) :
    scanLoop atoms p = relativeLoop atoms (p.splitOn slash) := by
  induction p using (measure List.length).wf.induction generalizing atoms with
  | _ p ih =>
    rw [scanLoop, if_neg hne]
    simp only [scan_tests, take_length_takeWhile]
    rcases hd : p.dropWhile (· != slash) with _ | ⟨x, rest⟩
    · have hw : p.takeWhile (· != slash) = p := by
        have := List.takeWhile_append_dropWhile (p := (· != slash)) (l := p)
        rwa [hd, List.append_nil] at this
      rw [splitOn_of_dropWhile_nil hd, hw, relativeLoop]
      refine if_congr Iff.rfl rfl (if_congr Iff.rfl rfl ?_)
      rfl
    · obtain ⟨hp, hsplit⟩ := cut_of_dropWhile_cons hd
      have hrest : rest ≠ [] := by
        rintro rfl
        apply hlast
        rw [hp]
        exact List.getLast?_concat
      have hrestlast : rest.getLast? ≠ some slash := by
        intro h
        apply hlast
        rw [hp, List.getLast?_append_of_ne_nil _ (List.cons_ne_nil _ _),
          List.getLast?_cons_of_ne_nil hrest]
        exact h
      have hlen : rest.length < p.length := by
        have := congrArg List.length hp
        rw [List.length_append, List.length_cons] at this
        omega
      rw [hsplit, relativeLoop]
      refine if_congr Iff.rfl rfl (if_congr Iff.rfl rfl ?_)
      exact ih rest hlen (atoms + 1) hrest hrestlast

/-- The path check by components is the scan. -/
theorem rxRelative_eq_scan (path : Bytes) (empty : Bool) :
    rxRelative path empty = scanRelative path empty := by
  unfold rxRelative scanRelative
  split
  · rfl
  · split
    · rfl
    next hne =>
      split
      · rfl
      next hends =>
        rw [not_or] at hends
        exact (scanLoop_eq 0 hne hends.2).symm

/-! ### The components it accepts -/

/-- A component that `rx_relative` accepts. -/
structure GoodComponent (p : Bytes) : Prop where
  nonempty : 1 ≤ p.length
  short : p.length ≤ 255
  notDot : p ≠ ascii "."
  notDotDot : p ≠ ascii ".."
  printable : ∀ b ∈ p, 32 ≤ b.toNat ∧ b.toNat ≠ 127 ∧ b.toNat ≠ 92

lemma any_unprintable (p : Bytes) :
    p.any unprintable = false ↔ ∀ b ∈ p, 32 ≤ b.toNat ∧ b.toNat ≠ 127 ∧ b.toNat ≠ 92 := by
  rw [List.any_eq_false]
  refine forall₂_congr fun b _ => ?_
  simp only [unprintable, Bool.or_eq_true, decide_eq_true_eq, beq_iff_eq, not_or,
    UInt8.lt_iff_toNat_lt, ← UInt8.toNat_inj]
  simp only [UInt8.reduceToNat]
  omega

lemma relativeLoop_iff {atoms : ℕ} {ps : List Bytes} (hatoms : atoms ≤ 32) :
    relativeLoop atoms ps = true ↔ atoms + ps.length ≤ 32 ∧ ∀ p ∈ ps, GoodComponent p := by
  induction ps generalizing atoms with
  | nil => simpa [relativeLoop] using hatoms
  | cons p ps ih =>
    unfold relativeLoop
    constructor
    · intro h
      split at h
      · cases h
      next htests =>
        split at h
        · cases h
        next hany =>
          simp only [not_or] at htests
          obtain ⟨hnil, hlong, hdot, hdots, hcount⟩ := htests
          obtain ⟨hlen, hall⟩ := (ih (by omega)).mp h
          refine ⟨by rw [List.length_cons]; omega, ?_⟩
          intro q hq
          rcases List.mem_cons.mp hq with rfl | hq
          · exact ⟨List.length_pos_iff.mpr hnil, by omega, hdot, hdots,
              (any_unprintable q).mp (by simpa using hany)⟩
          · exact hall q hq
    · rintro ⟨hlen, hall⟩
      rw [List.length_cons] at hlen
      have hp := hall p List.mem_cons_self
      have hnil : p ≠ [] := List.length_pos_iff.mp hp.nonempty
      rw [if_neg, if_neg, ih (by omega)]
      · exact ⟨by omega, fun q hq => hall q (List.mem_cons_of_mem _ hq)⟩
      · rw [(any_unprintable p).mpr hp.printable]
        exact Bool.false_ne_true
      · have := hp.short
        simp only [not_or]
        exact ⟨hnil, by omega, hp.notDot, hp.notDotDot, by omega⟩

lemma splitOn_singleton_slash (p : Bytes) : (slash :: p).splitOn slash = [] :: p.splitOn slash :=
  List.splitOn_append_cons_self [] p

/-- A path with good components has no slash at its ends. -/
lemma ends_of_good {path : Bytes} (h : ∀ p ∈ path.splitOn slash, GoodComponent p) :
    ¬ (path.head? = some slash ∨ path.getLast? = some slash) := by
  have hno : [] ∉ path.splitOn slash := fun hmem => absurd (h [] hmem).nonempty (by simp)
  rintro (hhead | hlast)
  · obtain ⟨rest, rfl⟩ := List.head?_eq_some_iff.mp hhead
    rw [splitOn_singleton_slash] at hno
    exact hno List.mem_cons_self
  · obtain ⟨front, rfl⟩ := List.getLast?_eq_some_iff.mp hlast
    rw [List.splitOn_append_cons_self] at hno
    exact hno (List.mem_append_right _ (by simp))

/-- **What `rx_relative` accepts.** -/
lemma scanRelative_iff (path : Bytes) : scanRelative path false = true ↔
    path.length ≤ 4095 ∧ 1 ≤ (path.splitOn slash).length ∧ (path.splitOn slash).length ≤ 32 ∧
      ∀ p ∈ path.splitOn slash, GoodComponent p := by
  rw [← rxRelative_eq_scan]
  unfold rxRelative
  have hpos : 1 ≤ (path.splitOn slash).length := List.length_pos_iff.mpr (List.splitOn_ne_nil _ _)
  constructor
  · intro h
    split at h
    · cases h
    next hlen =>
      split at h
      · cases h
      · split at h
        · cases h
        · obtain ⟨hcount, hgood⟩ := (relativeLoop_iff (by omega)).mp h
          exact ⟨by omega, hpos, by omega, hgood⟩
  · rintro ⟨hlen, -, hcount, hgood⟩
    have hne : path ≠ [] := by
      rintro rfl
      exact absurd (hgood [] (by simp)).nonempty (by simp)
    rw [if_neg (by omega), if_neg hne, if_neg (ends_of_good hgood), relativeLoop_iff (by omega)]
    exact ⟨by omega, hgood⟩

/-! ### The stages of executions -/

lemma execution_fields {owner : Json} {task target : Bytes} {attempt : ℕ}
    (h : execution owner = some (task, attempt, target)) :
    rxString owner "taskId" 64 = some task ∧ rxU64 owner "executionAttempt" = some attempt := by
  unfold execution at h
  simp only [Option.bind_eq_bind, Option.bind_eq_some_iff] at h
  obtain ⟨domain, -, kind, -, task', htask, nonce, -, target', -, revision, -, attempt',
      hattempt, h⟩ := h
  split at h
  · obtain ⟨rfl, rfl, rfl⟩ : task' = task ∧ attempt' = attempt ∧
      target' = target := by simpa using h
    exact ⟨htask, hattempt⟩
  · cases h

/-- The stage of an accepted context, by the fields of its execution. -/
lemma rxLoadContext_stage {json : Json} {c : Context} (h : rxLoadContext json = some c) :
    ∃ task attempt target, execution c.owner = some (task, attempt, target) ∧
      c.stage = ascii "dev" ++ slash :: (task ++ slash :: decimal attempt) := by
  obtain ⟨server, task, target, attempt, hl⟩ := rxLoadContext_loaded h
  exact ⟨task, attempt, target, hl.fields, hl.stage_eq⟩

lemma components_stage {task : Bytes} (hslash : slash ∉ task) (attempt : ℕ) :
    components (ascii "dev" ++ slash :: (task ++ slash :: decimal attempt)) =
      [ascii "dev", task, decimal attempt] := by
  have hdigits : slash ∉ decimal attempt := by
    intro h
    have := mem_decimal h
    simp [slash] at this
  rw [components_join, components_join]
  unfold components
  rw [List.splitOn_eq_singleton hslash, List.splitOn_eq_singleton hdigits]
  rfl

lemma decimal_injective {m n : ℕ} (h : decimal m = decimal n) : m = n := by
  rw [← digitsValue_decimal m, ← digitsValue_decimal n, h]

/-- Two executions with a path below both of their stages are the same task and attempt. -/
lemma stage_eq_of_contained {json₁ json₂ : Json} {c₁ c₂ : Context}
    (h₁ : rxLoadContext json₁ = some c₁) (h₂ : rxLoadContext json₂ = some c₂) {path : Bytes}
    (hp₁ : contained c₁.stage path = true) (hp₂ : contained c₂.stage path = true) :
    rxString c₁.owner "taskId" 64 = rxString c₂.owner "taskId" 64 ∧
      rxU64 c₁.owner "executionAttempt" = rxU64 c₂.owner "executionAttempt" := by
  obtain ⟨task₁, attempt₁, target₁, hexec₁, hstage₁⟩ := rxLoadContext_stage h₁
  obtain ⟨task₂, attempt₂, target₂, hexec₂, hstage₂⟩ := rxLoadContext_stage h₂
  obtain ⟨-, -, -, hslash₁, -⟩ := execution_ok hexec₁
  obtain ⟨-, -, -, hslash₂, -⟩ := execution_ok hexec₂
  have hin₁ : Inside c₁.stage path := inside_of_contained hp₁
  have hin₂ : Inside c₂.stage path := inside_of_contained hp₂
  unfold Inside at hin₁ hin₂
  rw [hstage₁, components_stage hslash₁] at hin₁
  rw [hstage₂, components_stage hslash₂] at hin₂
  -- both are the first three components of the path
  have heq :=
    List.IsPrefix.eq_of_length (List.prefix_of_prefix_length_le hin₁ hin₂ (by simp)) (by simp)
  obtain ⟨-, htail⟩ := List.cons.inj heq
  obtain ⟨htask, htail⟩ := List.cons.inj htail
  obtain ⟨hattempt, -⟩ := List.cons.inj htail
  rw [(execution_fields hexec₁).1, (execution_fields hexec₂).1, (execution_fields hexec₁).2,
    (execution_fields hexec₂).2, htask,
    decimal_injective hattempt]
  exact ⟨rfl, rfl⟩

/-- **Relative paths and stages**: `rx_relative` accepts exactly the short paths with few and good
components, and no path is in the stages of two accepted contexts that differ in the task or in the
attempt. -/
theorem relative_paths_and_stages :
    (∀ path : Bytes, scanRelative path false = true ↔
      path.length ≤ 4095 ∧ 1 ≤ (path.splitOn slash).length ∧ (path.splitOn slash).length ≤ 32 ∧
        ∀ p ∈ path.splitOn slash, GoodComponent p) ∧
    (∀ (json₁ json₂ : Json) (c₁ c₂ : Context) (path : Bytes), rxLoadContext json₁ = some c₁ →
      rxLoadContext json₂ = some c₂ →
      (rxString c₁.owner "taskId" 64, rxU64 c₁.owner "executionAttempt") ≠
        (rxString c₂.owner "taskId" 64, rxU64 c₂.owner "executionAttempt") →
      ¬ (contained c₁.stage path = true ∧ contained c₂.stage path = true)) := by
  refine ⟨scanRelative_iff, ?_⟩
  rintro json₁ json₂ c₁ c₂ path h₁ h₂ hne ⟨hp₁, hp₂⟩
  obtain ⟨htask, hattempt⟩ := stage_eq_of_contained h₁ h₂ hp₁ hp₂
  exact hne (Prod.ext htask hattempt)

/-- The context of the next attempt of the capture. -/
def retryJson : Json :=
  .object [(ascii "version", .int 1), (ascii "protocol", .string (ascii "nfs")),
    (ascii "server", .string (ascii "10.0.0.1")),
    (ascii "exportPath", .string (ascii "/srv")), (ascii "imagePath", .string (ascii "images/a")),
    (ascii "direction", .string (ascii "write")), (ascii "sequence", .string (ascii "0")),
    (ascii "execution", .object [(ascii "domainId", .string (List.replicate 32 97)),
      (ascii "taskType", .string (ascii "capture")), (ascii "taskId", .string (ascii "t1")),
      (ascii "nonce", .string (List.replicate 32 98)),
        (ascii "targetKey", .string (List.replicate 64 99)),
      (ascii "configRevision", .string (List.replicate 64 100)),
        (ascii "executionAttempt", .int 11)]),
    (ascii "nfsVersion", .string (ascii "4.1")), (ascii "nfsUid", .int 0), (ascii "nfsGid", .int 0)]

def retryContext : Context := (rxLoadContext retryJson).get (by decide +kernel)

/-- The stage of the first attempt is the beginning of the text of the stage of the eleventh. -/
theorem relative_paths_and_stages_retry : scanRelative (ascii "dev/t1/11") false = true ∧
    contained retryContext.stage (ascii "dev/t1/11") = true ∧
    contained captureContext.stage (ascii "dev/t1/11") = false := by
  refine ⟨?_, by decide +kernel, ?_⟩
  · refine (relative_paths_and_stages.1 _).mpr ⟨by decide, by decide, by decide, ?_⟩
    intro p hp
    have hp : p ∈ [ascii "dev", ascii "t1", ascii "11"] := hp
    rcases List.mem_cons.mp hp with rfl | hp
    · exact ⟨by decide, by decide, by decide, by decide, by decide +kernel⟩
    rcases List.mem_cons.mp hp with rfl | hp
    · exact ⟨by decide, by decide, by decide, by decide, by decide +kernel⟩
    · obtain rfl := List.mem_singleton.mp hp
      exact ⟨by decide, by decide, by decide, by decide, by decide +kernel⟩
  · have hne :
        (rxString retryContext.owner "taskId" 64, rxU64 retryContext.owner "executionAttempt") ≠
        (rxString captureContext.owner "taskId" 64,
          rxU64 captureContext.owner "executionAttempt") := by decide +kernel
    have hboth := relative_paths_and_stages.2 retryJson captureJson retryContext captureContext
      (ascii "dev/t1/11")
      (Option.some_get _).symm (Option.some_get _).symm hne
    rw [not_and] at hboth
    exact Bool.eq_false_iff.mpr (hboth (by decide +kernel))

end Pxeos.Storage
