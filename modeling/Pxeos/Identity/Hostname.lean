import Pxeos.Identity.Hive
import Mathlib.Data.List.Flatten
import Mathlib.Tactic.IntervalCases

/-!
# What is written is what is verified

The lookups of the writer and of the verifier are the same; a lookup goes by the names on the way,
and setting a value changes no name.  So the verifier finds in the new hive what the writer has
named in the old one.
-/

namespace Pxeos.Identity

open Pxeos.Storage (Bytes ascii)

/-! ### Lookups -/

lemma asciiCaseEqual_iff {a e : Bytes} : asciiCaseEqual a e = true ↔ a.map lower = e.map lower := by
  induction a generalizing e with
  | nil => cases e <;> simp [asciiCaseEqual]
  | cons x a ih =>
    cases e with
    | nil => simp [asciiCaseEqual]
    | cons y e => simp [asciiCaseEqual, ih]

section Unique

variable {α : Type} {name : α → Option Bytes} {expected : Bytes}

/-- The name that is returned is that of the item, in some spelling. -/
lemma uniqueCi_spec {r : Option (α × Bytes)} {l : List α} {x : α} {n : Bytes}
    (hr : ∀ y m, r = some (y, m) → name y = some m ∧ asciiCaseEqual m expected = true)
    (h : uniqueCi name expected r l = some (x, n)) :
    name x = some n ∧ asciiCaseEqual n expected = true := by
  induction l generalizing r with
  | nil => exact hr x n h
  | cons y l ih =>
    unfold uniqueCi at h
    split at h
    · cases h
    next m hm =>
      split at h
      next hci =>
        split at h
        · cases h
        · refine ih (fun z k hz => ?_) h
          obtain ⟨rfl, rfl⟩ : y = z ∧ m = k := by simpa using hz
          exact ⟨hm, hci⟩
      next => exact ih hr h

/-- A change that keeps the names is seen by the lookup. -/
lemma uniqueCi_map {f : α → α} (hf : ∀ x, name (f x) = name x) (r : Option (α × Bytes))
    (l : List α) :
    uniqueCi name expected (r.map fun p => (f p.1, p.2)) (l.map f) =
      (uniqueCi name expected r l).map fun p => (f p.1, p.2) := by
  induction l generalizing r with
  | nil => rfl
  | cons x l ih =>
    rw [List.map_cons]
    unfold uniqueCi
    rw [hf]
    cases name x with
    | none => rfl
    | some n =>
      simp only
      split
      · cases r with
        | some p => rfl
        | none => exact ih (some (x, n))
      · exact ih r

end Unique

lemma hostnameChildCi_spec {node c : Node} {e n : Bytes}
    (h : hostnameChildCi node e = some (c, n)) :
    c.name = some n ∧ asciiCaseEqual n e = true := by
  obtain ⟨cs, -, h⟩ := Option.bind_eq_some_iff.mp h
  exact uniqueCi_spec (fun _ _ hr => by cases hr) h

lemma hostnameValueCi_spec {node : Node} {v : Value} {e n : Bytes}
    (h : hostnameValueCi node e = some (v, n)) :
    v.key = some n ∧ asciiCaseEqual n e = true := by
  obtain ⟨vs, -, h⟩ := Option.bind_eq_some_iff.mp h
  exact uniqueCi_spec (fun _ _ hr => by cases hr) h

/-! ### Setting a value -/

section Set

variable (data : Data)

@[simp] lemma setValue_name (path : List Bytes) (node : Node) :
    (node.setValue data path).name = node.name := by
  match path with
  | [] => rfl
  | [_] => rfl
  | _ :: _ :: _ => rfl

/-- A subkey on the way is changed, and no other. -/
lemma child_setValue (part key : Bytes) (rest : List Bytes) (node : Node) (e : Bytes) :
    hostnameChildCi (node.setValue data (part :: key :: rest)) e =
      (hostnameChildCi node e).map fun p =>
      (if p.2 = part then p.1.setValue data (key :: rest) else p.1, p.2) := by
  obtain ⟨name, children, values⟩ := node
  cases children with
  | none => rfl
  | some cs =>
    have hmap := @uniqueCi_map _ Node.name e
      (fun c => if c.name = some part then c.setValue data (key :: rest) else c)
        (fun c => by split <;> simp) none cs
    show uniqueCi Node.name e none (cs.map _) = (uniqueCi Node.name e none cs).map _
    rw [Option.map_none] at hmap
    rw [hmap]
    cases hu : uniqueCi Node.name e none cs with
    | none => rfl
    | some p =>
      have hname := (uniqueCi_spec (fun _ _ hr => by cases hr) hu).1
      simp [hname]

lemma child_setValue_last (key : Bytes) (node : Node) (e : Bytes) :
    hostnameChildCi (node.setValue data [key]) e = hostnameChildCi node e := rfl

lemma value_setValue (part key : Bytes) (rest : List Bytes) (node : Node) (e : Bytes) :
    hostnameValueCi (node.setValue data (part :: key :: rest)) e = hostnameValueCi node e := rfl

lemma value_setValue_last (key : Bytes) (node : Node) (e : Bytes) :
    hostnameValueCi (node.setValue data [key]) e = (hostnameValueCi node e).map fun p =>
      (if p.2 = key then { p.1 with data := some data } else p.1, p.2) := by
  obtain ⟨name, children, values⟩ := node
  cases values with
  | none => rfl
  | some vs =>
    have hmap := @uniqueCi_map _ Value.key e
      (fun v : Value => if v.key = some key then { v with data := some data } else v)
        (fun v => by split <;> rfl) none vs
    show uniqueCi Value.key e none (vs.map _) = (uniqueCi Value.key e none vs).map _
    rw [Option.map_none] at hmap
    rw [hmap]
    cases hu : uniqueCi Value.key e none vs with
    | none => rfl
    | some p =>
      have hname := (uniqueCi_spec (fun _ _ hr => by cases hr) hu).1
      simp [hname]

lemma names_ne_nil {node : Node} {parts : List Bytes} {key : Bytes} {names : List Bytes} {v : Value}
    (h : hostnameNames node parts key = some (names, v)) : names ≠ [] := by
  cases parts with
  | nil =>
    obtain ⟨p, -, hp⟩ := Option.map_eq_some_iff.mp h
    rw [← (Prod.mk.inj hp).1]
    exact List.cons_ne_nil _ _
  | cons part parts =>
    simp only [hostnameNames, Option.bind_eq_bind, Option.bind_eq_some_iff] at h
    obtain ⟨p, -, q, -, hq⟩ := h
    rw [← (Prod.mk.inj (Option.some.inj hq)).1]
    exact List.cons_ne_nil _ _

/-- **A lookup after a value is set**: the names are the same, and the value is new if it is the one
with this path. -/
lemma names_setValue (path : List Bytes) (node : Node) (parts : List Bytes) (key : Bytes) :
    hostnameNames (node.setValue data path) parts key = (hostnameNames node parts key).map fun p =>
      (p.1, if p.1 = path then { p.2 with data := some data } else p.2) := by
  induction parts generalizing path node with
  | nil =>
    match path with
    | [] => cases h : hostnameValueCi node key <;> simp [Node.setValue, hostnameNames, h]
    | [k] =>
      simp only [hostnameNames, value_setValue_last]
      cases h : hostnameValueCi node key <;> simp
    | a :: b :: rest =>
      simp only [hostnameNames, value_setValue]
      cases h : hostnameValueCi node key <;> simp
  | cons part parts ih =>
    -- the rest of the names is that of the subkey
    match path with
    | [] =>
      show hostnameNames node (part :: parts) key = _
      cases h : hostnameNames node (part :: parts) key with
      | none => rfl
      | some p => simp [names_ne_nil h]
    | [k] =>
      simp only [hostnameNames, child_setValue_last, Option.bind_eq_bind]
      cases hc : hostnameChildCi node part with
      | none => rfl
      | some c =>
        simp only [Option.bind_some]
        cases h : hostnameNames c.1 parts key with
        | none => rfl
        | some p => simp [names_ne_nil h]
    | a :: b :: rest =>
      simp only [hostnameNames, child_setValue, Option.bind_eq_bind]
      cases hc : hostnameChildCi node part with
      | none => rfl
      | some c =>
        simp only [Option.map_some, Option.bind_some]
        by_cases hn : c.2 = a
        · rw [if_pos hn, ih]
          cases h : hostnameNames c.1 parts key <;> simp [hn]
        · rw [if_neg hn]
          cases h : hostnameNames c.1 parts key <;> simp [hn]

/-- A list of values is set. -/
def setValues (paths : List (List Bytes)) (node : Node) : Node :=
  paths.foldl (fun r p => r.setValue data p) node

lemma names_setValues (paths : List (List Bytes)) (node : Node) (parts : List Bytes) (key : Bytes) :
    hostnameNames (setValues data paths node) parts key =
      (hostnameNames node parts key).map fun p =>
      (p.1, if p.1 ∈ paths then { p.2 with data := some data } else p.2) := by
  induction paths generalizing node with
  | nil =>
    show hostnameNames node parts key = _
    cases hostnameNames node parts key <;> simp
  | cons path paths ih =>
    show hostnameNames (setValues data paths (node.setValue data path)) parts key = _
    rw [ih, names_setValue, Option.map_map]
    congr 1
    funext p
    simp only [Function.comp, List.mem_cons]
    by_cases h1 : p.1 = path
    · by_cases h2 : path ∈ paths <;> simp [h1, h2]
    · simp [h1]

lemma child_isSome_setValue (path : List Bytes) (node : Node) (e : Bytes) :
    (hostnameChildCi (node.setValue data path) e).isSome = (hostnameChildCi node e).isSome := by
  match path with
  | [] => rfl
  | [_] => rfl
  | _ :: _ :: _ => rw [child_setValue, Option.isSome_map]

lemma child_isSome_setValues (paths : List (List Bytes)) (node : Node) (e : Bytes) :
    (hostnameChildCi (setValues data paths node) e).isSome = (hostnameChildCi node e).isSome := by
  induction paths generalizing node with
  | nil => rfl
  | cons path paths ih => exact (ih _).trans (child_isSome_setValue data path node e)

end Set

/-! ### Names and paths -/

/-- The names on the way are the expected ones, in some spelling. -/
lemma names_spec {node : Node} {parts : List Bytes} {key : Bytes} {names : List Bytes} {v : Value}
    (h : hostnameNames node parts key = some (names, v)) :
    names.map (List.map lower) = (parts ++ [key]).map (List.map lower) := by
  induction parts generalizing node names with
  | nil =>
    obtain ⟨p, hp, hpair⟩ := Option.map_eq_some_iff.mp h
    rw [← (Prod.mk.inj hpair).1]
    have hci := (hostnameValueCi_spec hp).2
    simpa using asciiCaseEqual_iff.mp hci
  | cons part parts ih =>
    simp only [hostnameNames, Option.bind_eq_bind, Option.bind_eq_some_iff] at h
    obtain ⟨p, hp, q, hq, hpair⟩ := h
    obtain ⟨rfl, rfl⟩ := Prod.mk.inj (Option.some.inj hpair)
    have hci := (hostnameChildCi_spec hp).2
    simp only [List.map_cons, List.cons_append, ih hq]
    rw [asciiCaseEqual_iff.mp hci]

/-- The subkey before the value, and the value in it. -/
lemma path_of_names {node : Node} {parts : List Bytes} {key : Bytes} {names : List Bytes}
    {v : Value} (h : hostnameNames node parts key = some (names, v)) :
    ∃ last name, hostnamePathCi node parts = some last ∧
      hostnameValueCi last key = some (v, name) := by
  induction parts generalizing node names with
  | nil =>
    obtain ⟨p, hp, hpair⟩ := Option.map_eq_some_iff.mp h
    obtain ⟨-, rfl⟩ := Prod.mk.inj hpair
    exact ⟨node, p.2, rfl, hp⟩
  | cons part parts ih =>
    simp only [hostnameNames, Option.bind_eq_bind, Option.bind_eq_some_iff] at h
    obtain ⟨p, hp, q, hq, hpair⟩ := h
    obtain ⟨-, rfl⟩ := Prod.mk.inj (Option.some.inj hpair)
    obtain ⟨last, name, h1, h2⟩ := ih hq
    refine ⟨last, name, ?_, h2⟩
    unfold hostnamePathCi
    rw [hp]
    exact h1

lemma lower_backslash {c : UInt8} (h : lower c = 92) : c = 92 := by
  unfold lower at h
  split at h
  next hc =>
    rw [UInt8.le_iff_toNat_le, UInt8.le_iff_toNat_le] at hc
    have h := congrArg UInt8.toNat h
    simp only [UInt8.toNat_add, UInt8.toNat_sub, UInt8.reduceToNat] at h hc
    omega
  next => exact h

/-- A name that is spelled like one without a backslash has none. -/
lemma backslash_notMem {a e : Bytes} (h : a.map lower = e.map lower) (he : (92 : UInt8) ∉ e) :
    (92 : UInt8) ∉ a := by
  intro ha
  have hmem : (92 : UInt8) ∈ a.map lower := List.mem_map.mpr ⟨92, ha, rfl⟩
  rw [h] at hmem
  obtain ⟨c, hc, hl⟩ := List.mem_map.mp hmem
  exact he (lower_backslash hl ▸ hc)

/-- The path of some names. -/
def pathText (names : List Bytes) : Bytes := names.flatMap fun n => 92 :: n

lemma splitOn_pathText {a : Bytes} {names : List Bytes} (ha : (92 : UInt8) ∉ a)
    (h : ∀ n ∈ names, (92 : UInt8) ∉ n) :
    (a ++ pathText names).splitOn 92 = a :: names := by
  induction names generalizing a with
  | nil =>
    show (a ++ []).splitOn 92 = _
    rw [List.append_nil]
    exact List.splitOn_eq_singleton ha
  | cons n names ih =>
    show (a ++ 92 :: (n ++ pathText names)).splitOn 92 = _
    rw [List.splitOn_append_cons_self,
      ih (h n List.mem_cons_self) fun m hm => h m (List.mem_cons_of_mem _ hm),
      List.splitOn_eq_singleton ha]
    rfl

/-- The names of a path are read from it. -/
lemma pathNames_pathText {names : List Bytes} (h : ∀ n ∈ names, (92 : UInt8) ∉ n) :
    pathNames (pathText names) = names := by
  unfold pathNames
  rw [← List.nil_append (pathText names), splitOn_pathText List.not_mem_nil h]
  rfl

/-! ### Control sets -/

lemma controlSet_length {n : ℕ} (hn : n < 1000) :
    controlSet n = some (ascii "ControlSet" ++ [digit (n / 100), digit (n / 10), digit n]) := by
  unfold controlSet threeDigits
  simp only [if_pos hn]
  rfl

lemma digit_lower (n : ℕ) : lower (digit n) = digit n := by
  have h : n % 10 < 10 := Nat.mod_lt _ (by decide)
  unfold digit
  generalize n % 10 = m at h
  interval_cases m <;> rfl

lemma digit_inj {m n : ℕ} (h : digit m = digit n) : m % 10 = n % 10 := by
  unfold digit at h
  have hm : m % 10 < 10 := Nat.mod_lt _ (by decide)
  have hn : n % 10 < 10 := Nat.mod_lt _ (by decide)
  generalize m % 10 = a at h hm
  generalize n % 10 = b at h hn
  revert h
  interval_cases a <;> interval_cases b <;> decide

/-- Two control sets have names that differ in more than their spelling. -/
lemma controlSet_inj {m n : ℕ} (hm : m < 1000) (hn : n < 1000) {a b : Bytes}
    (ha : controlSet m = some a) (hb : controlSet n = some b) (h : a.map lower = b.map lower) :
    m = n := by
  rw [controlSet_length hm] at ha
  rw [controlSet_length hn] at hb
  obtain rfl := Option.some.inj ha
  obtain rfl := Option.some.inj hb
  simp only [List.map_append, List.append_cancel_left_eq, List.map_cons, List.map_nil, digit_lower,
    List.cons.injEq, and_true] at h
  have h1 := digit_inj h.1
  have h2 := digit_inj h.2.1
  have h3 := digit_inj h.2.2
  omega

lemma digit_ne_backslash (n : ℕ) : digit n ≠ 92 := by
  have h : n % 10 < 10 := Nat.mod_lt _ (by decide)
  unfold digit
  generalize n % 10 = m at h
  interval_cases m <;> decide

/-- Every name of a value of the host name has no backslash. -/
lemma hostnameValues_backslash {n : ℕ} (hn : n < 1000) {control : Bytes}
    (hc : controlSet n = some control) {v : List Bytes × Bytes} (hv : v ∈ hostnameValues control) :
    ∀ e ∈ v.1 ++ [v.2], (92 : UInt8) ∉ e := by
  rw [controlSet_length hn] at hc
  obtain rfl := Option.some.inj hc
  have hcontrol : (92 : UInt8) ∉ ascii "ControlSet" ++
      [digit (n / 100), digit (n / 10), digit n] := by
    rw [List.mem_append, not_or]
    refine ⟨by decide, ?_⟩
    simp only [List.mem_cons, List.not_mem_nil, or_false, not_or]
    exact ⟨(digit_ne_backslash _).symm, (digit_ne_backslash _).symm, (digit_ne_backslash _).symm⟩
  simp only [hostnameValues, List.mem_cons, List.not_mem_nil, or_false] at hv
  intro e he
  rcases hv with rfl | rfl | rfl
  all_goals
    simp only [List.cons_append, List.nil_append, List.mem_cons, List.not_mem_nil, or_false] at he
    rcases he with rfl | rfl | rfl | rfl | rfl
    · exact hcontrol
    all_goals decide

/-! ### The selected control sets -/

lemma hostnameDword_lt {node : Node} {key : Bytes} {n : ℕ} (h : hostnameDword node key = some n) :
    n < 1000 := by
  unfold hostnameDword at h
  split at h
  · cases h
  · split at h
    · split at h
      · split at h
        · cases h
        next hle =>
          obtain rfl := Option.some.inj h
          omega
      · cases h
    · cases h

lemma selected_spec {root : Node} {selected : List ℕ}
    (h : selectedHostnameControlSets root = some selected) :
    selected.Nodup ∧ ∀ n ∈ selected, n < 1000 := by
  unfold selectedHostnameControlSets at h
  simp only [Option.bind_eq_bind, Option.bind_eq_some_iff] at h
  obtain ⟨select, -, current, hcurrent, fallback, hfallback, h⟩ := h
  have h1 := hostnameDword_lt hcurrent
  have h2 := hostnameDword_lt hfallback
  by_cases hne : fallback = current
  · rw [if_neg (not_not.mpr hne)] at h
    split at h
    · obtain rfl := Option.some.inj h
      simpa using h1
    · cases h
  · rw [if_pos hne] at h
    split at h
    · obtain rfl := Option.some.inj h
      simp only [List.nodup_cons, List.mem_cons, List.not_mem_nil, or_false, List.nodup_nil,
        and_true, forall_eq_or_imp, forall_eq]
      exact ⟨⟨fun h => hne h.symm, fun h => h⟩, h1, h2⟩
    · cases h

/-- The dword of a key goes by the value. -/
lemma hostnameDword_congr {a b : Node} {key : Bytes}
    (h : (hostnameValueCi a key).map Prod.fst = (hostnameValueCi b key).map Prod.fst) :
    hostnameDword a key = hostnameDword b key := by
  unfold hostnameDword
  cases ha : hostnameValueCi a key with
  | none =>
    cases hb : hostnameValueCi b key with
    | none => rfl
    | some q => simp [ha, hb] at h
  | some p =>
    cases hb : hostnameValueCi b key with
    | none => simp [ha, hb] at h
    | some q =>
      rw [ha, hb, Option.map_some, Option.map_some, Option.some.injEq] at h
      simp only [h]

/-- What is selected goes by the values of `Select` and by which control sets there are. -/
lemma selected_congr {root root' : Node}
    (hchild : ∀ e, (hostnameChildCi root' e).isSome = (hostnameChildCi root e).isSome)
    (hnames : ∀ key, hostnameNames root' [ascii "Select"] key = hostnameNames root
      [ascii "Select"] key) :
    selectedHostnameControlSets root' = selectedHostnameControlSets root := by
  have hexist : ∀ ns, controlSetsExist root' ns = controlSetsExist root ns := by
    intro ns
    induction ns with
    | nil => rfl
    | cons n ns ih =>
      unfold controlSetsExist
      cases controlSet n with
      | none => rfl
      | some control => simp only [hchild, ih]
  have hselect := hchild (ascii "Select")
  unfold selectedHostnameControlSets
  simp only [hexist]
  cases hr : hostnameChildCi root (ascii "Select") with
  | none =>
    cases hr' : hostnameChildCi root' (ascii "Select") with
    | none => rfl
    | some p => simp [hr, hr'] at hselect
  | some p =>
    cases hr' : hostnameChildCi root' (ascii "Select") with
    | none => simp [hr, hr'] at hselect
    | some p' =>
      have hdword : ∀ key, hostnameDword p'.1 key = hostnameDword p.1 key := by
        intro key
        refine hostnameDword_congr ?_
        have := congrArg (Option.map Prod.snd) (hnames key)
        simp only [hostnameNames, hr, hr', Option.bind_eq_bind, Option.bind_some] at this
        cases ha : hostnameValueCi p'.1 key <;> cases hb : hostnameValueCi p.1 key <;> simp_all
      simp only [Option.bind_eq_bind, Option.bind_some, hdword]

/-! ### What is written -/

section Written

variable {root : Node}

/-- A value of the host name, with its path. -/
structure Named (root : Node) (v : List Bytes × Bytes) (path : Bytes) : Prop where
  found : ∃ value, hostnameNames root v.1 v.2 = some (pathNames path, value)
  spelled : (pathNames path).map (List.map lower) = (v.1 ++ [v.2]).map (List.map lower)
  text : pathText (pathNames path) = path

lemma named_of_stringPath {v : List Bytes × Bytes} {path : Bytes}
    (hv : ∀ e ∈ v.1 ++ [v.2], (92 : UInt8) ∉ e) (h : stringPath root v.1 v.2 = some path) :
    Named root v path := by
  unfold stringPath at h
  simp only [Option.bind_eq_bind, Option.bind_eq_some_iff] at h
  obtain ⟨⟨names, value⟩, hn, h⟩ := h
  simp only at h
  split at h
  · unfold regedPath at h
    simp only at h
    split at h
    · obtain rfl := Option.some.inj h
      have hspell := names_spec hn
      have hfree : ∀ n ∈ names, (92 : UInt8) ∉ n := by
        intro n hmem
        have hlow : n.map lower ∈ (v.1 ++ [v.2]).map (List.map lower) :=
          hspell ▸ List.mem_map_of_mem hmem
        obtain ⟨e, he, heq⟩ := List.mem_map.mp hlow
        exact backslash_notMem heq.symm (hv e he)
      have hback : pathNames (names.flatMap fun n => 92 :: n) = names := pathNames_pathText hfree
      refine ⟨⟨value, ?_⟩, ?_, ?_⟩
      · rw [hback]
        exact hn
      · rw [hback]
        exact hspell
      · rw [hback]
        rfl
    · cases h
  · cases h

/-- The paths of a control set. -/
inductive Triple (root : Node) (n : ℕ) : List Bytes → Prop
  | mk {control nv hostname computer : Bytes} (hc : controlSet n = some control)
      (h1 : Named root ([control, ascii "Services", ascii "Tcpip", ascii "Parameters"],
        ascii "NV Hostname") nv)
      (h2 : Named root ([control, ascii "Services", ascii "Tcpip", ascii "Parameters"],
        ascii "Hostname") hostname)
      (h3 : Named root ([control, ascii "Control", ascii "ComputerName", ascii "ComputerName"],
        ascii "ComputerName")
        computer) : Triple root n [nv, hostname, computer]

/-- The loop writes the paths of one control set after those of another. -/
lemma writeLoop_spec {paths out : List Bytes} {ns : List ℕ} (hns : ∀ n ∈ ns, n < 1000)
    (h : writeLoop root paths ns = some out) :
    ∃ new, List.Forall₂ (Triple root) ns new ∧ out = paths ++ new.flatten := by
  induction ns generalizing paths with
  | nil =>
    obtain rfl := Option.some.inj h
    exact ⟨[], .nil, by simp⟩
  | cons n ns ih =>
    unfold writeLoop at h
    split at h
    · cases h
    simp only [Option.bind_eq_bind, Option.bind_eq_some_iff] at h
    obtain ⟨control, hc, three, hthree, h⟩ := h
    obtain ⟨new, hnew, rfl⟩ := ih (fun m hm => hns m (List.mem_cons_of_mem _ hm)) h
    refine ⟨three :: new, .cons ?_ hnew, by simp⟩
    have hfree := fun v hv => hostnameValues_backslash (hns n List.mem_cons_self) hc (v := v) hv
    simp only [hostnameValues, List.mapM_cons, List.mapM_nil, Option.bind_eq_bind,
      Option.bind_eq_some_iff, Option.pure_def,
      Option.some.injEq] at hthree
    obtain ⟨nv, hnv, _, ⟨hostname, hhostname, _, ⟨computer, hcomputer, _, rfl, rfl⟩, rfl⟩, rfl⟩ :=
      hthree
    refine .mk hc (named_of_stringPath (hfree _ ?_) hnv)
      (named_of_stringPath (hfree _ ?_) hhostname)
      (named_of_stringPath (hfree _ ?_) hcomputer)
    · exact List.mem_cons_self
    · exact List.mem_cons_of_mem _ List.mem_cons_self
    · exact List.mem_cons_of_mem _ (List.mem_cons_of_mem _ List.mem_cons_self)

lemma pathText_length {a b : List Bytes} (h : a.map (List.map lower) = b.map (List.map lower)) :
    (pathText a).length = (pathText b).length := by
  have hlen : a.map List.length = b.map List.length := by
    have := congrArg (List.map List.length) h
    simpa [List.map_map, Function.comp_def] using this
  have hsum : ∀ l : List Bytes, (pathText l).length = ((l.map List.length).map (· + 1)).sum := by
    intro l
    simp [pathText, List.length_flatMap, Function.comp_def]
  rw [hsum, hsum, hlen]

/-- The path is below a control set. -/
def inControlSet (n : ℕ) (path : Bytes) : Bool :=
  match controlSet n, pathNames path with
  | some control, name :: _ => asciiCaseEqual name control
  | _, _ => false

lemma inControlSet_of_named {n m : ℕ} {control : Bytes} (hn : n < 1000) (hm : m < 1000)
    (hc : controlSet n = some control) {parts : List Bytes} {key path : Bytes}
    (h : Named root (control :: parts, key) path) :
    inControlSet m path = decide (m = n) := by
  have hspell := h.spelled
  simp only [List.cons_append, List.map_cons] at hspell
  unfold inControlSet
  cases hnames : pathNames path with
  | nil =>
    rw [hnames] at hspell
    cases hspell
  | cons name names =>
    rw [hnames, List.map_cons, List.cons.injEq] at hspell
    rw [controlSet_length hm]
    simp only
    by_cases hmn : m = n
    · subst hmn
      rw [controlSet_length hm] at hc
      obtain rfl := Option.some.inj hc
      rw [decide_eq_true rfl]
      exact asciiCaseEqual_iff.mpr hspell.1
    · rw [decide_eq_false hmn]
      refine Bool.eq_false_iff.mpr fun hci => hmn ?_
      exact controlSet_inj hm hn (controlSet_length hm) hc
        ((asciiCaseEqual_iff.mp hci).symm.trans hspell.1)

/-- The three paths have three lengths. -/
lemma Triple.nodup {n : ℕ} (hn : n < 1000) {t : List Bytes} (h : Triple root n t) : t.Nodup := by
  obtain ⟨hc, h1, h2, h3⟩ := h
  rw [controlSet_length hn] at hc
  obtain rfl := Option.some.inj hc
  have l1 := congrArg List.length h1.text
  have l2 := congrArg List.length h2.text
  have l3 := congrArg List.length h3.text
  rw [pathText_length h1.spelled] at l1
  rw [pathText_length h2.spelled] at l2
  rw [pathText_length h3.spelled] at l3
  have e1 : 52 = _ := l1
  have e2 : 49 = _ := l2
  have e3 : 61 = _ := l3
  simp only [List.nodup_cons, List.mem_cons, List.not_mem_nil, or_false, not_or, List.nodup_nil,
    and_true, not_false_eq_true]
  refine ⟨⟨?_, ?_⟩, ?_⟩
  · rintro rfl
    omega
  · rintro rfl
    omega
  · rintro rfl
    omega

lemma Triple.below {n m : ℕ} (hn : n < 1000) (hm : m < 1000) {t : List Bytes}
    (h : Triple root n t) :
    ∀ p ∈ t, inControlSet m p = decide (m = n) := by
  obtain ⟨hc, h1, h2, h3⟩ := h
  intro p hp
  simp only [List.mem_cons, List.not_mem_nil, or_false] at hp
  rcases hp with rfl | rfl | rfl
  · exact inControlSet_of_named hn hm hc h1
  · exact inControlSet_of_named hn hm hc h2
  · exact inControlSet_of_named hn hm hc h3

end Written

/-! ### The result -/

section Verified

variable {root : Node} {selected : List ℕ} {new : List (List Bytes)}

lemma triples_length (h : List.Forall₂ (Triple root) selected new) :
    new.flatten.length = 3 * selected.length := by
  induction h with
  | nil => rfl
  | cons ht _ ih =>
    obtain ⟨hc, h1, h2, h3⟩ := ht
    simp only [List.flatten_cons, List.length_append, List.length_cons, List.length_nil, ih]
    omega

/-- A path of another control set is not among the paths of these. -/
lemma triples_filter (hlt : ∀ n ∈ selected, n < 1000) (hnodup : selected.Nodup)
    (h : List.Forall₂ (Triple root) selected new) {m : ℕ} (hm : m < 1000) :
    (new.flatten.filter (inControlSet m)).length = if m ∈ selected then 3 else 0 := by
  induction h with
  | nil => rfl
  | @cons n t ns ts ht _ ih =>
    have hbelow := ht.below (hlt n List.mem_cons_self) hm
    rw [List.nodup_cons] at hnodup
    have ih := ih (fun k hk => hlt k (List.mem_cons_of_mem _ hk)) hnodup.2
    rw [List.flatten_cons, List.filter_append, List.length_append, ih]
    by_cases hmn : m = n
    · subst hmn
      have hall : t.filter (inControlSet m) = t := List.filter_eq_self.mpr fun p hp => by
        rw [hbelow p hp, decide_eq_true rfl]
      obtain ⟨hc, h1, h2, h3⟩ := ht
      rw [hall, if_neg hnodup.1, if_pos List.mem_cons_self]
      rfl
    · have hnone : t.filter (inControlSet m) = [] := by
        refine List.filter_eq_nil_iff.mpr fun p hp => ?_
        rw [hbelow p hp, decide_eq_false hmn]
        exact Bool.false_ne_true
      rw [hnone, List.length_nil, Nat.zero_add]
      simp [hmn]

lemma triples_nodup (hlt : ∀ n ∈ selected, n < 1000) (hnodup : selected.Nodup)
    (h : List.Forall₂ (Triple root) selected new) :
    new.flatten.Nodup := by
  induction h with
  | nil => exact List.nodup_nil
  | @cons n t ns ts ht hts ih =>
    have hn := hlt n List.mem_cons_self
    have hlt' := fun k hk => hlt k (List.mem_cons_of_mem _ hk)
    rw [List.nodup_cons] at hnodup
    rw [List.flatten_cons]
    refine List.nodup_append.mpr ⟨ht.nodup hn, ih hlt' hnodup.2, fun a ha b hb => ?_⟩
    -- the path `a` is below this control set, and none of the others is
    rintro rfl
    have hin : inControlSet n a = true := by rw [ht.below hn hn a ha, decide_eq_true rfl]
    have hcount := triples_filter hlt' hnodup.2 hts hn
    rw [if_neg hnodup.1, List.length_eq_zero_iff] at hcount
    exact absurd hin (List.filter_eq_nil_iff.mp hcount a hb)

/-- Every path has five names. -/
lemma Triple.five {n : ℕ} {t : List Bytes} (h : Triple root n t) :
    ∀ p ∈ t, (pathNames p).length = 5 := by
  obtain ⟨hc, h1, h2, h3⟩ := h
  intro p hp
  simp only [List.mem_cons, List.not_mem_nil, or_false] at hp
  rcases hp with rfl | rfl | rfl
  · simpa using congrArg List.length h1.spelled
  · simpa using congrArg List.length h2.spelled
  · simpa using congrArg List.length h3.spelled

lemma triples_mem (h : List.Forall₂ (Triple root) selected new) {n : ℕ} (hn : n ∈ selected) :
    ∃ t ∈ new, Triple root n t := by
  induction h with
  | nil => cases hn
  | cons ht _ ih =>
    rcases List.mem_cons.mp hn with rfl | hn
    · exact ⟨_, List.mem_cons_self, ht⟩
    · obtain ⟨t, hmem, ht'⟩ := ih hn
      exact ⟨t, List.mem_cons_of_mem _ hmem, ht'⟩

lemma triples_of_mem (h : List.Forall₂ (Triple root) selected new) {t : List Bytes} (ht : t ∈ new) :
    ∃ n, Triple root n t := by
  induction h with
  | nil => cases ht
  | cons ht' _ ih =>
    rcases List.mem_cons.mp ht with rfl | ht
    · exact ⟨_, ht'⟩
    · exact ih ht

lemma utf16Matches_utf16 (hostname : Bytes) : utf16Matches hostname (utf16 hostname) = true := by
  induction hostname with
  | nil => rfl
  | cons c hostname ih =>
    show (c == c && (0 : UInt8) == 0 && utf16Matches hostname (utf16 hostname)) = true
    rw [ih]
    simp

lemma utf16_length (hostname : Bytes) : (utf16 hostname).length = (hostname.length + 1) * 2 := by
  induction hostname with
  | nil => rfl
  | cons c hostname ih =>
    have : (utf16 (c :: hostname)).length = (utf16 hostname).length + 2 := rfl
    rw [this, ih, List.length_cons]
    omega

variable {hostname : Bytes}

/-- A value that was named has the host name. -/
lemma found_after (hostname : Bytes) {paths : List (List Bytes)} {v : List Bytes × Bytes}
    {path : Bytes} (h : Named root v path) (hmem : pathNames path ∈ paths) :
    ∃ last, hostnamePathCi (setValues (.string, utf16 hostname) paths root) v.1 = some last ∧
      hostnameValueMatches last v.2 hostname = true := by
  obtain ⟨value, hfound⟩ := h.found
  have hnew := names_setValues (.string, utf16 hostname) paths root v.1 v.2
  rw [hfound, Option.map_some, if_pos hmem] at hnew
  obtain ⟨last, name, hlast, hvalue⟩ := path_of_names hnew
  refine ⟨last, hlast, ?_⟩
  unfold hostnameValueMatches
  rw [hvalue]
  simp [utf16_length, utf16Matches_utf16]

/-- The first step of a way. -/
lemma hostnamePathCi_cons {node last : Node} {part : Bytes} {parts : List Bytes}
    (h : hostnamePathCi node (part :: parts) = some last) :
    ∃ child name, hostnameChildCi node part = some (child, name) ∧
      hostnamePathCi child parts = some last := by
  unfold hostnamePathCi at h
  simp only [Option.bind_eq_bind, Option.bind_eq_some_iff] at h
  obtain ⟨p, hp, h⟩ := h
  exact ⟨p.1, p.2, hp, h⟩

/-- The verifier passes a control set whose three values are set. -/
lemma verified_after {paths : List (List Bytes)} {n : ℕ} {t : List Bytes} (ht : Triple root n t)
    (hmem : ∀ p ∈ t, pathNames p ∈ paths) : ∃ control set name, controlSet n = some control ∧
      hostnameChildCi (setValues (.string, utf16 hostname) paths root) control = some (set, name) ∧
      hostnameVerified set hostname = true := by
  obtain ⟨hc, h1, h2, h3⟩ := ht
  obtain ⟨last1, hp1, hm1⟩ := found_after hostname h1 (hmem _ (by simp))
  obtain ⟨last2, hp2, hm2⟩ := found_after hostname h2 (hmem _ (by simp))
  obtain ⟨last3, hp3, hm3⟩ := found_after hostname h3 (hmem _ (by simp))
  obtain ⟨set, name, hset, hp1⟩ := hostnamePathCi_cons hp1
  obtain ⟨set2, name2, hset2, hp2⟩ := hostnamePathCi_cons hp2
  obtain ⟨set3, name3, hset3, hp3⟩ := hostnamePathCi_cons hp3
  rw [hset] at hset2 hset3
  obtain ⟨rfl, rfl⟩ := Prod.mk.inj (Option.some.inj hset2)
  obtain ⟨rfl, rfl⟩ := Prod.mk.inj (Option.some.inj hset3)
  rw [hp1] at hp2
  obtain rfl := Option.some.inj hp2
  refine ⟨_, set, name, hc, hset, ?_⟩
  unfold hostnameVerified
  rw [hp1, hp3]
  simp only [hm1, hm2, hm3, Bool.and_self]

lemma verifyLoop_ok {root : Node} {ns : List ℕ}
    (h : ∀ n ∈ ns, ∃ control set name, controlSet n = some control ∧
      hostnameChildCi root control = some (set, name) ∧ hostnameVerified set hostname = true)
    (printed : List Bytes) :
    (verifyLoop root (some hostname) printed ns).ok = true := by
  induction ns with
  | nil => rfl
  | cons n ns ih =>
    obtain ⟨control, set, name, hc, hset, hv⟩ := h n List.mem_cons_self
    unfold verifyLoop
    simp only [hc, hset, hv, if_true]
    exact ih fun m hm => h m (List.mem_cons_of_mem _ hm)

/-- Values with five names are not those of `Select`. -/
lemma selected_setValues {paths : List (List Bytes)} (h : ∀ p ∈ paths, p.length = 5) (data : Data) :
    selectedHostnameControlSets (setValues data paths root) = selectedHostnameControlSets root := by
  refine selected_congr (child_isSome_setValues data paths root) fun key => ?_
  rw [names_setValues]
  cases hn : hostnameNames root [ascii "Select"] key with
  | none => rfl
  | some p =>
    have hlen : p.1.length = 2 := by simpa using congrArg List.length (names_spec hn)
    have hnot : p.1 ∉ paths := by
      intro hmem
      have := h p.1 hmem
      omega
    rw [Option.map_some, if_neg hnot]

lemma triples_five (h : List.Forall₂ (Triple root) selected new) :
    ∀ p ∈ new.flatten, (pathNames p).length = 5 := by
  intro p hp
  obtain ⟨t, ht, hpt⟩ := List.mem_flatten.mp hp
  obtain ⟨n, hn⟩ := triples_of_mem h ht
  exact hn.five p hpt

/-- The verification of a hive in which the values of every selected control set are set. -/
lemma verify_reged {system : SystemFile} (hregular : system.regular = true)
    (hopens : system.opens = true) (hroot : system.root = some root)
    (hselected : selectedHostnameControlSets root = some selected)
    (hnew : List.Forall₂ (Triple root) selected new)
    (hvalid : validWindowsHostname hostname = true) :
    (windowsHostnameInspectOrVerify (system.reged (.string, utf16 hostname) new.flatten)
      (some hostname)).ok = true := by
  have hroot' : (system.reged (.string, utf16 hostname) new.flatten).root =
      some (setValues (.string, utf16 hostname) (new.flatten.map pathNames) root) := by
    unfold SystemFile.reged setValues
    rw [hroot, List.foldl_map]
    rfl
  have hfive : ∀ p ∈ new.flatten.map pathNames, p.length = 5 := by
    intro p hp
    obtain ⟨q, hq, rfl⟩ := List.mem_map.mp hp
    exact triples_five hnew q hq
  have hregular' : (system.reged (.string, utf16 hostname) new.flatten).regular = true := hregular
  have hopens' : (system.reged (.string, utf16 hostname) new.flatten).opens = true := hopens
  unfold windowsHostnameInspectOrVerify
  simp only [hregular', hopens', hvalid, hroot', Bool.not_true, Bool.or_false,
    Bool.false_eq_true, if_false,
    selected_setValues hfive, hselected]
  refine verifyLoop_ok (fun n hn => ?_) []
  obtain ⟨t, ht, htriple⟩ := triples_mem hnew hn
  exact verified_after htriple fun p hp => List.mem_map_of_mem (List.mem_flatten.mpr ⟨t, ht, hp⟩)

end Verified

/-- **What is written is what is verified.**  If the paths are found, there are three different ones
for every selected control set, and setting these values to a host name is all that the verification
of it needs; if they are not found, none is printed. -/
theorem writePaths_verified (system : SystemFile) :
    ((windowsHostnameWritePaths system).ok = true → ∃ root selected, system.root = some root ∧
      selectedHostnameControlSets root = some selected ∧
      (windowsHostnameWritePaths system).printed.Nodup ∧
      (windowsHostnameWritePaths system).printed.length = 3 * selected.length ∧
      (∀ n ∈ selected,
        ((windowsHostnameWritePaths system).printed.filter (inControlSet n)).length = 3) ∧
      (∀ p ∈ (windowsHostnameWritePaths system).printed, ∃ parts key value,
        hostnameNames root parts key = some (pathNames p, value)) ∧
      ∀ hostname, validWindowsHostname hostname = true → (windowsHostnameInspectOrVerify
        (system.reged (.string, utf16 hostname) (windowsHostnameWritePaths system).printed)
          (some hostname)).ok = true) ∧
    ((windowsHostnameWritePaths system).ok = false →
      (windowsHostnameWritePaths system).printed = []) := by
  unfold windowsHostnameWritePaths
  split
  · simp
  next hregular =>
    split
    · simp
    next hopens =>
      split
      · simp
      next root hroot =>
        split
        · simp
        next selected hselected =>
          split
          · simp
          next paths hpaths =>
            refine ⟨fun _ => ⟨root, selected, hroot, hselected, ?_⟩, fun h => by cases h⟩
            obtain ⟨hnodup, hlt⟩ := selected_spec hselected
            obtain ⟨new, hnew, rfl⟩ := writeLoop_spec hlt hpaths
            rw [List.nil_append]
            refine ⟨triples_nodup hlt hnodup hnew, triples_length hnew, ?_, ?_, ?_⟩
            · intro n hn
              rw [triples_filter hlt hnodup hnew (hlt n hn), if_pos hn]
            · intro p hp
              obtain ⟨t, ht, hpt⟩ := List.mem_flatten.mp hp
              obtain ⟨n, hc, h1, h2, h3⟩ := triples_of_mem hnew ht
              simp only [List.mem_cons, List.not_mem_nil, or_false] at hpt
              rcases hpt with rfl | rfl | rfl
              · exact ⟨_, _, h1.found⟩
              · exact ⟨_, _, h2.found⟩
              · exact ⟨_, _, h3.found⟩
            · intro hostname hvalid
              exact verify_reged (by simpa using hregular) (by simpa using hopens) hroot
                hselected hnew hvalid

/-- A key with a name. -/
def keyNamed (name : String) (children : List Node) (values : List Value) : Node :=
  .mk (some (ascii name)) (some children) (some values)

def valueNamed (key : String) (type : HiveType) (data : Bytes) : Value :=
  ⟨some (ascii key), some (type, data)⟩

/-- A hive with one control set, in which `Services` is spelled in capitals. -/
def oneControlSet : SystemFile where
  regular := true
  opens := true
  root := some (keyNamed "ROOT" [
    keyNamed "Select" [] [valueNamed "Current" .dword [1, 0, 0, 0],
      valueNamed "Default" .dword [1, 0, 0, 0]],
    keyNamed "ControlSet001" [
      keyNamed "SERVICES" [keyNamed "Tcpip" [keyNamed "Parameters" []
        [valueNamed "Hostname" .string (utf16 (ascii "OLD")),
          valueNamed "NV Hostname" .string (utf16 (ascii "OLD"))]] []] [],
      keyNamed "Control" [keyNamed "ComputerName" [keyNamed "ComputerName" []
        [valueNamed "ComputerName" .string (utf16 (ascii "OLD"))]] []] []] []] [])

/-- Its host name is changed. -/
theorem writePaths_verified_one :
    (windowsHostnameInspectOrVerify (oneControlSet.reged (.string, utf16 (ascii "PC-7"))
    (windowsHostnameWritePaths oneControlSet).printed) (some (ascii "PC-7"))).ok = true := by
  obtain ⟨root, selected, -, -, -, -, -, -, h⟩ :=
    (writePaths_verified oneControlSet).1 (by decide +kernel)
  exact h (ascii "PC-7") (by decide +kernel)

end Pxeos.Identity
