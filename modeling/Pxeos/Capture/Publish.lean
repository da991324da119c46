import Pxeos.Lib.Interact
import Pxeos.Lib.Shell

/-!
# Publishing a capture

`rootpxe_capture_direct_finalize` moves the directory of a capture to the path of its image, and
removes what was there. The path comes from the server; `rootpxe_safe_relative_path` and a pattern
keep it away from what is not an image.
-/

namespace Pxeos.Capture

open Pxeos.Lib

/-! ### Paths -/

def isControl (c : Char) : Bool := c.toNat < 32 || c.toNat == 127

/-- The components of a path. -/
def components (path : Str) : List Str := path.splitOn '/'

/-- `${name,,}`. -/
def lowered (s : Str) : Str := s.map Char.toLower

/-- A component that `rootpxe_safe_relative_path` takes. -/
def safeSegment (segment : Str) : Bool :=
  segment != [] && segment != ".".toList && segment != "..".toList &&
    lowered segment != ".rootpxe-imports".toList &&
    lowered segment != ".imports".toList && !segment.any fun c => c == '\n' || c == '\r'

/-- `${1#/}`. -/
def stripSlash : Str → Str
  | '/' :: rest => rest
  | value => value

/-- `rootpxe_safe_relative_path`. -/
def rootpxeSafeRelativePath (path : Str) : Option Str :=
  let value := stripSlash path
  if value.any isControl then none
  else if value = [] ∨ value.getLast? = some '/' ∨ '\\' ∈ value ∨ ['/', '/'] <:+: value then none
  else if (components value).all safeSegment then some value
  else none

/-! ### Calls -/

/-- What is asked of the system and of the server. -/
inductive Call where
  | isDir (path : Str)
  | isLink (path : Str)
  | exists (path : Str)
  | mkdir (path : Str)
  | device (path : Str)
  | waitForWriters
  | publishMetadata
  | beginPublish
  | sizeBytes (path : Str)
  | removeTree (path : Str)
  | move (source target : Str)

def Call.Answer : Call → Type
  | .device _ => Option Str
  | .sizeBytes _ => Option Str
  | _ => Bool

abbrev Direct := Prog Call Call.Answer

abbrev Step := Sigma Call.Answer

def ask (c : Call) : Direct c.Answer := Prog.ask c

def isDir (path : Str) : Direct Bool := ask (.isDir path)
def isLink (path : Str) : Direct Bool := ask (.isLink path)
def pathExists (path : Str) : Direct Bool := ask (.exists path)
def mkdir (path : Str) : Direct Bool := ask (.mkdir path)
def device (path : Str) : Direct (Option Str) := ask (.device path)
def sizeBytes (path : Str) : Direct (Option Str) := ask (.sizeBytes path)
def waitForWriters : Direct Bool := ask .waitForWriters
def publishMetadata : Direct Bool := ask .publishMetadata
def beginPublish : Direct Bool := ask .beginPublish
def removeTree (path : Str) : Direct Bool := ask (.removeTree path)
def move (source target : Str) : Direct Bool := ask (.move source target)

/-! ### The program -/

def storage : Str := "/storage".toList

/-- Not a link, and a directory if there is something: `[[ ! -L $path && ( ! -e $path || -d $path )
]]`. -/
def freeOrDirectory (path : Str) : Direct Bool := do
  if ← isLink path then pure false
  else if !(← pathExists path) then pure true
  else isDir path

/-- The directories above the target, one after another; no link is followed. -/
def makeParents : Str → List Str → Direct Bool
  | _, [] => pure true
  | parent, segment :: segments => do
    let parent := parent ++ '/' :: segment
    if !(← freeOrDirectory parent) then pure false
    else if !(← mkdir parent) then pure false
    else makeParents parent segments

/-- The target is on the device of the source: `[[ ! -e $target || $(stat -c %d -- $target) ==
$source_device ]]`. -/
def sameDevice (target sourceDevice : Str) : Direct Bool := do
  if !(← pathExists target) then pure true
  else
    let targetDevice ← device target
    pure ((targetDevice.map captured).getD [] == sourceDevice)

/-- What is there is removed: `[[ ! -d $target ]] || rm -rf -- $target`. -/
def removeOld (target : Str) : Direct Bool := do
  if !(← isDir target) then pure true else removeTree target

/-- The end of `rootpxe_capture_direct_finalize`, from the transaction with the server on. -/
def publish (source target : Str) : Direct Bool := do
  if !(← beginPublish) then pure false
  else
    match ← sizeBytes source with
    | none => pure false
    | some size =>
      if !isPositive (captured size) then pure false
      else if !(← removeOld target) then pure false
      else move source target

/-- The checks of the devices before it. -/
def publishOnDevice (source target parent : Str) : Direct Bool := do
  match ← device source with
  | none => pure false
  | some sourceDevice =>
    match ← device parent with
    | none => pure false
    | some parentDevice =>
      if captured sourceDevice ≠ captured parentDevice then pure false
      else if !(← sameDevice target (captured sourceDevice)) then pure false
      else publish source target

/-- The directory of a relative path: `${relative%/*}`, in its components. -/
def parentSegments (relative : Str) : List Str := (components relative).dropLast

/-- `${target%/*}`. -/
def parentPath (target : Str) : Str := ((target.reverse.dropWhile (· ≠ '/')).drop 1).reverse

/-- The target is none of the staging directories: `case "$target/" in
"$source/"*|/storage/dev/*)`. -/
def inStaging (source target : Str) : Bool :=
  decide (source ++ ['/'] <+: target ++ ['/']) ||
    decide ("/storage/dev/".toList <+: target ++ ['/'])

/-- The variables of the capture. -/
structure Vars where
  macWinSafe : Str
  imagePath : Str
  img : Str

def Vars.source (v : Vars) : Str := "/storage/dev/".toList ++ v.macWinSafe

/-- `rootpxe_capture_direct_finalize`. -/
def rootpxeCaptureDirectFinalize (v : Vars) : Direct Bool := do
  if v.imagePath ≠ v.source then pure false
  else if !(← isDir v.source) then pure false
  else if ← isLink v.source then pure false
  else if !(← waitForWriters) then pure false
  else if !(← publishMetadata) then pure false
  else
    match rootpxeSafeRelativePath v.img with
    | none => pure false
    | some relative =>
      let target := storage ++ '/' :: relative
      if inStaging v.source target then pure false
      else if !(← freeOrDirectory target) then pure false
      else if !(← makeParents storage (parentSegments relative)) then pure false
      else publishOnDevice v.source target (parentPath target)

/-! ### Targets -/

/-- The path a call removes or replaces. -/
def target? : Step → Option Str
  | ⟨.removeTree path, _⟩ => some path
  | ⟨.move _ path, _⟩ => some path
  | _ => none

/-- A path of components is another one or below it, whatever the case of their letters. -/
def Below (base path : List Str) : Prop := base.map lowered <+: path.map lowered

/-- The names at the top of the storage that are no images. -/
def reserved : List Str := [".imports".toList, ".rootpxe-imports".toList, ".locks".toList]

/-- A path that a capture may replace: below the storage, with no relative component, apart from the
staging directories, and in no reserved name space. -/
structure Replaceable (path : Str) : Prop where
  below : ∃ parts, components path = components storage ++ parts ∧ parts ≠ [] ∧
    ∀ p ∈ parts, p ≠ [] ∧ p ≠ ".".toList ∧ p ≠ "..".toList
  staging : ¬ Below (components "/storage/dev".toList) (components path) ∧
    ¬ Below (components path) (components "/storage/dev".toList)
  reserved : ∀ name ∈ reserved, ¬ Below (components storage ++ [name]) (components path)

/-- The first component is no spelling of the staging directory but its own, which is refused, and
none of the locks. -/
def Plain (relative : Str) : Prop :=
  ∀ first ∈ (components relative).head?, (lowered first = "dev".toList → first = "dev".toList) ∧
    lowered first ≠ ".locks".toList

/-! ### What a capture may replace -/

section Targets

variable {relative : Str}

lemma safeRelativePath_spec {img : Str} (h : rootpxeSafeRelativePath img = some relative) :
    ∀ p ∈ components relative, safeSegment p = true := by
  unfold rootpxeSafeRelativePath at h
  simp only at h
  split at h
  · cases h
  split at h
  · cases h
  split at h
  next hall =>
    obtain rfl := Option.some.inj h
    exact List.all_eq_true.mp hall
  next => cases h

lemma safeSegment_spec {p : Str} (h : safeSegment p = true) :
    p ≠ [] ∧ p ≠ ".".toList ∧ p ≠ "..".toList ∧
    lowered p ≠ ".rootpxe-imports".toList ∧ lowered p ≠ ".imports".toList := by
  simp only [safeSegment, Bool.and_eq_true, bne_iff_ne, ne_eq] at h
  obtain ⟨⟨⟨⟨⟨h1, h2⟩, h3⟩, h4⟩, h5⟩, -⟩ := h
  exact ⟨h1, h2, h3, h4, h5⟩

lemma components_ne_nil (path : Str) : components path ≠ [] := List.splitOn_ne_nil _ _

/-- The components of the target. -/
lemma components_target (relative : Str) :
    components (storage ++ '/' :: relative) = components storage ++ components relative :=
  List.splitOn_append_cons_self _ _

lemma components_storage : components storage = [[], "storage".toList] := rfl

/-- What is below a name at the top of the storage. -/
lemma below_top {name first : Str} {rest : List Str} :
    Below (components storage ++ [name]) (components storage ++ first :: rest) ↔
      lowered name = lowered first := by
  unfold Below
  rw [components_storage]
  simp [List.cons_prefix_cons]

/-- Nothing that is not empty is above a name at the top, but the name itself. -/
lemma above_top {name first : Str} {rest : List Str}
    (h : Below (components storage ++ first :: rest) (components storage ++ [name])) :
    lowered first = lowered name := by
  unfold Below at h
  rw [components_storage] at h
  simp only [List.cons_append, List.nil_append, List.map_cons, List.map_nil,
    List.cons_prefix_cons] at h
  exact h.2.2.1

lemma components_dev : components "/storage/dev".toList = components storage ++ ["dev".toList] :=
  rfl

/-- **A target that is not refused may be replaced, if its first component is plain.** -/
lemma replaceable_of_plain {img source : Str} (h : rootpxeSafeRelativePath img = some relative)
    (hs : inStaging source (storage ++ '/' :: relative) = false) (hp : Plain relative) :
    Replaceable (storage ++ '/' :: relative) := by
  have hsafe := safeRelativePath_spec h
  obtain ⟨first, rest, hparts⟩ := List.exists_cons_of_ne_nil (components_ne_nil relative)
  obtain ⟨hdev, hlocks⟩ := hp first (by rw [hparts]; rfl)
  have hfirst := safeSegment_spec (hsafe first (by rw [hparts]; exact List.mem_cons_self))
  -- the staging directory under its own name is refused
  have hne : first ≠ "dev".toList := by
    rintro rfl
    have hrel : relative ++ ['/'] = "dev/".toList ++ (relative ++ ['/']).drop 4 := by
      have hjoin : relative = List.intercalate ['/'] ("dev".toList :: rest) := by
        rw [← hparts]
        exact (List.intercalate_splitOn '/').symm
      rw [hjoin]
      cases rest with
      | nil => rfl
      | cons x rest => rfl
    simp only [inStaging, Bool.or_eq_false_iff, decide_eq_false_iff_not] at hs
    refine hs.2 ⟨(relative ++ ['/']).drop 4, ?_⟩
    show _ = storage ++ '/' :: relative ++ ['/']
    rw [List.append_assoc, List.cons_append, hrel]
    rfl
  have hlow : lowered first ≠ "dev".toList := fun h => hne (hdev h)
  constructor
  · refine ⟨components relative, components_target relative, components_ne_nil relative,
      fun p hp => ?_⟩
    obtain ⟨h1, h2, h3, -⟩ := safeSegment_spec (hsafe p hp)
    exact ⟨h1, h2, h3⟩
  · rw [components_target, hparts, components_dev]
    exact ⟨fun hb => hlow (below_top.mp hb).symm, fun hb => hlow (above_top hb)⟩
  · intro name hname
    rw [components_target, hparts]
    intro hb
    have heq := below_top.mp hb
    simp only [reserved, List.mem_cons, List.not_mem_nil, or_false] at hname
    rcases hname with rfl | rfl | rfl
    · exact hfirst.2.2.2.2 heq.symm
    · exact hfirst.2.2.2.1 heq.symm
    · exact hlocks heq.symm

/-- What is refused is below the staging directories. -/
lemma inStaging_iff {mac target : Str} :
    inStaging ("/storage/dev/".toList ++ mac) target = true ↔ "/storage/dev/".toList <+:
      target ++ ['/'] := by
  simp only [inStaging, Bool.or_eq_true, decide_eq_true_eq]
  refine ⟨fun h => h.elim (fun h => ?_) id, .inr⟩
  exact List.IsPrefix.trans ⟨mac ++ ['/'], (List.append_assoc _ _ _).symm⟩ h

/-- The first component of a target that is refused is the staging directory, under its own name. -/
lemma plain_of_staging (h : "/storage/dev/".toList <+: storage ++ '/' :: relative ++ ['/']) :
    Plain relative := by
  obtain ⟨rest, hrest⟩ := h
  have hcut : relative ++ ['/'] = "dev".toList ++ '/' :: rest := by
    have h : "/storage/".toList ++ ("dev".toList ++ '/' :: rest) = "/storage/".toList ++
        (relative ++ ['/']) := by
      rw [← List.append_assoc]
      exact hrest.trans (List.append_assoc _ _ _)
    exact (List.append_cancel_left h).symm
  have hcomp : components (relative ++ ['/']) = "dev".toList :: components rest := by
    rw [hcut]
    exact List.splitOn_append_cons_self _ _
  have hsplit : components (relative ++ ['/']) = components relative ++ [[]] :=
    List.splitOn_append_cons_self _ _
  obtain ⟨first', parts, hparts⟩ := List.exists_cons_of_ne_nil (components_ne_nil relative)
  intro first hfirst
  rw [hparts] at hfirst hsplit
  obtain rfl : first' = first := by simpa using hfirst
  rw [hcomp, List.cons_append, List.cons.injEq] at hsplit
  rw [← hsplit.1]
  exact ⟨fun _ => rfl, by decide⟩

/-- **A target whose first component is not plain may not be replaced.** -/
lemma plain_of_replaceable (h : Replaceable (storage ++ '/' :: relative)) : Plain relative := by
  intro first hfirst
  obtain ⟨first', rest, hparts⟩ := List.exists_cons_of_ne_nil (components_ne_nil relative)
  rw [hparts] at hfirst
  obtain rfl : first' = first := by simpa using hfirst
  have hstaging := h.staging.1
  have hlocks := h.reserved ".locks".toList (by simp [reserved])
  rw [components_target, hparts] at hlocks hstaging
  rw [components_dev] at hstaging
  refine ⟨fun hd => absurd (below_top.mpr ?_) hstaging, fun hl => hlocks (below_top.mpr ?_)⟩
  · exact hd.symm
  · exact hl.symm

end Targets

/-! ### The program keeps to its target -/

section Keeps

variable {P : Step → Prop}

/-- A test of the system. -/
lemma only_test {c : Call} {α : Type} {k : c.Answer → Direct α} (h : ∀ r, P ⟨c, r⟩)
    (hk : ∀ r, (k r).Only P) :
    (ask c >>= k).Only P := Prog.Only.bind (Prog.only_ask h) hk

lemma only_freeOrDirectory (h : ∀ e, target? e = none → P e) (path : Str) :
    (freeOrDirectory path).Only P := by
  refine only_test (c := .isLink path) (fun r => h _ rfl) fun r => ?_
  split
  · trivial
  refine only_test (c := .exists path) (fun r => h _ rfl) fun r => ?_
  split
  · trivial
  · exact Prog.only_ask fun r => h _ rfl

lemma only_makeParents (h : ∀ e, target? e = none → P e) : ∀ (segments : List Str) (parent : Str),
    (makeParents parent segments).Only P
  | [], _ => trivial
  | segment :: segments, parent => by
    refine Prog.Only.bind (only_freeOrDirectory h _) fun r => ?_
    split
    · trivial
    refine only_test (c := .mkdir (parent ++ '/' :: segment)) (fun r => h _ rfl) fun r => ?_
    split
    · trivial
    · exact only_makeParents h segments _

/-- What is removed and what is moved is the target. -/
lemma only_publish {source target : Str} (h : ∀ e, (∀ p, target? e = some p → p = target) → P e) :
    (publish source target).Only P := by
  have hnone : ∀ e, target? e = none → P e := fun e he => h e fun p hp => by
    rw [he] at hp
    cases hp
  refine only_test (c := .beginPublish) (fun r => hnone _ rfl) fun r => ?_
  split
  · trivial
  refine only_test (c := .sizeBytes source) (fun r => hnone _ rfl) fun size => ?_
  cases size with
  | none => trivial
  | some size =>
    simp only
    split
    · trivial
    refine Prog.Only.bind ?_ fun r => ?_
    · refine only_test (c := .isDir target) (fun r => hnone _ rfl) fun r => ?_
      split
      · trivial
      · exact Prog.only_ask fun r => h _ fun p hp => (Option.some.inj hp).symm
    · split
      · trivial
      · exact Prog.only_ask fun r => h _ fun p hp => (Option.some.inj hp).symm

lemma only_publishOnDevice {source target parent : Str}
    (h : ∀ e, (∀ p, target? e = some p → p = target) → P e) :
    (publishOnDevice source target parent).Only P := by
  have hnone : ∀ e, target? e = none → P e := fun e he => h e fun p hp => by
    rw [he] at hp
    cases hp
  refine only_test (c := .device source) (fun r => hnone _ rfl) fun d => ?_
  cases d with
  | none => trivial
  | some d =>
    refine only_test (c := .device parent) (fun r => hnone _ rfl) fun d' => ?_
    cases d' with
    | none => trivial
    | some d' =>
      show Prog.Only P (if _ then _ else _)
      split
      · trivial
      refine Prog.Only.bind ?_ fun r => ?_
      · refine only_test (c := .exists target) (fun r => hnone _ rfl) fun r => ?_
        split
        · trivial
        · exact only_test (c := .device target) (fun r => hnone _ rfl) fun r => trivial
      · split
        · trivial
        · exact only_publish h

/-- **Only the target is removed or replaced**, and only if it is not refused. -/
lemma only_finalize (v : Vars) (hnone : ∀ e, target? e = none → P e)
    (htarget : ∀ relative, rootpxeSafeRelativePath v.img = some relative →
      inStaging v.source (storage ++ '/' :: relative) = false →
      ∀ e, (∀ p, target? e = some p → p = storage ++ '/' :: relative) → P e) :
    (rootpxeCaptureDirectFinalize v).Only P := by
  unfold rootpxeCaptureDirectFinalize
  split
  · trivial
  refine only_test (c := .isDir v.source) (fun r => hnone _ rfl) fun r => ?_
  split
  · trivial
  refine only_test (c := .isLink v.source) (fun r => hnone _ rfl) fun r => ?_
  split
  · trivial
  refine only_test (c := .waitForWriters) (fun r => hnone _ rfl) fun r => ?_
  split
  · trivial
  refine only_test (c := .publishMetadata) (fun r => hnone _ rfl) fun r => ?_
  split
  · trivial
  split
  · trivial
  next relative hrel =>
    simp only
    split
    · trivial
    next hstaging =>
      refine Prog.Only.bind (only_freeOrDirectory hnone _) fun r => ?_
      split
      · trivial
      refine Prog.Only.bind (only_makeParents hnone _ _) fun r => ?_
      split
      · trivial
      · exact only_publishOnDevice (htarget relative hrel (by simpa using hstaging))

end Keeps

/-! ### A run that gets there -/

section Reaches

variable {α : Type}

lemma runs_then {c : Call} {k : c.Answer → Direct α} (r : c.Answer) {σ : List Step} {o : Option α}
    (h : Prog.Runs (k r) σ o) :
    Prog.Runs (ask c >>= k) (⟨c, r⟩ :: σ) o := .call h

lemma runs_call (c : Call) (r : c.Answer) : Prog.Runs (ask c) [⟨c, r⟩] (some r) := Prog.runs_ask c r

/-- Every path is a directory. -/
lemma runs_freeOrDirectory (path : Str) : ∃ τ, Prog.Runs (freeOrDirectory path) τ (some true) := by
  have hdir : Prog.Runs (isDir path) [⟨.isDir path, true⟩] (some true) :=
    runs_call (.isDir path) true
  exact ⟨_, runs_then (c := .isLink path) false (runs_then (c := .exists path) true hdir)⟩

lemma runs_makeParents : ∀ (segments : List Str) (parent : Str), ∃ τ,
    Prog.Runs (makeParents parent segments) τ (some true)
  | [], _ => ⟨_, .ret true⟩
  | segment :: segments, parent => by
    obtain ⟨τ, hτ⟩ := runs_freeOrDirectory (parent ++ '/' :: segment)
    obtain ⟨σ, hσ⟩ := runs_makeParents segments (parent ++ '/' :: segment)
    exact ⟨_, hτ.bind (runs_then (c := .mkdir (parent ++ '/' :: segment)) true hσ)⟩

lemma runs_publishOnDevice (source target parent : Str) :
    ∃ τ, Prog.Runs (publishOnDevice source target parent) τ (some true) ∧
    ⟨.move source target, true⟩ ∈ τ := by
  have hdevice : Prog.Runs (sameDevice target "1".toList) _ (some true) :=
    runs_then (c := .exists target) true
      (runs_then (c := .device target) (some "1".toList) (.ret true))
  have htree : Prog.Runs (removeTree target) [⟨.removeTree target, true⟩] (some true) :=
    runs_call (.removeTree target) true
  have hmove : Prog.Runs (move source target) [⟨.move source target, true⟩] (some true) :=
    runs_call (.move source target) true
  have hremove : Prog.Runs (removeOld target) _ (some true) :=
    runs_then (c := .isDir target) true htree
  have hpublish : Prog.Runs (publish source target) _ (some true) :=
    runs_then (c := .beginPublish) true
      (runs_then (c := .sizeBytes source) (some "1".toList) (hremove.bind hmove))
  refine ⟨_,
    runs_then (c := .device source) (some "1".toList)
      (runs_then (c := .device parent) (some "1".toList)
    (hdevice.bind hpublish)), ?_⟩
  simp

/-- The capture of a task whose directory is there is published, wherever the path leads that is not
refused. -/
lemma runs_finalize {v : Vars} {relative : Str} (hv : v.imagePath = v.source)
    (hrel : rootpxeSafeRelativePath v.img = some relative)
    (hs : inStaging v.source (storage ++ '/' :: relative) = false) :
    ∃ τ, Prog.Runs (rootpxeCaptureDirectFinalize v) τ (some true) ∧
      ⟨.move v.source (storage ++ '/' :: relative), true⟩ ∈ τ := by
  obtain ⟨τ₁, h₁⟩ := runs_freeOrDirectory (storage ++ '/' :: relative)
  obtain ⟨τ₂, h₂⟩ := runs_makeParents (parentSegments relative) storage
  obtain ⟨τ₃, h₃, hmem⟩ :=
    runs_publishOnDevice v.source (storage ++ '/' :: relative)
      (parentPath (storage ++ '/' :: relative))
  unfold rootpxeCaptureDirectFinalize
  rw [if_neg (not_not.mpr hv), hrel]
  simp only [hs]
  refine ⟨_, runs_then (c := .isDir v.source) true (runs_then (c := .isLink v.source) false
    (runs_then (c := .waitForWriters) true
      (runs_then (c := .publishMetadata) true (h₁.bind (h₂.bind h₃))))), ?_⟩
  simp [hmem]

end Reaches

/-- **What a capture removes or replaces may be replaced**, exactly if the first component of its
path is plain. -/
theorem finalize_replaceable (img : Str) :
    (∀ mac imagePath τ o, Prog.Runs (rootpxeCaptureDirectFinalize ⟨mac, imagePath, img⟩) τ o →
      ∀ e ∈ τ, ∀ path, target? e = some path → Replaceable path) ↔
    ∀ relative, rootpxeSafeRelativePath img = some relative → Plain relative := by
  constructor
  · intro h relative hrel
    by_cases hs : "/storage/dev/".toList <+: storage ++ '/' :: relative ++ ['/']
    · exact plain_of_staging hs
    · have hs' : ∀ mac, inStaging ("/storage/dev/".toList ++ mac) (storage ++ '/' :: relative) =
        false := fun mac =>
        Bool.eq_false_iff.mpr fun h => hs (inStaging_iff.mp h)
      obtain ⟨τ, hτ, hmem⟩ := runs_finalize
        (v := ⟨"001122334455".toList, "/storage/dev/".toList ++ "001122334455".toList, img⟩)
          rfl hrel (hs' _)
      exact plain_of_replaceable (h _ _ τ _ hτ _ hmem _ rfl)
  · intro h mac imagePath τ o hτ
    refine (only_finalize (P := fun e => ∀ path, target? e = some path → Replaceable path) ⟨mac,
      imagePath, img⟩ ?_ ?_).of_runs hτ
    · intro e he path hp
      rw [he] at hp
      cases hp
    · intro relative hrel hs e he path hp
      rw [he path hp]
      exact replaceable_of_plain hrel hs (h relative hrel)

/-- The tree of the locks is replaced by a capture whose image has its name. -/
theorem finalize_replaces_locks : ¬ ∀ mac imagePath τ o,
    Prog.Runs (rootpxeCaptureDirectFinalize ⟨mac, imagePath, ".locks".toList⟩) τ o →
      ∀ e ∈ τ, ∀ path, target? e = some path → Replaceable path := by
  intro h
  obtain ⟨τ, hτ, hmem⟩ :=
    @runs_finalize ⟨"001122334455".toList, "/storage/dev/001122334455".toList, ".locks".toList⟩
    ".locks".toList rfl (by decide) (by decide)
  have hplain := plain_of_replaceable (h _ _ τ _ hτ _ hmem _ rfl)
  exact (hplain ".locks".toList (by decide)).2 (by decide)

end Pxeos.Capture
