import Pxeos.Lib.Assign
import Pxeos.Lib.Words

/-!
# The disks of a task

`getHardDisk` of `funcs.sh` for the deployment of an image of several disks: each size of the image
gets the only device that has it, and the selectors of the host may only repeat that choice.  What
the commands say about the devices is in an `Inventory`.
-/

namespace Pxeos.Target

open Pxeos.Lib

/-! ### The devices -/

/-- What the commands print: the path of a file, the names that a pattern stands for, and the facts
of a device. -/
structure Inventory where
  readlink : Str → Option Str
  glob : Str → List Str
  size : Str → Str
  uuid : Str → Str
  serialAndWwn : Str → Str

/-- The words of a value that is not quoted. -/
def Inventory.expand (inv : Inventory) (value : Str) : List Str :=
  (blankFields value).flatMap inv.glob

/-- `${var#"${var%%[![:space:]]*}"}` and the same at the end. -/
def trimmed (s : Str) : Str := ((s.dropWhile isSpace).reverse.dropWhile isSpace).reverse

def trim (s : Str) : Str := echo ["-n".toList, trimmed s]

/-- What a variable gets from `normalize`. -/
def Inventory.normalize (inv : Inventory) (input : Str) : Str :=
  captured (echo (inv.expand (captured ((xargs (trim input)).map Char.toLower))))

/-- What a variable gets from `resolve_path`. -/
def Inventory.resolvePath (inv : Inventory) (input : Str) : Str :=
  captured (echo (inv.expand (captured (match inv.readlink input with
    | some path => path ++ ['\n']
    | none => echo [input]))))

/-- What `s/.*KEY="\([^"]*\)".*/\1/p` prints of a line: the last value of the key that is closed. -/
def quotedValue (key : Str) : Str → Option Str
  | [] => none
  | c :: s =>
    match quotedValue key s with
    | some v => some v
    | none =>
      if key <+: c :: s then
        let rest := (c :: s).drop key.length
        if '"' ∈ rest then some (rest.takeWhile (· ≠ '"')) else none
      else none

/-- `sed -n` with that command, on the output for a device. -/
def quotedValues (key kv : Str) : Str :=
  captured (unlines ((records (kv ++ ['\n'])).filterMap (quotedValue key)))

def Inventory.deviceSize (inv : Inventory) (d : Str) : Str := captured (inv.size d)

/-- A selector is meant for a device: its path, or one of the normalized facts. -/
def Inventory.Selects (inv : Inventory) (spec d : Str) : Prop :=
  inv.resolvePath spec = d ∨ inv.normalize spec = inv.normalize (inv.deviceSize d) ∨
    inv.normalize spec = inv.normalize (captured (inv.uuid d)) ∨
    inv.normalize spec = inv.normalize (quotedValues "SERIAL=\"".toList (inv.serialAndWwn d)) ∨
    inv.normalize spec = inv.normalize (quotedValues "WWN=\"".toList (inv.serialAndWwn d))

instance (inv : Inventory) (spec d : Str) : Decidable (inv.Selects spec d) := by
  unfold Inventory.Selects
  infer_instance

/-- The words of `${fdrive//,/ }`. -/
def Inventory.selectors (inv : Inventory) (fdrive : Str) : List Str :=
  inv.expand (fdrive.map fun c => if c = ',' then ' ' else c)

/-! ### The disks of the image -/

/-- The sizes of the disks, which are numbered without a gap and have their boot code; from the
number `expected` on. -/
def expectedSizes (hasMbr : Str → Bool) : ℕ → List (Str × Str) → Option (List Str)
  | _, [] => some []
  | expected, (number, exp) :: rest =>
    if number = Nat.toDigits 10 expected ∧ isPositive exp ∧ hasMbr number then
      (expectedSizes hasMbr (expected + 1) rest).map (exp :: ·)
    else none

/-- The devices of a size that are not in the text of the used ones. -/
def candidates (size : Str → Str) (used exp : Str) (disks : List Str) : List Str :=
  disks.filter fun d => decide (¬ (' ' :: d ++ [' ']) <:+: used) && decide (size d = exp)

/-- The loop over the sizes. -/
def mapDisks (size : Str → Str) (disks : List Str) : Str → List Str → Option (List Str)
  | _, [] => some []
  | used, exp :: exps =>
    match candidates size used exp disks with
    | [m] => (mapDisks size disks (used ++ (' ' :: m ++ [' '])) exps).map (m :: ·)
    | _ => none

/-! ### The selectors -/

/-- The number of the mapped disks that a selector is meant for, and the place of the last one. -/
def scanMapped (inv : Inventory) (spec : Str) : ℕ → List Str → ℕ × Option ℕ → ℕ × Option ℕ
  | _, [], found => found
  | place, d :: ds, found =>
    scanMapped inv spec (place + 1) ds (if inv.Selects spec d then
      (found.1 + 1, some place) else found)

/-- The loop over the selectors: the number of them. -/
def requestedPlaces (inv : Inventory) (mapped : List Str) : ℕ → List Str → Option ℕ
  | requested, [] => some requested
  | requested, spec :: specs =>
    if scanMapped inv spec 0 mapped (0, none) = (1, some requested) then
      requestedPlaces inv mapped (requested + 1) specs
    else none

/-- The variables that `getHardDisk` sets. -/
structure Drives where
  hd : Str
  disks : Str
  deriving DecidableEq, Repr

/-- `getHardDisk` for the deployment of an image of several disks; `facts` is what is known about
these. -/
def getHardDiskMpa (inv : Inventory) (hasMbr : Str → Bool) (facts : Option Str)
    (devs fdrive : Str) : Option Drives :=
  facts.bind fun facts =>
  (expectedSizes hasMbr 1 ((records (facts ++ ['\n'])).map (readTwo '|'))).bind fun sizes =>
  if sizes = [] then none
  else
    (mapDisks inv.deviceSize (blankFields devs) [' '] sizes).bind fun mapped =>
    let drives : Drives := ⟨mapped.headD [], List.intercalate [' '] mapped⟩
    if fdrive = [] then some drives
    else
      (requestedPlaces inv mapped 0 (inv.selectors fdrive)).bind fun requested =>
      if requested ≤ mapped.length then some drives else none

/-! ### The mapping is the only one -/

/-- The text of the used devices. -/
def usedText (taken : List Str) : Str := ' ' :: taken.flatMap fun m => ' ' :: m ++ [' ']

lemma usedText_concat (taken : List Str) (m : Str) :
    usedText taken ++ (' ' :: m ++ [' ']) = usedText (taken ++ [m]) := by
  unfold usedText
  rw [List.flatMap_append, List.flatMap_singleton]
  rfl

/-- A device stands in the text of the used ones exactly if it is one of them. -/
lemma infix_usedText {taken : List Str} {d : Str} (hne : d ≠ []) (hd : ' ' ∉ d)
    (ht : ∀ m ∈ taken, ' ' ∉ m) :
    ' ' :: d ++ [' '] <:+: usedText taken ↔ d ∈ taken := by
  have htext : usedText taken = ' ' :: fenced ' ' (taken.flatMap fun m => [[], m]) := by
    unfold usedText fenced
    rw [List.flatMap_assoc]
    simp
  rw [htext, infix_fenced hd]
  · rw [List.mem_flatMap]
    constructor
    · rintro ⟨m, hm, hdm⟩
      rcases List.mem_cons.mp hdm with h | h
      · exact absurd h hne
      · rwa [List.mem_singleton.mp h]
    · exact fun h => ⟨d, h, List.mem_cons_of_mem _ List.mem_cons_self⟩
  · intro v hv
    obtain ⟨m, hm, hv⟩ := List.mem_flatMap.mp hv
    rcases List.mem_cons.mp hv with rfl | hv
    · exact List.not_mem_nil
    · rw [List.mem_singleton.mp hv]
      exact ht m hm

/-- The loop over the text of the used devices is the one over the free ones. -/
lemma mapDisks_eq (size : Str → Str) {disks taken : List Str} (hnd : disks.Nodup)
    (hword : ∀ d ∈ disks, d ≠ [] ∧ ' ' ∉ d) (htaken : ∀ m ∈ taken, m ∈ disks) (sizes : List Str) :
    mapDisks size disks (usedText taken) sizes = onlyFree size (untaken disks taken) sizes := by
  induction sizes generalizing taken with
  | nil => rfl
  | cons exp exps ih =>
    have hcand : candidates size (usedText taken) exp disks = (untaken disks taken).filter fun d =>
        size d = exp := by
      unfold candidates untaken
      rw [List.filter_filter]
      refine List.filter_congr fun d hd => ?_
      rw [Bool.and_comm]
      congr 1
      exact decide_eq_decide.mpr
        (not_congr (infix_usedText (hword d hd).1 (hword d hd).2
          fun m hm => (hword m (htaken m hm)).2))
    rw [mapDisks, onlyFree, hcand]
    split
    next m hm =>
      have hmem : m ∈ disks := by
        have hmem : m ∈ (untaken disks taken).filter fun d => size d = exp := by
          rw [hm]; exact List.mem_cons_self
        exact (mem_untaken.mp (List.mem_of_mem_filter hmem)).1
      have htaken' : ∀ x ∈ taken ++ [m], x ∈ disks := by
        intro x hx
        rcases List.mem_append.mp hx with hx | hx
        · exact htaken x hx
        · rwa [List.mem_singleton.mp hx]
      rw [usedText_concat, ih htaken', untaken_concat hnd, hm]
    next h =>
      split
      next m hm => exact absurd hm (h m)
      next => rfl

/-- **The mapping**: it succeeds exactly if there is one assignment of devices to the disks of the
image. -/
theorem mapDisks_iff {size : Str → Str} {devs : Str} (hnd : (blankFields devs).Nodup)
    {sizes ds : List Str} :
    mapDisks size (blankFields devs) [' '] sizes = some ds ↔
      Injection size (blankFields devs) sizes ds ∧ ∀ ds',
        Injection size (blankFields devs) sizes ds' → ds' = ds := by
  have hnone : ∀ m ∈ ([] : List Str), m ∈ blankFields devs := fun m hm => absurd hm List.not_mem_nil
  have hrun := mapDisks_eq size hnd (fun d hd => word_of_mem_blankFields hd) hnone sizes
  have hused : usedText [] = [' '] := rfl
  rw [untaken_nil, hused] at hrun
  rw [hrun]
  exact onlyFree_iff hnd

/-! ### The selectors repeat it -/

/-- A selector is meant for the disk at a place, and for no other one. -/
def SelectsOnly (inv : Inventory) (mapped : List Str) (place : ℕ) (spec : Str) : Prop :=
  ∃ d, mapped[place]? = some d ∧ inv.Selects spec d ∧ ∀ j d', mapped[j]? = some d' → j ≠ place →
    ¬ inv.Selects spec d'

lemma scanMapped_fst (inv : Inventory) (spec : Str) (place : ℕ) (ds : List Str)
    (found : ℕ × Option ℕ) :
    (scanMapped inv spec place ds found).1 = found.1 + ds.countP fun d => inv.Selects spec d := by
  induction ds generalizing place found with
  | nil => rfl
  | cons d ds ih =>
    rw [scanMapped, ih]
    by_cases h : inv.Selects spec d
    · rw [if_pos h, List.countP_cons_of_pos (p := fun d => decide (inv.Selects spec d))
        (decide_eq_true h)]
      dsimp only
      omega
    · rw [if_neg h, List.countP_cons_of_neg (p := fun d => decide (inv.Selects spec d))
        (by rw [decide_eq_true_iff]; exact h)]

lemma scanMapped_of_none {inv : Inventory} {spec : Str} {ds : List Str}
    (h : ∀ d ∈ ds, ¬ inv.Selects spec d) (place : ℕ) (found : ℕ × Option ℕ) :
    scanMapped inv spec place ds found = found := by
  induction ds generalizing place with
  | nil => rfl
  | cons d ds ih =>
    rw [scanMapped, if_neg (h d List.mem_cons_self)]
    exact ih (fun x hx => h x (List.mem_cons_of_mem _ hx)) (place + 1)

/-- The scan finds one disk exactly if the selector is meant for it only. -/
lemma scanMapped_iff {inv : Inventory} {spec : Str} {ds : List Str} {place r : ℕ} :
    scanMapped inv spec place ds (0, none) = (1, some r) ↔ ∃ i, r = place + i ∧
      SelectsOnly inv ds i spec := by
  induction ds generalizing place with
  | nil =>
    refine iff_of_false (by simp [scanMapped]) ?_
    rintro ⟨i, -, d, hd, -⟩
    cases hd
  | cons d ds ih =>
    rw [scanMapped]
    split_ifs with hd
    · -- the first disk is selected, so it has to be the only one
      constructor
      · intro h
        have hcount := scanMapped_fst inv spec (place + 1) ds (0 + 1, some place)
        rw [h] at hcount
        have hnone : ∀ x ∈ ds, ¬ inv.Selects spec x := by
          have hzero : ds.countP (fun d => inv.Selects spec d) = 0 := by
            dsimp only at hcount
            omega
          intro x hx hsel
          exact List.countP_eq_zero.mp hzero x hx (decide_eq_true hsel)
        rw [scanMapped_of_none hnone] at h
        refine ⟨0, (Option.some.inj (Prod.mk.inj h).2).symm, d, rfl, hd, ?_⟩
        intro j d' hj hne
        obtain ⟨j, rfl⟩ : ∃ k, j = k + 1 := ⟨j - 1, by omega⟩
        exact hnone d' (List.mem_of_getElem? hj)
      · rintro ⟨i, rfl, c, hc, -, honly⟩
        obtain rfl : i = 0 := by
          by_contra hi
          exact honly 0 d rfl (fun h => hi h.symm) hd
        rw [scanMapped_of_none]
        · rfl
        · intro x hx
          obtain ⟨j, hj⟩ := List.getElem?_of_mem hx
          exact honly (j + 1) x hj (by omega)
    · rw [ih]
      constructor
      · rintro ⟨i, rfl, c, hc, hsel, honly⟩
        refine ⟨i + 1, by omega, c, hc, hsel, ?_⟩
        intro j d' hj hne
        rcases j with - | j
        · rwa [← Option.some.inj hj]
        · exact honly j d' hj (by omega)
      · rintro ⟨i, rfl, c, hc, hsel, honly⟩
        rcases i with - | i
        · rw [← Option.some.inj hc] at hsel
          exact absurd hsel hd
        · exact ⟨i, by omega, c, hc, hsel, fun j d' hj hne => honly (j + 1) d' hj (by omega)⟩

lemma requestedPlaces_iff {inv : Inventory} {mapped specs : List Str} {k n : ℕ} :
    requestedPlaces inv mapped k specs = some n ↔
      n = k + specs.length ∧ ∀ i spec, specs[i]? = some spec →
        SelectsOnly inv mapped (k + i) spec := by
  induction specs generalizing k with
  | nil =>
    rw [requestedPlaces, Option.some.injEq]
    constructor
    · rintro rfl
      exact ⟨rfl, fun i spec h => by cases h⟩
    · rintro ⟨rfl, -⟩
      rfl
  | cons spec specs ih =>
    have hhead : scanMapped inv spec 0 mapped (0, none) = (1, some k) ↔
        SelectsOnly inv mapped k spec := by
      rw [scanMapped_iff]
      constructor
      · rintro ⟨i, rfl, h⟩
        rwa [Nat.zero_add]
      · exact fun h => ⟨k, (Nat.zero_add k).symm, h⟩
    rw [requestedPlaces, List.length_cons]
    split_ifs with h
    · rw [ih]
      constructor
      · rintro ⟨rfl, hall⟩
        refine ⟨by omega, fun i s hs => ?_⟩
        rcases i with - | i
        · rw [← Option.some.inj hs]
          exact hhead.mp h
        · have := hall i s hs
          rwa [show k + 1 + i = k + (i + 1) by omega] at this
      · rintro ⟨rfl, hall⟩
        refine ⟨by omega, fun i s hs => ?_⟩
        have := hall (i + 1) s hs
        rwa [show k + (i + 1) = k + 1 + i by omega] at this
    · refine iff_of_false (by simp) ?_
      rintro ⟨-, hall⟩
      exact h (hhead.mpr (hall 0 spec rfl))

lemma requested_le {inv : Inventory} {mapped specs : List Str}
    (h : ∀ i spec, specs[i]? = some spec → SelectsOnly inv mapped i spec) :
    specs.length ≤ mapped.length := by
  rcases specs.eq_nil_or_concat with rfl | ⟨init, last, rfl⟩
  · exact Nat.zero_le _
  · rw [List.concat_eq_append] at h ⊢
    obtain ⟨d, hd, -⟩ := h init.length last (List.getElem?_concat_length)
    have := (List.getElem?_eq_some_iff.mp hd).1
    rw [List.length_append, List.length_singleton]
    omega

/-- What the deployment of an image of several disks sets for a mapping. -/
def drivesOf (mapped : List Str) : Drives := ⟨mapped.headD [], List.intercalate [' '] mapped⟩

/-- **The disks of a deployment** of an image of several disks: the loop over the sizes succeeds
exactly if there is one assignment, and gives it; `getHardDisk` gives the same one, exactly if each
selector is meant for the disk at its own place and no other. -/
theorem getHardDiskMpa_iff (inv : Inventory) (hasMbr : Str → Bool) (devs : Str)
    (hnd : (blankFields devs).Nodup) :
    (∀ sizes ds, mapDisks inv.deviceSize (blankFields devs) [' '] sizes = some ds ↔
      Injection inv.deviceSize (blankFields devs) sizes ds ∧
        ∀ ds', Injection inv.deviceSize (blankFields devs) sizes ds' → ds' = ds) ∧
    ∀ facts fdrive drives, getHardDiskMpa inv hasMbr (some facts) devs fdrive = some drives ↔
      ∃ sizes ds, expectedSizes hasMbr 1 ((records (facts ++ ['\n'])).map (readTwo '|')) =
        some sizes ∧ sizes ≠ [] ∧
        (Injection inv.deviceSize (blankFields devs) sizes ds ∧
          ∀ ds', Injection inv.deviceSize (blankFields devs) sizes ds' → ds' = ds) ∧
        (fdrive ≠ [] → ∀ i spec, (inv.selectors fdrive)[i]? = some spec →
          SelectsOnly inv ds i spec) ∧
        drives = drivesOf ds := by
  refine ⟨fun sizes ds => mapDisks_iff hnd, fun facts fdrive drives => ?_⟩
  unfold getHardDiskMpa
  simp only [Option.bind_some, Option.bind_eq_some_iff]
  constructor
  · rintro ⟨sizes, hsizes, h⟩
    by_cases hne : sizes = []
    · rw [if_pos hne] at h
      cases h
    rw [if_neg hne] at h
    obtain ⟨ds, hmap, h⟩ := Option.bind_eq_some_iff.mp h
    refine ⟨sizes, ds, hsizes, hne, (mapDisks_iff hnd).mp hmap, ?_⟩
    by_cases hfdrive : fdrive = []
    · rw [if_pos hfdrive] at h
      exact ⟨fun hf => absurd hfdrive hf, (Option.some.inj h).symm⟩
    · rw [if_neg hfdrive] at h
      obtain ⟨requested, hreq, h⟩ := Option.bind_eq_some_iff.mp h
      split_ifs at h
      have hall := (requestedPlaces_iff.mp hreq).2
      simp only [Nat.zero_add] at hall
      exact ⟨fun _ => hall, (Option.some.inj h).symm⟩
  · rintro ⟨sizes, ds, hsizes, hne, hinj, hsel, rfl⟩
    refine ⟨sizes, hsizes, ?_⟩
    rw [if_neg hne, (mapDisks_iff hnd).mpr hinj, Option.bind_some]
    split_ifs with hfdrive
    · rfl
    · have hsel := hsel hfdrive
      have hreq : requestedPlaces inv ds 0 (inv.selectors fdrive) =
          some (inv.selectors fdrive).length := by
        refine requestedPlaces_iff.mpr ⟨(Nat.zero_add _).symm, fun i spec h => ?_⟩
        rw [Nat.zero_add]
        exact hsel i spec h
      rw [hreq, Option.bind_some, if_pos (requested_le hsel)]
      rfl

/-- Two disks of different sizes. -/
def twoDisks : Inventory where
  readlink := some
  glob w := [w]
  size d := if d = "/dev/sda".toList then "100\n".toList else "200\n".toList
  uuid _ := []
  serialAndWwn _ := "SERIAL=\"S1\" WWN=\"\"\n".toList

/-- The sizes have one assignment, and the selectors `200,/dev/sda` are meant for its disks. -/
theorem getHardDiskMpa_twoDisks :
    (Injection twoDisks.deviceSize (blankFields "/dev/sda\n/dev/sdb".toList)
      ["200".toList, "100".toList]
        ["/dev/sdb".toList, "/dev/sda".toList] ∧
      ∀ ds', Injection twoDisks.deviceSize (blankFields "/dev/sda\n/dev/sdb".toList) ["200".toList,
        "100".toList] ds' →
        ds' = ["/dev/sdb".toList, "/dev/sda".toList]) ∧
    ∃ ds, (∀ i spec, (twoDisks.selectors "200,/dev/sda".toList)[i]? = some spec →
      SelectsOnly twoDisks ds i spec) ∧
      drivesOf ["/dev/sdb".toList, "/dev/sda".toList] = drivesOf ds := by
  have hiff := getHardDiskMpa_iff twoDisks (fun _ => true) "/dev/sda\n/dev/sdb".toList (by decide)
  refine ⟨(hiff.1 _ _).mp (by decide), ?_⟩
  obtain ⟨-, ds, -, -, -, hselected, hdrives⟩ := (hiff.2 "1|200\n2|100".toList "200,/dev/sda".toList
    (drivesOf ["/dev/sdb".toList, "/dev/sda".toList])).mp (by decide +kernel)
  exact ⟨ds, hselected (by decide), hdrives⟩

end Pxeos.Target
