import Pxeos.Target.Drives

/-!
# The disks that the host asks for

`getHardDisk` of `funcs.sh` when the host names its disks: each selector takes the first device that
it is meant for, and the device is taken out of the text of the devices with a stream editor.  The
pattern of the edit has a blank on each side of the device, and only a device that is alone in the
text has them.
-/

namespace Pxeos.Target

open Pxeos.Lib

/-! ### The edit and the loop -/

/-- A line after `s# $dev # #g; s/^ *//; s/ *$//`. -/
def editedLine (dev line : Str) : Str := trimBlanks (substituteAll (' ' :: dev ++ [' ']) [' '] line)

/-- The devices after `devs="$(echo " $devs " | sed …)"`. -/
def withoutDevice (dev devs : Str) : Str :=
  captured (unlines ((records (echo [' ' :: devs ++ [' ']])).map (editedLine dev)))

/-- The loop over the selectors: the text of the disks, and whether there was a match. -/
def matchDrives (inv : Inventory) : List Str → Str → Str → Bool → Str × Bool
  | [], _, disks, found => (disks, found)
  | spec :: specs, devs, disks, found =>
    match (blankFields devs).find? fun dev => inv.Selects spec dev with
    | some dev => matchDrives inv specs (withoutDevice dev devs) (disks ++ ' ' :: dev) true
    | none => matchDrives inv specs devs disks found

/-- `getHardDisk` for a host that names its disks; nothing if no disk matches. -/
def getHardDiskFdrive (inv : Inventory) (devs fdrive : Str) : Option Drives :=
  let run := matchDrives inv (inv.selectors fdrive) devs [] false
  if run.2 then
    let disks := captured (xargs (echo [run.1]))
    some ⟨(blankFields disks).headD [], disks⟩
  else none

/-- A path that `lsblk` prints for a device: without blanks, quotes and characters that mean
something to the edit. -/
structure DevicePath (d : Str) : Prop where
  head : ∃ rest, d = '/' :: rest
  plain : Plain d
  literal : ∀ c ∈ d, c ∉ "[]*^$#".toList
  noNul : '\x00' ∉ d

/-- The devices that `lsblk` and `awk` print, one in a line. -/
def devicesText (names : List Str) : Str := List.intercalate ['\n'] names

/-! ### The devices in the text -/

lemma DevicePath.ne_nil {d : Str} (h : DevicePath d) : d ≠ [] := by
  obtain ⟨rest, rfl⟩ := h.head
  exact List.cons_ne_nil _ _

lemma DevicePath.notBlank {d : Str} (h : DevicePath d) :
    ∀ c ∈ d, (c == ' ' || c == '\t' || c == '\n') = false := by
  intro c hc
  have hspace := (h.plain c hc).1
  rw [Bool.or_eq_false_iff, Bool.or_eq_false_iff, beq_eq_false_iff_ne, beq_eq_false_iff_ne,
    beq_eq_false_iff_ne]
  refine ⟨⟨?_, ?_⟩, ?_⟩
  · rintro rfl
    exact absurd hspace (by decide)
  · rintro rfl
    exact absurd hspace (by decide)
  · rintro rfl
    exact absurd hspace (by decide)

lemma DevicePath.notMem {d : Str} (h : DevicePath d) {c : Char} (hc : isSpace c = true) : c ∉ d :=
  fun hmem => by
  rw [(h.plain c hmem).1] at hc
  cases hc

lemma blankFields_devicesText {names : List Str} (h : ∀ d ∈ names, DevicePath d) :
    blankFields (devicesText names) = names :=
  blankFields_intercalate (.inr rfl) fun d hd => ⟨(h d hd).ne_nil, (h d hd).notBlank⟩

lemma devicesText_concat (init : List Str) (last : Str) :
    devicesText (init ++ [last]) = fenced '\n' init ++ last := by
  have hfence := intercalate_fenced (d := '\n') (show init ++ [last] ≠ [] by simp)
  have hsplit : fenced '\n' (init ++ [last]) = fenced '\n' init ++ last ++ ['\n'] := by
    unfold fenced
    rw [List.flatMap_append, List.flatMap_singleton, List.append_assoc]
  rw [hsplit] at hfence
  exact List.append_cancel_right hfence

/-! ### What the edit does -/

/-- A line with a device and at most one blank stays, but for the blank. -/
lemma editedLine_eq (dev : Str) {d : Str} (hd : ' ' ∉ d) {a b : ℕ} (hab : a + b ≤ 1) :
    editedLine dev (List.replicate a ' ' ++ (d ++ List.replicate b ' ')) = d := by
  unfold editedLine
  rw [substituteAll_eq_self, trimBlanks_replicate hd]
  rw [List.count_append, List.count_append, List.count_replicate_self, List.count_replicate_self,
    List.count_eq_zero.mpr hd,
    List.cons_append, List.count_cons_self, List.count_append, List.count_singleton_self]
  omega

/-- The lines of the text of the devices, between blanks. -/
lemma records_blanks {first last : Str} {mid : List Str} (hfirst : '\n' ∉ first)
    (hmid : ∀ d ∈ mid, '\n' ∉ d) (hlast : '\n' ∉ last) :
    records (echo [' ' :: devicesText (first :: mid ++ [last]) ++ [' ']]) = (' ' :: first) :: mid ++
      [last ++ [' ']] := by
  have htext : ' ' :: devicesText (first :: mid ++ [last]) ++ [' '] ++ ['\n'] =
      unlines ((' ' :: first) :: mid ++ [last ++ [' ']]) := by
    rw [devicesText_concat]
    unfold unlines fenced
    simp
  have hecho :=
    echo_single (isEchoOption_of_head (w := devicesText (first :: mid ++ [last]) ++ [' '])
    (show ' ' ≠ '-' by decide))
  rw [← List.cons_append, htext] at hecho
  rw [hecho, records_unlines]
  intro d hd
  rcases List.mem_append.mp hd with hd | hd
  · rcases List.mem_cons.mp hd with rfl | hd
    · exact List.not_mem_cons_of_ne_of_not_mem (by decide) hfirst
    · exact hmid d hd
  · rw [List.mem_singleton.mp hd]
    exact fun h => (List.mem_append.mp h).elim hlast (by decide)

/-- **The edit leaves two or more devices as they are.** -/
lemma withoutDevice_of_two {dev : Str} {names : List Str} (h : ∀ d ∈ names, DevicePath d)
    (htwo : 2 ≤ names.length) :
    withoutDevice dev (devicesText names) = devicesText names := by
  obtain ⟨first, mid, last, rfl⟩ : ∃ first mid last, names = first :: mid ++ [last] := by
    rcases names with - | ⟨first, rest⟩
    · exact absurd htwo (by decide)
    · rcases rest.eq_nil_or_concat with rfl | ⟨mid, last, rfl⟩
      · rw [List.length_singleton] at htwo
        omega
      · exact ⟨first, mid, last, by rw [List.concat_eq_append]; rfl⟩
  have hnl : ∀ d ∈ first :: mid ++ [last], '\n' ∉ d := fun d hd => (h d hd).notMem (by decide)
  have hbl : ∀ d ∈ first :: mid ++ [last], ' ' ∉ d := fun d hd => (h d hd).notMem (by decide)
  have hfirst : first ∈ first :: mid ++ [last] := List.mem_cons_self
  have hlast : last ∈ first :: mid ++ [last] := by simp
  have hmid : ∀ d ∈ mid, d ∈ first :: mid ++ [last] := fun d hd => by simp [hd]
  have hlines : ((' ' :: first) :: mid ++ [last ++ [' ']]).map (editedLine dev) =
      first :: mid ++ [last] := by
    have h1 : editedLine dev (' ' :: first) = first := by
      have := editedLine_eq dev (a := 1) (b := 0) (hbl first hfirst) (by omega)
      rwa [List.replicate_zero, List.append_nil] at this
    have h2 : editedLine dev (last ++ [' ']) = last :=
      editedLine_eq dev (a := 0) (b := 1) (hbl last hlast) (by omega)
    have h3 : mid.map (editedLine dev) = mid := by
      conv_rhs => rw [← List.map_id mid]
      refine List.map_congr_left fun d hd => ?_
      have := editedLine_eq dev (a := 0) (b := 0) (hbl d (hmid d hd)) (by omega)
      rwa [List.replicate_zero, List.append_nil] at this
    rw [List.map_append, List.map_cons, List.map_singleton, h1, h2, h3]
  unfold withoutDevice
  rw [records_blanks (hnl first hfirst) (fun d hd => hnl d (hmid d hd)) (hnl last hlast), hlines]
  have htext : unlines (first :: mid ++ [last]) = devicesText (first :: mid ++ [last]) ++ ['\n'] :=
    (intercalate_fenced (by simp)).symm
  rw [htext, captured_line]
  · intro hmem
    obtain ⟨d, hd, hc⟩ := List.mem_flatMap.mp (htext ▸ List.mem_append_left _ hmem)
    exact (List.mem_append.mp hc).elim (h d hd).noNul (by decide)
  · rw [devicesText_concat, List.getLast?_append_of_ne_nil _ (h last hlast).ne_nil]
    exact fun hend => hnl last hlast (List.mem_of_getLast? hend)

/-- It takes a device that is alone. -/
lemma withoutDevice_single {dev : Str} (h : DevicePath dev) :
    withoutDevice dev (devicesText [dev]) = [] := by
  have hbl : ' ' ∉ dev := h.notMem (by decide)
  have hnl : '\n' ∉ dev := h.notMem (by decide)
  have hecho := echo_single (isEchoOption_of_head (w := dev ++ [' ']) (show ' ' ≠ '-' by decide))
  have hrec : records (' ' :: (dev ++ [' ']) ++ ['\n']) = [' ' :: (dev ++ [' '])] := by
    have : records (unlines [' ' :: (dev ++ [' '])]) = [' ' :: (dev ++ [' '])] := records_unlines ?_
    · rwa [unlines, List.flatMap_singleton] at this
    · intro l hl
      rw [List.mem_singleton.mp hl]
      simp [hnl]
  have hedit : editedLine dev (' ' :: (dev ++ [' '])) = [] := by
    unfold editedLine
    rw [← List.cons_append, substituteAll_self (by simp)]
    decide
  unfold withoutDevice devicesText
  rw [List.intercalate_singleton, List.cons_append, hecho, hrec, List.map_singleton, hedit]
  decide

/-! ### The loop -/

/-- Whether a selector is meant for a device. -/
def fits (inv : Inventory) (spec d : Str) : Bool := decide (inv.Selects spec d)

/-- With one device at most the loop gives out each device once. -/
lemma matchDrives_of_one (inv : Inventory) {names : List Str} (h : ∀ d ∈ names, DevicePath d)
    (hone : names.length ≤ 1) (specs : List Str) (disks : Str) (found : Bool) :
    matchDrives inv specs (devicesText names) disks found =
      (disks ++ (firstFree (fits inv) names specs).flatMap (' ' :: ·), found ||
        !(firstFree (fits inv) names specs).isEmpty) := by
  induction specs generalizing names disks found with
  | nil => simp [matchDrives, firstFree]
  | cons spec specs ih =>
    rw [matchDrives, firstFree, blankFields_devicesText h]
    have hfind : (names.find? fun dev => inv.Selects spec dev) = names.find? (fits inv spec) := rfl
    rw [hfind]
    cases hf : names.find? (fits inv spec) with
    | none => exact ih h hone disks found
    | some dev =>
      obtain rfl : names = [dev] := by
        have hmem := List.mem_of_find?_eq_some hf
        rcases names with - | ⟨d, - | ⟨e, names⟩⟩
        · cases hmem
        · rw [List.mem_singleton.mp hmem]
        · simp at hone
      have hnone : ∀ d ∈ ([] : List Str), DevicePath d := fun d hd => absurd hd List.not_mem_nil
      have hrun := ih hnone (Nat.zero_le 1) (disks ++ ' ' :: dev) true
      have hempty : devicesText [] = [] := rfl
      rw [hempty] at hrun
      dsimp only
      rw [withoutDevice_single (h dev List.mem_cons_self), hrun, erase_alone]
      simp

/-- With more devices it gives what each selector takes alone. -/
lemma matchDrives_of_two (inv : Inventory) {names : List Str} (h : ∀ d ∈ names, DevicePath d)
    (htwo : 2 ≤ names.length) (specs : List Str) (disks : Str) (found : Bool) :
    matchDrives inv specs (devicesText names) disks found =
      (disks ++ (firstFits (fits inv) names specs).flatMap (' ' :: ·), found ||
        !(firstFits (fits inv) names specs).isEmpty) := by
  induction specs generalizing disks found with
  | nil => simp [matchDrives, firstFits]
  | cons spec specs ih =>
    rw [matchDrives, firstFits_cons, blankFields_devicesText h]
    have hfind : (names.find? fun dev => inv.Selects spec dev) = names.find? (fits inv spec) := rfl
    rw [hfind]
    cases hf : names.find? (fits inv spec) with
    | none => exact ih disks found
    | some dev =>
      dsimp only
      rw [withoutDevice_of_two h htwo, ih]
      simp

/-! ### The disks -/

/-- The text of the disks after `xargs`. -/
lemma captured_xargs {ws : List Str} (hne : ws ≠ []) (h : ∀ d ∈ ws, DevicePath d) :
    captured (xargs (echo [ws.flatMap (' ' :: ·)])) = List.intercalate [' '] ws := by
  obtain ⟨w, ws, rfl⟩ := List.exists_cons_of_ne_nil hne
  have hecho :=
    echo_single (isEchoOption_of_head (w := w ++ ws.flatMap (' ' :: ·)) (show ' ' ≠ '-' by decide))
  have hargs := argumentsFrom_blanks (fun d hd => (h d hd).ne_nil) (fun d hd => (h d hd).plain) []
  obtain ⟨rest, hw⟩ := (h w List.mem_cons_self).head
  have hprint : echo (w :: ws) = List.intercalate [' '] (w :: ws) ++ ['\n'] :=
    echo_of_head (by rw [hw]; exact isEchoOption_of_head (by decide))
  rw [List.flatMap_cons, List.cons_append] at hargs ⊢
  rw [hecho]
  unfold xargs
  rw [hargs, if_pos rfl]
  dsimp only
  rw [hprint, captured_line]
  · intro hmem
    have hfence := intercalate_fenced (d := ' ') (List.cons_ne_nil w ws)
    obtain ⟨d, hd, hc⟩ := List.mem_flatMap.mp (hfence ▸ List.mem_append_left _ hmem)
    exact (List.mem_append.mp hc).elim (h d hd).noNul (by decide)
  · intro hend
    have hfence := intercalate_fenced (d := ' ') (List.cons_ne_nil w ws)
    obtain ⟨d, hd, hc⟩ :=
      List.mem_flatMap.mp (hfence ▸ List.mem_append_left _ (List.mem_of_getLast? hend))
    exact (List.mem_append.mp hc).elim ((h d hd).notMem (by decide)) (by decide)

/-- What `getHardDisk` gives for the disks of a run. -/
lemma getHardDiskFdrive_eq {inv : Inventory} {names : List Str} (h : ∀ d ∈ names, DevicePath d)
    {fdrive : Str} {ws : List Str} (hws : ∀ d ∈ ws, d ∈ names)
    (hrun : matchDrives inv (inv.selectors fdrive) (devicesText names) [] false =
      ([] ++ ws.flatMap (' ' :: ·), false || !ws.isEmpty)) :
    (ws = [] ∧ getHardDiskFdrive inv (devicesText names) fdrive = none) ∨
      ∃ drives, getHardDiskFdrive inv (devicesText names) fdrive = some drives ∧
        blankFields drives.disks = ws := by
  unfold getHardDiskFdrive
  rw [hrun, List.nil_append, Bool.false_or]
  dsimp only
  rcases eq_or_ne ws [] with rfl | hne
  · exact .inl ⟨rfl, rfl⟩
  · right
    have hdev : ∀ d ∈ ws, DevicePath d := fun d hd => h d (hws d hd)
    rw [if_pos (by simpa using hne), captured_xargs hne hdev]
    exact ⟨_, rfl, blankFields_intercalate (.inl rfl) fun d hd => ⟨(hdev d hd).ne_nil,
      (hdev d hd).notBlank⟩⟩

/-- No disk twice, and each selector has taken the first device that it is meant for and that was
left. -/
structure TakenInOrder (inv : Inventory) (names specs disks : List Str) : Prop where
  nodup : disks.Nodup
  taken : disks = firstFree (fits inv) names specs

lemma firstFits_subset {inv : Inventory} {names specs : List Str} :
    ∀ d ∈ firstFits (fits inv) names specs, d ∈ names := by
  intro d hd
  obtain ⟨spec, -, hf⟩ := List.mem_filterMap.mp hd
  exact List.mem_of_find?_eq_some hf

/-- **The disks that the host asks for** are given out one by one exactly if there is one device at
most, or no two selectors are meant for the same device first. -/
theorem getHardDiskFdrive_iff (inv : Inventory) (names : List Str) (hnd : names.Nodup)
    (h : ∀ d ∈ names, DevicePath d) (fdrive : Str) :
    (∀ drives, getHardDiskFdrive inv (devicesText names) fdrive = some drives →
      TakenInOrder inv names (inv.selectors fdrive) (blankFields drives.disks)) ↔
      names.length ≤ 1 ∨ (firstFits (fits inv) names (inv.selectors fdrive)).Nodup := by
  rcases Nat.lt_or_ge 1 names.length with htwo | hone
  · have hrun := matchDrives_of_two inv h htwo (inv.selectors fdrive) [] false
    rcases getHardDiskFdrive_eq h firstFits_subset hrun with ⟨hnil, hnone⟩ | ⟨drives, hsome, hdisks⟩
    · refine iff_of_true (fun drives hd => ?_) (.inr (by rw [hnil]; exact List.nodup_nil))
      rw [hnone] at hd
      cases hd
    · rw [hsome]
      constructor
      · intro hall
        have := (hall drives rfl).nodup
        rw [hdisks] at this
        exact .inr this
      · rintro (hle | hfirst)
        · omega
        · rintro _ ⟨⟩
          rw [hdisks]
          exact ⟨hfirst, (firstFree_eq hfirst).symm⟩
  · refine iff_of_true (fun drives hd => ?_) (.inl hone)
    have hrun := matchDrives_of_one inv h hone (inv.selectors fdrive) [] false
    rcases getHardDiskFdrive_eq h (fun d hd => firstFree_subset d hd) hrun with ⟨-,
      hnone⟩ | ⟨drives', hsome, hdisks⟩
    · rw [hnone] at hd
      cases hd
    · rw [hsome] at hd
      obtain rfl := Option.some.inj hd
      rw [hdisks]
      exact ⟨firstFree_nodup hnd, rfl⟩

lemma devicePath_sd {c : Char} (hc : c = 'a' ∨ c = 'b') :
    DevicePath ['/', 'd', 'e', 'v', '/', 's', 'd', c] := by
  rcases hc with rfl | rfl
  · exact ⟨⟨_, rfl⟩, by simp [Plain, isSpace], by simp, by decide⟩
  · exact ⟨⟨_, rfl⟩, by simp [Plain, isSpace], by simp, by decide⟩

lemma devicePath_twoDisks : ∀ d ∈ ["/dev/sda".toList, "/dev/sdb".toList], DevicePath d := by
  intro d hd
  rcases List.mem_cons.mp hd with rfl | hd
  · exact devicePath_sd (.inl rfl)
  · rw [List.mem_singleton.mp hd]
    exact devicePath_sd (.inr rfl)

/-- The second disk by its path and the first one by its size. -/
theorem getHardDiskFdrive_twoDisks :
    TakenInOrder twoDisks ["/dev/sda".toList, "/dev/sdb".toList]
      (twoDisks.selectors "/dev/sdb,100".toList)
      (blankFields "/dev/sdb /dev/sda".toList) :=
  have hrun : getHardDiskFdrive twoDisks (devicesText ["/dev/sda".toList, "/dev/sdb".toList])
      "/dev/sdb,100".toList =
      some ⟨"/dev/sdb".toList, "/dev/sdb /dev/sda".toList⟩ := by decide +kernel
  (getHardDiskFdrive_iff twoDisks ["/dev/sda".toList, "/dev/sdb".toList] (by decide)
    devicePath_twoDisks
    "/dev/sdb,100".toList).mpr (.inr (by decide +kernel)) _ hrun

/-- One disk by its size and by its path is given out twice. -/
theorem getHardDiskFdrive_twice :
    ¬ ∀ (inv : Inventory) (names : List Str), names.Nodup → (∀ d ∈ names, DevicePath d) →
    ∀ fdrive drives, getHardDiskFdrive inv (devicesText names) fdrive = some drives →
      TakenInOrder inv names (inv.selectors fdrive) (blankFields drives.disks) := by
  intro hall
  have hrun : getHardDiskFdrive twoDisks (devicesText ["/dev/sda".toList, "/dev/sdb".toList])
      "100,/dev/sda".toList =
      some ⟨"/dev/sda".toList, "/dev/sda /dev/sda".toList⟩ := by decide +kernel
  have htwice := (hall twoDisks _ (by decide) devicePath_twoDisks _ _ hrun).nodup
  exact absurd htwice (by decide)

end Pxeos.Target
