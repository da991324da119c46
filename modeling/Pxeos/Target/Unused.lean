import Pxeos.Target.InUse

/-!
# What an accepted target is

The three tables are read on their own terms here: a mount has a device number and a source, a swap
area a path, a descriptor a device and an access mode.  A target is unused if none of them leads to
a device of its tree.
-/

namespace Pxeos.Target

open Pxeos.Lib

/-! ### The tree -/

/-- The devices of a tree. -/
inductive Node.Holds : Node → Str → Prop
  | root {name type number : Str} {children : List Node} :
    Holds (.device name type number children) number
  | child {name type number id : Str} {children : List Node} {n : Node} (hn : n ∈ children)
      (h : Holds n id) :
      Holds (.device name type number children) id

mutual
theorem Node.mem_numbers (id : Str) : ∀ n : Node, id ∈ n.numbers ↔ n.Holds id
  | .malformed => ⟨fun h => by simp [Node.numbers] at h, fun h => by cases h⟩
  | .device name type number children => by
    rw [Node.numbers, List.mem_cons, Node.mem_allNumbers id children]
    constructor
    · rintro (rfl | ⟨n, hn, h⟩)
      · exact .root
      · exact .child hn h
    · intro h
      cases h with
      | root => exact .inl rfl
      | child hn h => exact .inr ⟨_, hn, h⟩
theorem Node.mem_allNumbers (id : Str) : ∀ ns : List Node,
    id ∈ Node.allNumbers ns ↔ ∃ n ∈ ns, n.Holds id
  | [] => by simp [Node.allNumbers]
  | n :: ns => by
    rw [Node.allNumbers, List.mem_append, Node.mem_numbers id n, Node.mem_allNumbers id ns]
    simp
end

/-- The tree of a target. -/
def TreeOf (s : System) (disk : Str) (root : Node) : Prop :=
  ∃ canonical, s.readlink disk = some canonical ∧ s.lsblk (captured canonical) = some (some [root])

/-- A device of the tree of the target. -/
def InTree (s : System) (disk id : Str) : Prop := ∃ root, TreeOf s disk root ∧ root.Holds id

/-- The block device that a path leads to. -/
def blockDevice (s : System) (path : Str) : Option Str :=
  (s.stat path).bind fun t => rootpxeTargetStatDeviceId (captured t)

/-! ### Mounts -/

/-- A record of `mountinfo`, with the device number of the filesystem and the source of the
mount. -/
def MountLine (fields : List Str) (number source : Str) : Prop :=
  ∃ id parent root point options : Str, ∃ optional : List Str, ∃ type : Str,
    ∃ superOptions : List Str,
    isNumber id = true ∧ isNumber parent = true ∧ isDeviceNumber number = true ∧ ['-'] ∉ optional ∧
      superOptions ≠ [] ∧
      fields = id :: parent :: number :: root :: point :: options ::
        (optional ++ ['-'] :: type :: source :: superOptions)

/-- The records of `mountinfo`. -/
def mountRows (s : System) : List (List Str) := (records (s.mountinfo.getD [])).map blankFields

/-- How the kernel writes a blank or a backslash of a path: a backslash and three octal digits. -/
def unmangle : Str → Str
  | '\\' :: a :: b :: c :: t =>
    match octalDigit a, octalDigit b, octalDigit c with
    | some x, some y, some z => Char.ofNat (64 * x + 8 * y + z) :: unmangle t
    | _, _, _ => '\\' :: unmangle (a :: b :: c :: t)
  | c :: t => c :: unmangle t
  | [] => []

/-! ### Swap areas -/

/-- A row of the table of the swap areas. -/
def SwapLine (fields : List Str) (path type : Str) : Prop :=
  ∃ size used priority : Str, (type = "partition".toList ∨ type = "file".toList) ∧
    isNumber size = true ∧
    isNumber used = true ∧ isInteger priority = true ∧ fields = [path, type, size, used, priority]

/-- The rows of the table of the swap areas, below its header. -/
def swapRows (s : System) : List (List Str) :=
  match s.swaps with
  | .table text => ((records text).map blankFields).drop 1
  | _ => []

/-- A path that the loop over the swap areas reads as it stands. -/
def Plain (path : Str) : Prop := ∀ c ∈ path, c ≠ '|' ∧ c ≠ '\\' ∧ c ≠ '\x00'

/-! ### Descriptors -/

def octalValue (s : Str) : ℕ := s.foldl (fun n c => 8 * n + (octalDigit c).getD 0) 0

/-- The flags of the descriptor are those of reading only. -/
def Opened.ReadOnly (o : Opened) : Prop :=
  ∃ text flags, o.fdinfo = some text ∧ fdFlags text = some flags ∧ octalValue flags % 4 = 0

/-- The block device of a descriptor. -/
def Opened.device (o : Opened) : Option Str :=
  o.info.bind fun t => rootpxeTargetStatDeviceId (captured t)

/-- A descriptor of a process that is there, open on the same file whenever it is looked at. -/
def OpenOn (s : System) (o : Opened) : Prop :=
  ∃ dir ∈ s.fdDirs, dir.isDir = true ∧ dir.stillDir = true ∧ ∃ fd ∈ dir.fds, ∀ l, fd l = some o

/-! ### The state of a target -/

/-- Nothing that was read is missing or malformed. -/
structure Readable (s : System) (disk : Str) : Prop where
  tree : ∃ root, TreeOf s disk root ∧ root.valid = true ∧ ∃ canonical,
    s.readlink disk = some canonical ∧
    ∃ id, blockDevice s (captured canonical) = some id ∧ root.numbers.head? = some id
  mountinfo : ∃ text, s.mountinfo = some text
  mounts : mountRows s ≠ [] ∧ ∀ r ∈ mountRows s, ∃ number source, MountLine r number source
  swaps : (s.swaps = .missing ∧ ∃ config, s.zcat = some config ∧ swapDisabled config = true) ∨
    ∃ text, s.swaps = .table text ∧ ((records text).map blankFields).head? = some swapHeader
  areas : ∀ r ∈ swapRows s, ∃ path type, SwapLine r path type ∧
    (Plain path → (s.stat path).isSome = true ∧
    (type = "partition".toList → (blockDevice s path).isSome = true))
  dirs : ∀ dir ∈ s.fdDirs, dir.isDir = true → dir.stillDir = true → dir.readable = true
  descriptors : ∀ o, OpenOn s o → ∃ info, o.info = some info ∧
    (blockSpecial.isPrefixOf (captured info) = true → o.device.isSome = true)

/-- No mount, no swap partition and no descriptor that can write is on a device of the tree. -/
structure Unused (s : System) (disk : Str) : Prop where
  numbers : ∀ r ∈ mountRows s, ∀ number source, MountLine r number source → ¬ InTree s disk number
  sources : ∀ r ∈ mountRows s, ∀ number source, MountLine r number source →
    ∀ id, blockDevice s (unmangle source) = some id → ¬ InTree s disk id
  swaps : ∀ r ∈ swapRows s, ∀ path, SwapLine r path "partition".toList →
    ∀ id, blockDevice s (unmangle path) = some id → ¬ InTree s disk id
  descriptors : ∀ o, OpenOn s o → ∀ id, o.device = some id → InTree s disk id → o.ReadOnly

/-- No mount has a device of the tree as its source. -/
def SourcesElsewhere (s : System) (disk : Str) : Prop :=
  ∀ r ∈ mountRows s, ∀ number source, MountLine r number source →
    ∀ id, blockDevice s (unmangle source) = some id → ¬ InTree s disk id

/-- No swap partition whose path is not read as it stands is on a device of the tree. -/
def OddSwapsElsewhere (s : System) (disk : Str) : Prop :=
  ∀ r ∈ swapRows s, ∀ path, SwapLine r path "partition".toList → ¬ Plain path →
    ∀ id, blockDevice s (unmangle path) = some id → ¬ InTree s disk id

/-! ### The tree that was accepted -/

lemma targetIds_ok {s : System} {disk : Str} {ids : List Str} (h : targetIds s disk = .ok ids) :
    ∃ root canonical id, s.readlink disk = some canonical ∧
      s.lsblk (captured canonical) = some (some [root]) ∧
      root.valid = true ∧ blockDevice s (captured canonical) = some id ∧
      root.numbers.head? = some id ∧
      ids = root.numbers := by
  unfold targetIds at h
  simp only [bind_eq_ok, errorIf_eq_ok, orFail_eq_ok] at h
  obtain ⟨-, -, canonical, hcan, -, -, info, hinfo, id, hid, graph, hgraph, hids⟩ := h
  unfold graphIds at hids
  split at hids
  · rename_i name type number children
    split at hids
    · rename_i hv
      rw [Bool.and_eq_true, beq_iff_eq] at hv
      obtain rfl := Option.some.inj hids
      refine ⟨_, canonical, id, hcan, hgraph, hv.1, ?_, ?_, rfl⟩
      · simp [blockDevice, hinfo, hid]
      · simp [Node.numbers, hv.2]
    · cases hids
  · cases hids

/-- The device numbers that are looked for are those of the tree. -/
lemma mem_ids_iff {s : System} {disk : Str} {ids : List Str} (h : targetIds s disk = .ok ids)
    (id : Str) :
    id ∈ ids ↔ InTree s disk id := by
  obtain ⟨root, canonical, -, hcan, hgraph, -, -, -, rfl⟩ := targetIds_ok h
  rw [Node.mem_numbers]
  constructor
  · exact fun hi => ⟨root, ⟨canonical, hcan, hgraph⟩, hi⟩
  · rintro ⟨root', ⟨canonical', hcan', hgraph'⟩, hi⟩
    obtain rfl := Option.some.inj (hcan.symm.trans hcan')
    rw [hgraph, Option.some.injEq, Option.some.injEq, List.cons.injEq] at hgraph'
    exact hgraph'.1 ▸ hi

/-! ### Mounts that were accepted -/

/-- A record that passes is a mount. -/
lemma mountBad_eq_false {fields : List Str} (h : mountBad fields = false) :
    ∃ number source, MountLine fields number source := by
  unfold mountBad at h
  simp only [Bool.or_eq_false_iff, decide_eq_false_iff_not, Bool.not_eq_false', Nat.not_lt,
    beq_eq_false_iff_ne] at h
  obtain ⟨⟨⟨⟨⟨hlen, hid⟩, hparent⟩, hnumber⟩, hsep⟩, hend⟩ := h
  obtain ⟨id, parent, number, root, point, options, rest, rfl⟩ :
      ∃ a b c d e f rest, fields = a :: b :: c :: d :: e :: f :: rest := by
    match fields, hlen with
    | a :: b :: c :: d :: e :: f :: rest, _ => exact ⟨a, b, c, d, e, f, rest, rfl⟩
  unfold separator at hsep hend
  rw [List.drop_succ_cons, List.drop_succ_cons, List.drop_succ_cons, List.drop_succ_cons,
    List.drop_succ_cons,
    List.drop_succ_cons, List.drop_zero] at hsep hend
  cases hfind : rest.findIdx? (· == ['-']) with
  | none => rw [hfind] at hsep; exact absurd rfl hsep
  | some i =>
    rw [hfind] at hend
    obtain ⟨hi, hdash, hbefore⟩ := List.findIdx?_eq_some_iff_getElem.mp hfind
    have hsplit : rest = rest.take i ++ ['-'] :: rest.drop (i + 1) := by
      rw [← (beq_iff_eq.mp hdash), List.getElem_cons_drop, List.take_append_drop]
    have hdrop : 3 ≤ (rest.drop (i + 1)).length := by
      rw [List.length_drop]
      simp only [List.length_cons] at hend
      omega
    obtain ⟨type, source, opts, hopts, hrest⟩ :
        ∃ type source opts, opts ≠ [] ∧ rest.drop (i + 1) = type :: source :: opts := by
      match rest.drop (i + 1), hdrop with
      | a :: b :: c :: t, _ => exact ⟨a, b, c :: t, by simp, rfl⟩
    refine ⟨number, source, id, parent, root, point, options, rest.take i, type, opts, hid, hparent,
      hnumber, ?_, hopts, ?_⟩
    · intro hmem
      obtain ⟨j, hj, hj'⟩ := List.getElem_of_mem hmem
      have hji : j < i := by rw [List.length_take] at hj; omega
      have := hbefore j hji
      rw [List.getElem_take] at hj'
      rw [hj'] at this
      exact this rfl
    · rw [← hrest, ← hsplit]

lemma MountLine.number_eq {fields : List Str} {number source : Str}
    (h : MountLine fields number source) :
    fields.getD 2 [] = number := by
  obtain ⟨id, parent, root, point, options, optional, type, opts, -, -, -, -, -, rfl⟩ := h
  rfl

/-- What the first `awk` program accepts. -/
lemma mountState_eq {ids : List Str} {text : Str} (h : mountState ids text = some false) :
    (records text).map blankFields ≠ [] ∧ ∀ r ∈ (records text).map blankFields,
      (∃ number source, MountLine r number source) ∧ ∀ number source, MountLine r number source →
        number ∉ ids := by
  unfold mountState at h
  simp only at h
  split at h
  · cases h
  · rename_i hb
    rw [Bool.or_eq_true, not_or] at hb
    refine ⟨fun h0 => hb.2 (by rw [h0]; rfl), fun r hr => ⟨?_, fun number source hm => ?_⟩⟩
    · apply mountBad_eq_false
      rw [← Bool.not_eq_true]
      exact fun hbad => hb.1 (List.any_eq_true.mpr ⟨r, hr, hbad⟩)
    · have hany := Option.some.inj h
      have := List.any_eq_false.mp hany r hr
      rw [hm.number_eq, List.contains_iff_mem] at this
      exact this

/-! ### Swap areas that were accepted -/

lemma swapRow_eq_some {fields : List Str} {line : Str} (h : swapRow fields = some line) :
    ∃ path type, SwapLine fields path type ∧ line = path ++ '|' :: type := by
  unfold swapRow at h
  split at h
  · rename_i path type size used priority
    split at h
    · rename_i hc
      simp only [Bool.and_eq_true, Bool.or_eq_true, beq_iff_eq] at hc
      exact ⟨path, type, ⟨size, used, priority, hc.1.1.1, hc.1.1.2, hc.1.2, hc.2, rfl⟩,
        (Option.some.inj h).symm⟩
    · cases h
  · cases h

lemma SwapLine.unique {fields : List Str} {path path' type type' : Str}
    (h : SwapLine fields path type) (h' : SwapLine fields path' type') :
    path = path' ∧ type = type' := by
  obtain ⟨size, used, priority, -, -, -, -, rfl⟩ := h
  obtain ⟨size', used', priority', -, -, -, -, heq⟩ := h'
  simp only [List.cons.injEq] at heq
  exact ⟨heq.1, heq.2.1⟩

/-- The rows of a table that was accepted, with the lines that are made of them. -/
lemma swapState_eq {text : Str} {lines : List Str} (h : swapState text = some lines) :
    ((records text).map blankFields).head? = some swapHeader ∧
      List.Forall₂ (fun r l => swapRow r = some l)
        (((records text).map blankFields).drop 1) lines := by
  unfold swapState at h
  split at h
  · rename_i header rows heq
    split at h
    · rename_i hh
      rw [heq, hh]
      exact ⟨rfl, mapM_some h⟩
    · cases h
  · cases h

lemma unmangle_plain {path : Str} (h : Plain path) : unmangle path = path := by
  induction path with
  | nil => rfl
  | cons c t ih =>
    have hc : c ≠ '\\' := (h c List.mem_cons_self).2.1
    have ht : unmangle t = t := ih fun x hx => h x (List.mem_cons_of_mem _ hx)
    rw [unmangle]
    · rw [ht]
    · rintro a b d t' rfl
      exact absurd rfl hc

/-- Neither a newline nor a NUL only: the lines that are made of the rows of a table. -/
lemma line_sound {text : Str} {r : List Str} {l : Str}
    (hr : r ∈ ((records text).map blankFields).drop 1) (hrow : swapRow r = some l) :
    '\n' ∉ l ∧ l.filter (· ≠ '\x00') ≠ [] := by
  obtain ⟨path, type, hl, rfl⟩ := swapRow_eq_some hrow
  obtain ⟨line, -, rfl⟩ := List.mem_map.mp (List.mem_of_mem_drop hr)
  obtain ⟨size, used, priority, htype, -, -, -, hfields⟩ := hl
  refine ⟨?_, ?_⟩
  · have hpath : '\n' ∉ path := notMem_of_mem_blankFields (hfields ▸ List.mem_cons_self)
    have htype' : '\n' ∉ type := by rcases htype with rfl | rfl <;> decide
    simp [hpath, htype']
  · simp

/-- The line of a row is one of those that the loop reads, and it is read as it stands if the path
is plain. -/
lemma line_read {text : Str} {lines : List Str} (h : swapState text = some lines) {r : List Str}
    (hr : r ∈ ((records text).map blankFields).drop 1) {path type : Str} (hl : SwapLine r path type)
    (hp : Plain path) :
    ∃ line ∈ records (captured (unlines lines) ++ ['\n']), readTwo '|' line = (path, type) := by
  obtain ⟨-, hrows⟩ := swapState_eq h
  have hsound : ∀ l ∈ lines, '\n' ∉ l ∧ l.filter (· ≠ '\x00') ≠ [] := by
    intro l hlmem
    obtain ⟨r', hr', hrow⟩ := exists_left_of_forall₂ hrows hlmem
    exact line_sound hr' hrow
  obtain ⟨l, hlmem, hrow⟩ := exists_right_of_forall₂ hrows hr
  have hne : lines ≠ [] := List.ne_nil_of_mem hlmem
  rw [records_captured_unlines hne (fun l hl => (hsound l hl).1) fun l hl => (hsound l hl).2]
  obtain ⟨path', type', hl', rfl⟩ := swapRow_eq_some hrow
  obtain ⟨rfl, rfl⟩ := hl.unique hl'
  have htype : '\x00' ∉ type ∧ '|' ∉ type := by
    obtain ⟨-, -, -, rfl | rfl, -⟩ := hl <;> decide
  refine ⟨path ++ '|' :: type, List.mem_map.mpr ⟨_, hlmem, ?_⟩, ?_⟩
  · rw [List.filter_eq_self]
    intro c hc
    rw [decide_eq_true_eq]
    rintro rfl
    rcases List.mem_append.mp hc with hc | hc
    · exact (hp _ hc).2.2 rfl
    · rcases List.mem_cons.mp hc with hc | hc
      · exact absurd hc (by decide)
      · exact htype.1 hc
  · exact readTwo_append (fun hc => (hp _ hc).1 rfl) htype.2

/-- What the loop found of a swap area whose path is plain. -/
lemma swapUnused_ok {s : System} {ids : List Str} {line path type : Str}
    (h : swapUnused s ids line = .ok ()) (hread : readTwo '|' line = (path, type))
    (hne : path ≠ []) :
    (s.stat path).isSome = true ∧ (type = "partition".toList → ∃ id, blockDevice s path = some id ∧
      id ∉ ids) := by
  unfold swapUnused at h
  rw [hread] at h
  simp only [if_neg hne, bind_eq_ok, orFail_eq_ok] at h
  obtain ⟨info, hinfo, h⟩ := h
  refine ⟨by rw [hinfo]; rfl, fun htype => ?_⟩
  rw [if_pos htype] at h
  simp only [bind_eq_ok, orFail_eq_ok, errorIf_eq_ok] at h
  obtain ⟨id, hid, hout⟩ := h
  refine ⟨id, by simp [blockDevice, hinfo, hid], fun hmem => ?_⟩
  rw [List.contains_iff_mem.mpr hmem] at hout
  cases hout

/-! ### Descriptors that were accepted -/

/-- The last octal digit has the access mode. -/
lemma accessBits_eq {flags : Str} (h : isOctal flags = true) :
    accessBits flags = octalValue flags % 4 := by
  unfold isOctal at h
  rw [Bool.and_eq_true, bne_iff_ne] at h
  obtain ⟨init, c, rfl⟩ := (List.eq_nil_or_concat' _).resolve_left h.1
  unfold accessBits octalValue
  rw [List.foldl_append, List.getLast?_append]
  simp only [List.foldl_cons, List.foldl_nil, List.getLast?_singleton, Option.some_or,
    Option.getD_some]
  omega

lemma fdDevice_ok {ids : List Str} {info : Str} {b : Bool} (h : fdDevice ids info = .ok b) :
    (blockSpecial.isPrefixOf info = true → ∃ id, rootpxeTargetStatDeviceId info = some id) ∧
      ∀ id, rootpxeTargetStatDeviceId info = some id → (b = true ↔ id ∈ ids) := by
  unfold fdDevice at h
  split at h
  · simp only [bind_eq_ok, orFail_eq_ok, pure_eq_ok] at h
    obtain ⟨id, hid, rfl⟩ := h
    refine ⟨fun _ => ⟨id, hid⟩, fun id' hid' => ?_⟩
    rw [hid] at hid'
    obtain rfl := Option.some.inj hid'
    exact List.contains_iff_mem
  · rename_i hp
    refine ⟨fun hp' => absurd hp' hp, fun id hid => ?_⟩
    unfold rootpxeTargetStatDeviceId at hid
    rw [if_neg hp] at hid
    cases hid

lemma fdRecheck_ok {ids : List Str} {fd : Descriptor} {o : Opened} (ho : ∀ l, fd l = some o)
    {info id flags : Str} (hinfo : o.info = some info)
    (hid : rootpxeTargetStatDeviceId (captured info) = some id) (hmem : id ∈ ids)
    (h : fdRecheck ids fd flags = .ok ()) : accessBits flags = 0 := by
  unfold fdRecheck at h
  simp only [ho, Option.isNone_some, Bool.false_eq_true, if_false, Option.bind_some, hinfo,
    bind_eq_ok] at h
  obtain ⟨-, -, b, hb, h⟩ := h
  rw [((fdDevice_ok hb).2 id hid).mpr hmem] at h
  simp only [if_true] at h
  split at h
  · assumption
  · cases h
  · cases h
  · cases h

/-- What the loop found of a descriptor that is open all the time. -/
lemma fdUnused_ok {ids : List Str} {fd : Descriptor} {o : Opened} (ho : ∀ l, fd l = some o)
    (h : fdUnused ids fd = .ok ()) :
    (∃ info, o.info = some info ∧
      (blockSpecial.isPrefixOf (captured info) = true → o.device.isSome = true)) ∧
      ∀ id, o.device = some id → id ∈ ids → o.ReadOnly := by
  unfold fdUnused at h
  simp only [ho, Option.isNone_some, Bool.false_eq_true, if_false, Option.bind_some] at h
  cases hinfo : o.info with
  | none => simp [hinfo] at h
  | some info =>
    rw [hinfo] at h
    simp only [bind_eq_ok] at h
    obtain ⟨b, hb, h⟩ := h
    obtain ⟨hvalid, hin⟩ := fdDevice_ok hb
    have hdev : o.device = rootpxeTargetStatDeviceId (captured info) := by
      simp [Opened.device, hinfo]
    refine ⟨⟨info, rfl, fun hp => ?_⟩, fun id hid hmem => ?_⟩
    · obtain ⟨id, hid⟩ := hvalid hp
      rw [hdev, hid]
      rfl
    · rw [hdev] at hid
      rw [(hin id hid).mpr hmem] at h
      simp only [if_true] at h
      cases htext : o.fdinfo with
      | none => simp [htext] at h
      | some text =>
        cases hflags : fdFlags text with
        | none => simp [htext, hflags] at h
        | some flags =>
          simp only [htext, Option.bind_some, hflags] at h
          have hzero := fdRecheck_ok ho hinfo hid hmem h
          have hoct : isOctal flags = true := by
            unfold fdFlags at hflags
            split at hflags
            · split at hflags
              · rename_i hv
                exact (Option.some.inj hflags) ▸ hv
              · cases hflags
            · cases hflags
          exact ⟨text, flags, htext, hflags, (accessBits_eq hoct).symm.trans hzero⟩

/-- What the loop over the processes found. -/
lemma openOn_ok {s : System} {ids : List Str} (h : ∀ dir ∈ s.fdDirs, fdDirUnused ids dir = .ok ())
    {o : Opened} (ho : OpenOn s o) :
    ∃ fd : Descriptor, (∀ l, fd l = some o) ∧ fdUnused ids fd = .ok () := by
  obtain ⟨dir, hdir, hisDir, hstill, fd, hfd, hsame⟩ := ho
  have hd := h dir hdir
  unfold fdDirUnused at hd
  rw [hisDir, hstill] at hd
  simp only [Bool.not_true, Bool.false_eq_true, if_false] at hd
  split at hd
  · simp at hd
  · exact ⟨fd, hsame, (forM_eq_ok dir.fds).mp hd fd hfd⟩

/-! ### Targets that were accepted -/

/-- What every part of the check found. -/
lemma preflight_ok {s : System} {disk : Str} (h : rootpxeTargetDiskUsePreflight s disk = .ok ()) :
    ∃ ids text state, targetIds s disk = .ok ids ∧ s.mountinfo = some text ∧
      mountState ids text = some false ∧
      swapText s = .ok state ∧
      (∀ line ∈ records (state ++ ['\n']), swapUnused s ids line = .ok ()) ∧
      ∀ dir ∈ s.fdDirs, fdDirUnused ids dir = .ok () := by
  unfold rootpxeTargetDiskUsePreflight at h
  simp only [bind_eq_ok, errorIf_eq_ok, orFail_eq_ok, forM_eq_ok] at h
  obtain ⟨ids, hids, text, htext, mounted, hmounted, -, rfl, state, hstate, -, hswaps, hdirs⟩ := h
  exact ⟨ids, text, state, hids, htext, hmounted, hstate, hswaps, hdirs⟩

/-- Where the text of the swap areas is from. -/
lemma swapText_ok {s : System} {state : Str} (h : swapText s = .ok state) :
    (s.swaps = .missing ∧ ∃ config, s.zcat = some config ∧ swapDisabled config = true) ∨
      ∃ text lines, s.swaps = .table text ∧ swapState text = some lines ∧
        state = captured (unlines lines) := by
  unfold swapText at h
  split at h
  · rename_i hs
    simp only [bind_eq_ok, errorIf_eq_ok, orFail_eq_ok] at h
    obtain ⟨-, -, config, hconfig, -, hd, -⟩ := h
    exact .inl ⟨hs, config, hconfig, by simpa using hd⟩
  · cases h
  · rename_i text hs
    simp only [bind_eq_ok, orFail_eq_ok, pure_eq_ok] at h
    obtain ⟨lines, hlines, rfl⟩ := h
    exact .inr ⟨text, lines, hs, hlines, rfl⟩

/-- What the loop over the swap areas found of every row. -/
lemma swapRows_ok {s : System} {ids : List Str} {state : Str} (hstate : swapText s = .ok state)
    (h : ∀ line ∈ records (state ++ ['\n']), swapUnused s ids line = .ok ()) {r : List Str}
    (hr : r ∈ swapRows s) :
    ∃ path type, SwapLine r path type ∧ (Plain path → (s.stat path).isSome = true ∧
      (type = "partition".toList → ∃ id, blockDevice s path = some id ∧ id ∉ ids)) := by
  unfold swapRows at hr
  rcases swapText_ok hstate with ⟨hs, -⟩ | ⟨text, lines, hs, hlines, rfl⟩
  · rw [hs] at hr
    cases hr
  · rw [hs] at hr
    obtain ⟨l, -, hrow⟩ := exists_right_of_forall₂ (swapState_eq hlines).2 hr
    obtain ⟨path, type, hl, -⟩ := swapRow_eq_some hrow
    refine ⟨path, type, hl, fun hp => ?_⟩
    obtain ⟨line, hline, hread⟩ := line_read hlines hr hl hp
    have hne : path ≠ [] := by
      obtain ⟨line', -, rfl⟩ := List.mem_map.mp (List.mem_of_mem_drop hr)
      obtain ⟨size, used, priority, -, -, -, -, hfields⟩ := hl
      have : path ∈ blankFields line' := hfields ▸ List.mem_cons_self
      simpa using (List.mem_filter.mp this).2
    exact swapUnused_ok (h line hline) hread hne

/-- **An accepted state could be read in full.** -/
theorem readable_of_ok {s : System} {disk : Str}
    (h : rootpxeTargetDiskUsePreflight s disk = .ok ()) : Readable s disk := by
  obtain ⟨ids, text, state, hids, htext, hmounts, hstate, hswaps, hdirs⟩ := preflight_ok h
  obtain ⟨root, canonical, id, hcan, hgraph, hvalid, hdev, hhead, -⟩ := targetIds_ok hids
  have hrows : mountRows s = (records text).map blankFields := by simp [mountRows, htext]
  refine
    { tree := ⟨root, ⟨canonical, hcan, hgraph⟩, hvalid, canonical, hcan, id, hdev, hhead⟩
      mountinfo := ⟨text, htext⟩
      mounts :=
        ⟨hrows ▸ (mountState_eq hmounts).1,
          fun r hr => ((mountState_eq hmounts).2 r (hrows ▸ hr)).1⟩
      swaps := ?_
      areas := ?_
      dirs := ?_
      descriptors := ?_ }
  · rcases swapText_ok hstate with hmissing | ⟨text, lines, hs, hlines, -⟩
    · exact .inl hmissing
    · exact .inr ⟨text, hs, (swapState_eq hlines).1⟩
  · intro r hr
    obtain ⟨path, type, hl, hp⟩ := swapRows_ok hstate hswaps hr
    refine ⟨path, type, hl, fun hplain => ⟨(hp hplain).1, fun ht => ?_⟩⟩
    obtain ⟨id, hid, -⟩ := (hp hplain).2 ht
    rw [hid]
    rfl
  · intro dir hdir hisDir hstill
    have := hdirs dir hdir
    unfold fdDirUnused at this
    rw [hisDir, hstill] at this
    by_contra hread
    rw [Bool.not_eq_true] at hread
    rw [hread] at this
    cases this
  · intro o ho
    obtain ⟨fd, hsame, hfd⟩ := openOn_ok hdirs ho
    exact (fdUnused_ok hsame hfd).1

/-- **The use of an accepted target**: everything that was read is well formed, and nothing uses the
tree if and only if no mount has a device of the tree as its source and no swap partition with a
path that is not read as it stands is on it. -/
theorem preflight_unused {s : System} {disk : Str}
    (h : rootpxeTargetDiskUsePreflight s disk = .ok ()) :
    Readable s disk ∧ (Unused s disk ↔ SourcesElsewhere s disk ∧ OddSwapsElsewhere s disk) := by
  refine ⟨readable_of_ok h, fun hu => ⟨hu.sources, fun r hr path hl _ => hu.swaps r hr path hl⟩, ?_⟩
  rintro ⟨hsources, hodd⟩
  obtain ⟨ids, text, state, hids, htext, hmounts, hstate, hswaps, hdirs⟩ := preflight_ok h
  have hrows : mountRows s = (records text).map blankFields := by simp [mountRows, htext]
  refine { numbers := ?_, sources := hsources, swaps := ?_, descriptors := ?_ }
  · intro r hr number source hm
    rw [← mem_ids_iff hids]
    exact ((mountState_eq hmounts).2 r (hrows ▸ hr)).2 number source hm
  · intro r hr path hl id hid
    by_cases hp : Plain path
    · obtain ⟨path', type, hl', hfound⟩ := swapRows_ok hstate hswaps hr
      obtain ⟨rfl, rfl⟩ := hl.unique hl'
      obtain ⟨id', hid', hout⟩ := (hfound hp).2 rfl
      rw [unmangle_plain hp, hid'] at hid
      obtain rfl := Option.some.inj hid
      rw [← mem_ids_iff hids]
      exact hout
    · exact hodd r hr path hl hp id hid
  · intro o ho id hid hin
    obtain ⟨fd, hsame, hfd⟩ := openOn_ok hdirs ho
    exact (fdUnused_ok hsame hfd).2 id hid ((mem_ids_iff hids id).mpr hin)

/-- Every disk of a deployment is checked, and there is one. -/
theorem requireUnused_ok {targets : List (Str × System)}
    (h : rootpxeRequireUnusedTargetDisks targets = .ok ()) :
    targets ≠ [] ∧ ∀ t ∈ targets, Readable t.2 t.1 ∧
      (Unused t.2 t.1 ↔ SourcesElsewhere t.2 t.1 ∧ OddSwapsElsewhere t.2 t.1) := by
  unfold rootpxeRequireUnusedTargetDisks at h
  split at h
  · cases h
  · rename_i hne
    refine ⟨fun h0 => hne (by rw [h0]; rfl), fun t ht => ?_⟩
    have hcheck := (forM_eq_ok targets).mp h t ht
    split at hcheck
    · rename_i hok
      exact preflight_unused hok
    · cases hcheck

/-! ### A disk with a filesystem of several devices -/

/-- `/dev/sda` with two partitions; the second one is of the mounted filesystem. -/
def sampleDisk : Node :=
  .device "/dev/sda".toList "disk".toList "8:0".toList
    [.device "/dev/sda1".toList "part".toList "8:1".toList [],
      .device "/dev/sda2".toList "part".toList "8:2".toList []]

def sampleStat (path : Str) : Option Str :=
  if path = "/dev/sda".toList then some "block special file|8:0".toList
  else if path = "/dev/sda2".toList then some "block special file|8:2".toList
  else if path = "/dev/zram0".toList then some "block special file|fb:0".toList
  else none

/-- A system with the disk, where one swap area is in memory and one descriptor reads the disk. -/
def sampleSystem (mountinfo : List String) : System where
  command := fun _ => true
  readlink := some
  stat := sampleStat
  lsblk := fun path => if path = "/dev/sda".toList then some (some [sampleDisk]) else none
  mountinfo := some (unlines (mountinfo.map String.toList))
  swaps :=
    .table
      (unlines ["Filename Type Size Used Priority".toList,
        "/dev/zram0 partition 4194300 0 -2".toList])
  configReadable := true
  zcat := none
  fdDirs := [⟨true, true, true, [fun _ => some ⟨some "block special file|8:0".toList,
    some (unlines ["pos: 0".toList, "flags: 0100000".toList])⟩]⟩]

/-- A filesystem in memory. -/
def sampleRoot : String := "22 1 0:21 / / rw,relatime shared:1 - tmpfs tmpfs rw"

/-- A filesystem on the second partition, with a device number of its own. -/
def sampleBtrfs : String := "40 22 0:45 / /mnt rw,relatime shared:2 - btrfs /dev/sda2 rw,subvol=/"

theorem preflight_unused_memory : Readable (sampleSystem [sampleRoot]) "/dev/sda".toList ∧
    (Unused (sampleSystem [sampleRoot]) "/dev/sda".toList ↔
      SourcesElsewhere (sampleSystem [sampleRoot]) "/dev/sda".toList ∧
        OddSwapsElsewhere (sampleSystem [sampleRoot]) "/dev/sda".toList) :=
  preflight_unused (by decide +kernel)

/-- The target is accepted although the second partition is mounted. -/
theorem preflight_mounted_source :
    rootpxeTargetDiskUsePreflight (sampleSystem [sampleRoot, sampleBtrfs]) "/dev/sda".toList =
      .ok () ∧
    ¬ Unused (sampleSystem [sampleRoot, sampleBtrfs]) "/dev/sda".toList := by
  refine ⟨by decide +kernel, fun hu => ?_⟩
  have hrow : blankFields sampleBtrfs.toList ∈ mountRows
      (sampleSystem [sampleRoot, sampleBtrfs]) := by decide +kernel
  have hline : MountLine (blankFields sampleBtrfs.toList) "0:45".toList "/dev/sda2".toList :=
    ⟨"40".toList, "22".toList, "/".toList, "/mnt".toList, "rw,relatime".toList, ["shared:2".toList],
      "btrfs".toList,
      ["rw,subvol=/".toList], by decide +kernel⟩
  refine hu.sources _ hrow _ _ hline "8:2".toList (by decide +kernel) ⟨sampleDisk, ?_, ?_⟩
  · refine ⟨"/dev/sda".toList, rfl, ?_⟩
    show (if captured "/dev/sda".toList = "/dev/sda".toList then
      some (some [sampleDisk]) else none) = _
    rw [if_pos (by decide +kernel)]
  · exact .child (n := .device "/dev/sda2".toList "part".toList "8:2".toList []) (by simp) .root

end Pxeos.Target
