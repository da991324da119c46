import Mathlib.Data.List.ReduceOption
import Pxeos.Uefi.Entries

/-!
# The boot variables

The boot variables of the firmware, what `efibootmgr` does to them, the text in which `efibootmgr
-v` prints them, and what is read of it.  A star and one blank stand before the label of an active
entry, two blanks before that of an inactive one.
-/

namespace Pxeos.Uefi

open Pxeos.Lib

/-- A boot variable. -/
structure BootEntry where
  id : Str
  active : Bool
  label : Str
  path : Str
  id_ok : isId id = true
  label_ok : '\n' ∉ label ∧ '\x00' ∉ label
  path_ok : '\n' ∉ path ∧ '\x00' ∉ path ∧ '\t' ∉ path
  deriving DecidableEq

/-- Neither the line of an order nor that of an entry. -/
structure IsOther (l : Str) : Prop where
  ne_nil : l ≠ []
  line : '\n' ∉ l ∧ '\x00' ∉ l
  order : dropStart "BootOrder:".toList l = none
  entry : bootHead l = none

/-- What the firmware keeps, and the other lines that are printed before it. -/
@[ext]
structure Firmware where
  header : List Str
  order : Option (List Str)
  entries : List BootEntry
  header_ok : ∀ l ∈ header, IsOther l
  order_ok : ∀ w ∈ order.getD [], isId w = true
  ids_nodup : (entries.map (·.id)).Nodup

lemma header_nil : ∀ l ∈ ([] : List Str), IsOther l := nofun

/-! ### What is done to them -/

/-- An entry is made active, if it has the number. -/
def BootEntry.activated (id : Str) (e : BootEntry) : BootEntry :=
  if e.id = id then { e with active := true } else e

lemma BootEntry.activated_id (id : Str) (e : BootEntry) : (e.activated id).id = e.id := by
  unfold BootEntry.activated
  split <;> rfl

namespace Firmware

variable (fw : Firmware)

def ids : List Str := fw.entries.map (·.id)

/-- `efibootmgr -C`: one more entry, if its number is free.  The order stays as it is. -/
def create (e : BootEntry) (k : ℕ) : Firmware :=
  if h : e.id ∈ fw.ids then fw
  else { fw with
    entries := fw.entries.take k ++ e :: fw.entries.drop k
    ids_nodup := by
      have hperm : (fw.entries.take k ++ e :: fw.entries.drop k).Perm (e :: fw.entries) := by
        refine List.perm_middle.trans ?_
        rw [List.take_append_drop]
      rw [(hperm.map _).nodup_iff]
      exact List.nodup_cons.mpr ⟨h, fw.ids_nodup⟩ }

/-- `efibootmgr -b id -a`. -/
def activate (id : Str) : Firmware where
  header := fw.header
  order := fw.order
  entries := fw.entries.map (BootEntry.activated id)
  header_ok := fw.header_ok
  order_ok := fw.order_ok
  ids_nodup := by
    have hid : BootEntry.id ∘ BootEntry.activated id = BootEntry.id :=
      funext fun e => BootEntry.activated_id id e
    rw [List.map_map, hid]
    exact fw.ids_nodup

/-- `efibootmgr -o`. -/
def setOrder (order : List Str) : Firmware where
  header := fw.header
  order := some (order.filter isId)
  entries := fw.entries
  header_ok := fw.header_ok
  order_ok := fun _ hw => (List.mem_filter.mp hw).2
  ids_nodup := fw.ids_nodup

/-- `efibootmgr -b id -B`, which takes the number out of the order as well. -/
def delete (id : Str) : Firmware where
  header := fw.header
  order := fw.order.map fun order => order.filter (· ≠ id)
  entries := fw.entries.filter (·.id ≠ id)
  header_ok := fw.header_ok
  order_ok := by
    intro w hw
    refine fw.order_ok w ?_
    cases hord : fw.order with
    | none =>
      rw [hord] at hw
      cases hw
    | some order =>
      rw [hord] at hw
      exact List.mem_of_mem_filter hw
  ids_nodup := fw.ids_nodup.sublist (List.filter_sublist.map _)

end Firmware

/-! ### What is printed -/

/-- The line of an entry. -/
def BootEntry.print (e : BootEntry) : Str :=
  "Boot".toList ++
    (e.id ++ ((if e.active then "* ".toList else "  ".toList) ++ (e.label ++ '\t' :: e.path)))

def printOrder (order : List Str) : Str := "BootOrder: ".toList ++ List.intercalate [','] order

def Firmware.lines (fw : Firmware) : List Str :=
  fw.header ++ (fw.order.toList.map printOrder ++ fw.entries.map BootEntry.print)

/-- `efibootmgr -v`. -/
def Firmware.print (fw : Firmware) : Str := unlines fw.lines

/-! ### What is read of it -/

/-- The label that is read: of an inactive entry with the second blank. -/
def BootEntry.shown (e : BootEntry) : Str := if e.active then e.label else ' ' :: e.label

/-- The reading of the boot variables; nothing if the numbers in a path cannot be evaluated. -/
def Firmware.reading (fw : Firmware) : Option Reading :=
  (fw.entries.mapM fun e => entryOf e.id e.active e.path).map fun entries =>
    ⟨entries.reduceOption, (fw.entries.map fun e => (e.id, e.shown)).reverse, fw.order.getD []⟩

section Lines

lemma isUpperHex_of_mem {w : Str} (hw : isId w = true) {c : Char} (hc : c ∈ w) :
    isUpperHex c = true := by
  unfold isId at hw
  rw [Bool.and_eq_true, List.all_eq_true] at hw
  exact hw.2 c hc

lemma length_of_isId {w : Str} (hw : isId w = true) : w.length = 4 := by
  unfold isId at hw
  rw [Bool.and_eq_true, beq_iff_eq] at hw
  exact hw.1

/-- The characters of a number of a boot variable. -/
lemma upperHex_cases {c : Char} (h : isUpperHex c = true) :
    48 ≤ c.toNat ∧ c.toNat ≤ 57 ∨ 65 ≤ c.toNat ∧ c.toNat ≤ 70 := by
  unfold isUpperHex at h
  simp only [Char.isDigit, Bool.or_eq_true, Bool.and_eq_true, decide_eq_true_eq] at h
  rcases h with h | h
  · exact .inl ⟨UInt32.le_iff_toNat_le.mp h.1, UInt32.le_iff_toNat_le.mp h.2⟩
  · exact .inr ⟨UInt32.le_iff_toNat_le.mp h.1, UInt32.le_iff_toNat_le.mp h.2⟩

lemma ne_of_upperHex {c d : Char} (h : isUpperHex c = true) (hd : isUpperHex d = false) :
    c ≠ d := by
  rintro rfl
  rw [h] at hd
  cases hd

lemma notMem_of_isId {w : Str} (hw : isId w = true) {d : Char} (hd : isUpperHex d = false) :
    d ∉ w := fun h =>
  ne_of_upperHex (isUpperHex_of_mem hw h) hd rfl

lemma ne_nil_of_isId {w : Str} (hw : isId w = true) : w ≠ [] := by
  rintro rfl
  cases hw

lemma toUpper_of_upperHex {c : Char} (h : isUpperHex c = true) : c.toUpper = c := by
  have hc := upperHex_cases h
  unfold Char.toUpper
  rw [dif_neg]
  rintro ⟨h1, -⟩
  have : 97 ≤ c.toNat := UInt32.le_iff_toNat_le.mp h1
  omega

lemma map_toUpper_of_isId {w : Str} (hw : isId w = true) : w.map Char.toUpper = w := by
  conv_rhs => rw [← List.map_id w]
  exact List.map_congr_left fun c hc => toUpper_of_upperHex (isUpperHex_of_mem hw hc)

lemma isXdigit_of_upperHex {c : Char} (h : isUpperHex c = true) : isXdigit c = true := by
  unfold isUpperHex at h
  unfold isXdigit hexDigit
  simp only [Char.isDigit, Bool.or_eq_true, Bool.and_eq_true, decide_eq_true_eq] at h
  rcases h with h | h
  · have : '0' ≤ c ∧ c ≤ '9' := h
    rw [if_pos this]
    rfl
  · have h' : 'A' ≤ c ∧ c ≤ 'F' := h
    rw [if_pos h']
    split
    · rfl
    · split
      · rfl
      · rfl

lemma isSpace_of_upperHex {c : Char} (h : isUpperHex c = true) : isSpace c = false := by
  have hc := upperHex_cases h
  unfold isSpace
  rw [Bool.or_eq_false_iff, beq_eq_false_iff_ne, Bool.and_eq_false_iff]
  refine ⟨ne_of_upperHex h (by decide), .inr (decide_eq_false fun hle => ?_)⟩
  have : c.toNat ≤ 13 := UInt32.le_iff_toNat_le.mp hle
  omega

lemma dropStart_append (start s : Str) : dropStart start (start ++ s) = some s := by
  unfold dropStart
  rw [if_pos (by rw [List.isPrefixOf_iff_prefix]; exact List.prefix_append _ _), List.drop_left]

lemma dropStart_of_head {c d : Char} {w s : Str} (h : c ≠ d) (pre : Str) :
    dropStart (pre ++ c :: w) (pre ++ d :: s) = none := by
  unfold dropStart
  rw [if_neg]
  rw [List.isPrefixOf_iff_prefix, List.prefix_append_right_inj, List.cons_prefix_cons]
  exact fun hp => h hp.1

end Lines

section Entry

variable (e : BootEntry)

/-- What stands before the last tab. -/
def BootEntry.head : Str :=
  "Boot".toList ++ (e.id ++ ((if e.active then "* ".toList else "  ".toList) ++ e.label))

lemma print_eq : e.print = e.head ++ '\t' :: e.path := by
  unfold BootEntry.print BootEntry.head
  simp only [List.append_assoc]

/-- An entry is no order: the fifth character is a digit of a number. -/
lemma dropStart_print : dropStart "BootOrder:".toList e.print = none := by
  obtain ⟨c, w, hw⟩ := List.exists_cons_of_ne_nil (ne_nil_of_isId e.id_ok)
  have hc : isUpperHex c = true := isUpperHex_of_mem e.id_ok (hw ▸ List.mem_cons_self)
  unfold BootEntry.print
  rw [hw]
  exact dropStart_of_head (ne_of_upperHex hc (by decide)).symm "Boot".toList

lemma bootHead_print : bootHead e.print = some (e.id, e.active) := by
  have hlen := length_of_isId e.id_ok
  have hall : e.id.all isXdigit = true := List.all_eq_true.mpr fun c hc =>
    isXdigit_of_upperHex (isUpperHex_of_mem e.id_ok hc)
  unfold bootHead BootEntry.print
  rw [dropStart_append]
  simp only [Option.bind_eq_bind, Option.bind_some, List.take_left' hlen, List.drop_left' hlen]
  rw [if_pos ⟨hlen, hall⟩, map_toUpper_of_isId e.id_ok]
  cases e.active with
  | false => rfl
  | true => rfl

lemma devicePathOf_print : devicePathOf e.print = e.path := by
  have hall : ∀ c ∈ e.path.reverse, decide (c ≠ '\t') = true := fun c hc =>
    decide_eq_true fun h => e.path_ok.2.2 (h ▸ List.mem_reverse.mp hc)
  unfold devicePathOf
  rw [print_eq, List.reverse_append, List.reverse_cons, List.append_assoc,
    List.takeWhile_append_of_pos hall,
    List.singleton_append, List.takeWhile_cons_of_neg (by simp), List.append_nil,
      List.reverse_reverse]

lemma labelOf_print : labelOf e.print = e.shown := by
  have hall : ∀ c ∈ e.path.reverse, decide (c ≠ '\t') = true := fun c hc =>
    decide_eq_true fun h => e.path_ok.2.2 (h ▸ List.mem_reverse.mp hc)
  have hhead : ((e.print.reverse.dropWhile (· ≠ '\t')).drop 1).reverse = e.head := by
    rw [print_eq, List.reverse_append, List.reverse_cons, List.append_assoc,
      List.dropWhile_append_of_pos hall,
      List.singleton_append, List.dropWhile_cons_of_neg (by simp), List.drop_one, List.tail_cons,
        List.reverse_reverse]
  have hid : ∀ c ∈ e.id, decide (c ≠ ' ') = true := fun c hc =>
    decide_eq_true (ne_of_upperHex (isUpperHex_of_mem e.id_ok hc) (by decide))
  have hboot : ∀ c ∈ "Boot".toList, decide (c ≠ ' ') = true :=
    List.all_eq_true.mp (by decide +kernel)
  unfold labelOf
  simp only [hhead]
  unfold BootEntry.head BootEntry.shown
  rw [if_pos (by cases e.active <;> simp), List.dropWhile_append_of_pos hboot,
    List.dropWhile_append_of_pos hid]
  cases e.active with
  | false => rfl
  | true => rfl

lemma line_print : '\n' ∉ e.print ∧ '\x00' ∉ e.print := by
  unfold BootEntry.print
  have h1 : '\n' ∉ "Boot".toList := by decide +kernel
  have h2 : '\x00' ∉ "Boot".toList := by decide +kernel
  have h3 := notMem_of_isId e.id_ok (show isUpperHex '\n' = false by decide)
  have h4 := notMem_of_isId e.id_ok (show isUpperHex '\x00' = false by decide)
  have h5 : '\n' ∉ (if e.active then "* ".toList else "  ".toList) := by
    cases e.active <;> decide +kernel
  have h6 : '\x00' ∉ (if e.active then "* ".toList else "  ".toList) := by
    cases e.active <;> decide +kernel
  simp only [List.mem_append, List.mem_cons, not_or]
  exact ⟨⟨h1, h3, h5, e.label_ok.1, by decide, e.path_ok.1⟩, h2, h4, h6, e.label_ok.2,
    by decide, e.path_ok.2.1⟩

/-- The line of an entry. -/
lemma readLine_print (state : Reading × ℕ) : readLine state e.print =
    (entryOf e.id e.active e.path).map fun entry =>
      (⟨state.1.entries ++ entry.toList, (e.id, e.shown) :: state.1.labels, state.1.order⟩,
        state.2) := by
  have htab : '\t' ∈ e.print := by
    rw [print_eq]
    exact List.mem_append_right _ List.mem_cons_self
  obtain ⟨r, count⟩ := state
  unfold readLine
  rw [dropStart_print, bootHead_print]
  simp only [if_pos htab, devicePathOf_print, labelOf_print]

end Entry

/-- The order as a text, read again. -/
lemma readOrder_intercalate {order : List Str} (h : ∀ w ∈ order, isId w = true) :
    readOrder (' ' :: List.intercalate [','] order) = some order := by
  have hupper : ∀ c ∈ List.intercalate [','] order, isUpperHex c = true ∨ c = ',' := by
    intro c hc
    rcases mem_intercalate hc with hc | ⟨w, hw, hc⟩
    · exact .inr (List.mem_singleton.mp hc)
    · exact .inl (isUpperHex_of_mem (h w hw) hc)
  have hspaces : (' ' :: List.intercalate [','] order).filter (! isSpace ·) =
      List.intercalate [','] order := by
    rw [List.filter_cons_of_neg (by decide), List.filter_eq_self]
    intro c hc
    rcases hupper c hc with hc | rfl
    · rw [isSpace_of_upperHex hc]
      rfl
    · rfl
  have hmap : (List.intercalate [','] order).map Char.toUpper = List.intercalate [','] order := by
    conv_rhs => rw [← List.map_id (List.intercalate [','] order)]
    refine List.map_congr_left fun c hc => ?_
    rcases hupper c hc with hc | rfl
    · exact toUpper_of_upperHex hc
    · rfl
  unfold readOrder
  rw [hspaces, hmap]
  by_cases hnil : order = []
  · rw [hnil]
    rfl
  · have hne : List.intercalate [','] order ≠ [] := by
      obtain ⟨w, ws, rfl⟩ := List.exists_cons_of_ne_nil hnil
      intro heq
      have hw := ne_nil_of_isId (h w List.mem_cons_self)
      cases ws with
      | nil => exact hw (by rwa [List.intercalate_singleton] at heq)
      | cons v ws =>
        rw [List.intercalate_cons_cons, List.append_assoc] at heq
        exact hw (List.append_eq_nil_iff.mp heq).1
    have hsplit : (List.intercalate [','] order).splitOn ',' = order :=
      List.splitOn_intercalate ',' (fun w hw => notMem_of_isId (h w hw) (by decide)) hnil
    rw [if_neg hne, hsplit, if_pos (List.all_eq_true.mpr h)]

/-- The line of the order. -/
lemma readLine_printOrder {order : List Str} (h : ∀ w ∈ order, isId w = true)
    (state : Reading × ℕ) :
    readLine state (printOrder order) = some (⟨state.1.entries, state.1.labels, order⟩,
      state.2 + 1) := by
  obtain ⟨r, count⟩ := state
  have hstart : dropStart "BootOrder:".toList (printOrder order) =
      some (' ' :: List.intercalate [','] order) :=
    dropStart_append "BootOrder:".toList _
  unfold readLine
  rw [hstart]
  simp only [readOrder_intercalate h, Option.map_some]

/-! ### The whole text -/

section Text

lemma readLine_other {l : Str} (h : IsOther l) (state : Reading × ℕ) :
    readLine state l = some state := by
  obtain ⟨r, count⟩ := state
  unfold readLine
  rw [h.order, h.entry]

lemma foldlM_readLine_others {ls : List Str} (h : ∀ l ∈ ls, IsOther l) (state : Reading × ℕ) :
    ls.foldlM readLine state = some state := by
  induction ls with
  | nil => rfl
  | cons l ls ih =>
    rw [List.foldlM_cons, readLine_other (h l List.mem_cons_self)]
    exact ih fun m hm => h m (List.mem_cons_of_mem _ hm)

lemma foldlM_readLine_entries (es : List BootEntry) (state : Reading × ℕ) :
    (es.map BootEntry.print).foldlM readLine state =
      (es.mapM fun e => entryOf e.id e.active e.path).map fun entries =>
        (⟨state.1.entries ++ entries.reduceOption,
          (es.map fun e => (e.id, e.shown)).reverse ++ state.1.labels, state.1.order⟩,
          state.2) := by
  induction es generalizing state with
  | nil => simp [List.reduceOption]
  | cons e es ih =>
    rw [List.map_cons, List.foldlM_cons, readLine_print, List.mapM_cons]
    cases entryOf e.id e.active e.path with
    | none => rfl
    | some entry =>
      simp only [Option.map_some, Option.bind_eq_bind, Option.bind_some, ih]
      cases es.mapM fun e => entryOf e.id e.active e.path with
      | none => rfl
      | some entries =>
        cases entry with
        | none => simp
        | some entry => simp

lemma printOrder_line {order : List Str} (h : ∀ w ∈ order, isId w = true) :
    '\n' ∉ printOrder order ∧ '\x00' ∉ printOrder order := by
  have hmem : ∀ c ∈ List.intercalate [','] order, isUpperHex c = true ∨ c = ',' := by
    intro c hc
    rcases mem_intercalate hc with hc | ⟨w, hw, hc⟩
    · exact .inr (List.mem_singleton.mp hc)
    · exact .inl (isUpperHex_of_mem (h w hw) hc)
  have hnot : ∀ d, isUpperHex d = false → d ≠ ',' → d ∉ List.intercalate [','] order := by
    intro d hd hne hmemd
    rcases hmem d hmemd with h | h
    · rw [hd] at h
      cases h
    · exact hne h
  unfold printOrder
  rw [List.mem_append, List.mem_append, not_or, not_or]
  exact ⟨⟨by decide +kernel, hnot _ (by decide) (by decide)⟩, by decide +kernel,
    hnot _ (by decide) (by decide)⟩

variable (fw : Firmware)

lemma line_of_mem_lines {l : Str} (h : l ∈ fw.lines) : '\n' ∉ l ∧ '\x00' ∉ l ∧ l ≠ [] := by
  unfold Firmware.lines at h
  rw [List.mem_append, List.mem_append, List.mem_map, List.mem_map] at h
  rcases h with h | ⟨order, ho, rfl⟩ | ⟨e, -, rfl⟩
  · exact ⟨(fw.header_ok l h).line.1, (fw.header_ok l h).line.2, (fw.header_ok l h).ne_nil⟩
  · have hids : ∀ w ∈ order, isId w = true := by
      intro w hw
      refine fw.order_ok w ?_
      rwa [Option.mem_toList.mp ho]
    exact ⟨(printOrder_line hids).1, (printOrder_line hids).2, List.cons_ne_nil _ _⟩
  · exact ⟨(line_print e).1, (line_print e).2, List.cons_ne_nil _ _⟩

/-- A text that is printed is read line by line. -/
lemma records_print : (records (captured fw.print ++ ['\n'])).foldlM readLine (⟨[], [], []⟩, 0) =
    fw.lines.foldlM readLine (⟨[], [], []⟩, 0) := by
  by_cases hnil : fw.lines = []
  · unfold Firmware.print
    rw [hnil]
    rfl
  · have hfilter : ∀ l ∈ fw.lines, l.filter (· ≠ '\x00') = l := by
      intro l hl
      rw [List.filter_eq_self]
      intro c hc
      refine decide_eq_true ?_
      rintro rfl
      exact (line_of_mem_lines fw hl).2.1 hc
    have := records_captured_unlines hnil (fun l hl => (line_of_mem_lines fw hl).1) fun l hl => by
      rw [hfilter l hl]
      exact (line_of_mem_lines fw hl).2.2
    unfold Firmware.print
    rw [this, List.map_congr_left hfilter, List.map_id']

/-- **What is read of the boot variables.** -/
theorem readEntries_print : readEntries fw.print = fw.reading := by
  have horder : ∀ state, (fw.order.toList.map printOrder).foldlM readLine state =
      some (⟨state.1.entries, state.1.labels, fw.order.getD state.1.order⟩,
        state.2 + fw.order.toList.length) := by
    intro state
    have hok := fw.order_ok
    generalize fw.order = o at hok
    cases o with
    | none => rfl
    | some order =>
      show (readLine state (printOrder order) >>= fun state => pure state) = _
      rw [@readLine_printOrder order hok]
      rfl
  have hle : 0 + fw.order.toList.length ≤ 1 := by cases fw.order <;> simp
  unfold readEntries Firmware.reading
  rw [records_print, Firmware.lines, List.foldlM_append, foldlM_readLine_others fw.header_ok]
  simp only [Option.bind_eq_bind, Option.bind_some, List.foldlM_append, horder,
    foldlM_readLine_entries]
  cases fw.entries.mapM fun e => entryOf e.id e.active e.path with
  | none => rfl
  | some entries =>
    simp only [Option.map_some, Option.bind_some, if_pos hle, List.nil_append, List.append_nil]

end Text

end Pxeos.Uefi
