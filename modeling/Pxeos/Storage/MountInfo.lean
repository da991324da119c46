import Pxeos.Lib.Checks
import Pxeos.Lib.Text
import Pxeos.Storage.Server

/-!
# The mount of the storage

`storage_mount.c` looks for its mount in the text of `mountinfo`.  The lines of the kernel have
fields in which blanks and backslashes are octal escapes; the helper goes on only if one line, and
no other, is a mount on `/storage`, and it is the mount that the context asks for.
-/

namespace Pxeos.Storage

open Pxeos.Lib

def newline : UInt8 := 10
def blank : UInt8 := 32
def comma : UInt8 := 44
def dash : UInt8 := 45
def backslash : UInt8 := 92

/-- All tokens of `strtok_r` with one delimiter. -/
def strtok (sep : UInt8) (s : Bytes) : List Bytes := (s.splitOn sep).filter (· ≠ [])

def isOctal (c : UInt8) : Bool := 48 ≤ c && c ≤ 55

/-- The value of three octal digits. -/
def octalValue (a b d : UInt8) : ℕ := (a.toNat - 48) * 64 + (b.toNat - 48) * 8 + (d.toNat - 48)

/-- `unescape`. -/
def unescape : Bytes → Option Bytes
  | [] => some []
  | c :: p =>
    if c = backslash then
      match p with
      | a :: b :: d :: p =>
        if isOctal a && isOctal b && isOctal d then
          if octalValue a b d = 0 ∨ 255 < octalValue a b d then none
          else (unescape p).map fun out => (octalValue a b d).toUInt8 :: out
        else none
      | _ => none
    else (unescape p).map fun out => c :: out

/-- `canonical_version`. -/
def canonicalVersion (p : Protocol) (v : Bytes) : Option Bytes :=
  match p with
  | .nfs =>
    if v = ascii "3" then some (ascii "3")
    else if v = ascii "4.0" ∨ v = ascii "4" then some (ascii "4.0")
    else if v = ascii "4.1" then some (ascii "4.1")
    else if v = ascii "4.2" then some (ascii "4.2")
    else none
  | .smb =>
    if v = ascii "2.1" then some (ascii "2.1")
    else if v = ascii "3.0" then some (ascii "3.0")
    else if v = ascii "3.02" ∨ v = ascii "3.0.2" then some (ascii "3.0.2")
    else if v = ascii "3.11" ∨ v = ascii "3.1.1" then some (ascii "3.1.1")
    else none

/-- A text printed into a buffer, unless it does not fit. -/
def fits (size : ℕ) (text : Bytes) : Option Bytes := if text.length < size then some text else none

/-- `source_nfs`. -/
def sourceNfs (c : Context) (size : ℕ) : Option Bytes :=
  if c.server.head? = some bracket then
    if c.server.length < 3 ∨ c.server.getLast? ≠ some closing then none
    else fits size (c.server ++ colon :: c.exportPath)
  else if colon ∈ c.server then
    fits size (bracket :: (c.server ++ closing :: colon :: c.exportPath))
  else fits size (c.server ++ colon :: c.exportPath)

/-- `tolower` of the C locale. -/
def toLower (c : UInt8) : UInt8 := if 65 ≤ c ∧ c ≤ 90 then c + 32 else c

/-- `!strcasecmp`. -/
def sameText (a b : Bytes) : Bool := a.map toLower == b.map toLower

/-- The source of an SMB share. -/
def smbSource (server path : Bytes) : Bytes := slash :: slash :: (server ++ slash :: path)

/-- `source_ok`. -/
def sourceOk (c : Context) (type source root : Bytes) : Bool :=
  match c.protocol with
  | .nfs =>
    match sourceNfs c 4608 with
    | none => false
    | some expected => (type == ascii "nfs" || type == ascii "nfs4") && expected == source
  | .smb =>
    let share := c.exportPath.takeWhile (· != slash)
    let subdir := (c.exportPath.dropWhile (· != slash)).drop 1
    type == ascii "cifs" && (sameText source (snprintf 4608 (smbSource c.server share)) ||
      sameText source (snprintf 4608 (smbSource c.server c.exportPath))) &&
        root == snprintf 4096 (slash :: subdir)

/-- What the loop over the options has found. -/
structure Options where
  version : Bytes
  found : ℕ
  serverino : Bool

def versKey : Bytes := ascii "vers="

/-- The loop over the options. -/
def optionsLoop : Options → List Bytes → Options
  | st, [] => st
  | st, v :: vs =>
    if versKey <+: v then
      if st.found + 1 ≠ 1 ∨ 32 ≤ (v.drop 5).length then { st with found := st.found + 1 }
      else optionsLoop ⟨v.drop 5, st.found + 1, st.serverino || v == ascii "serverino"⟩ vs
    else optionsLoop { st with serverino := st.serverino || v == ascii "serverino" } vs

/-- The version that the options of a mount name, if it is one the context allows. -/
def optionsVersion (c : Context) (options : Bytes) : Option Bytes :=
  let st := optionsLoop ⟨[], 0, false⟩ (strtok comma options)
  match canonicalVersion c.protocol st.version with
  | none => none
  | some canonical =>
    if st.found ≠ 1 ∨ (c.version ≠ ascii "auto" ∧ c.version ≠ canonical) ∨
      (c.protocol = .smb ∧ st.serverino = false) then none
    else some canonical

/-- What stands behind the separator of a line. -/
def mountTail (c : Context) (root tail : Bytes) : Option Bytes :=
  match strtok blank tail with
  | type :: source :: options :: _ =>
    match unescape source with
    | none => none
    | some source => if sourceOk c type source root then optionsVersion c options else none
  | _ => none

def mountSeparator : Bytes := [blank, dash, blank]

/-- A line: `none` if it is skipped, `some none` if it is counted and not good. -/
def mountLine (c : Context) (line : Bytes) : Option (Option Bytes) :=
  match afterFirst mountSeparator line with
  | none => none
  | some tail =>
    -- the fields behind the sixth are not read
    match strtok blank (beforeFirst mountSeparator line) with
    | _ :: _ :: _ :: root :: point :: _ :: _ =>
      match unescape root, unescape point with
      | some root, some point =>
        if point = ascii "/storage" then some (mountTail c root tail) else none
      | _, _ => none
    | _ => none

/-- `matches`, `good` and `actual`. -/
structure Mounts where
  matched : ℕ
  good : ℕ
  actual : Bytes

def mountStep (st : Mounts) (line : Option Bytes) : Mounts :=
  match line with
  | none => { st with matched := st.matched + 1 }
  | some canonical => ⟨st.matched + 1, st.good + 1, canonical⟩

/-- `rx_parse_mountinfo`: the actual version. -/
def rxParseMountinfo (text : Bytes) (c : Context) : Option Bytes :=
  let st := ((strtok newline text).filterMap (mountLine c)).foldl mountStep ⟨0, 0, []⟩
  if st.matched = 1 ∧ st.good = 1 then some st.actual else none

/-! ### The lines of the kernel -/

/-- A mount of the kernel, with its fields not escaped. -/
structure Mount where
  id : Bytes
  parent : Bytes
  device : Bytes
  root : Bytes
  point : Bytes
  flags : Bytes
  tags : List Bytes
  type : Bytes
  source : Bytes
  options : List Bytes

/-- The fields before the separator. -/
def Mount.fields (m : Mount) : List Bytes :=
  m.id :: m.parent :: m.device :: m.root :: m.point :: m.flags :: m.tags

/-- An escaped byte. -/
def octal (c : UInt8) : Bytes := [backslash, 48 + c / 64, 48 + c / 8 % 8, 48 + c % 8]

/-- The bytes that the kernel may escape. -/
def Special (c : UInt8) : Prop := c ∈ [9, newline, blank, 35, backslash]

/-- The bytes that the kernel prints as they are. -/
def PlainByte (c : UInt8) : Prop := c ∉ [0, newline, blank, backslash]

/-- `text` is a field as the kernel prints it. -/
inductive Mangled : Bytes → Bytes → Prop
  | nil : Mangled [] []
  | plain {c : UInt8} {text field : Bytes} (hc : PlainByte c) (h : Mangled text field) :
      Mangled (c :: text) (c :: field)
  | escaped {c : UInt8} {text field : Bytes} (hc : Special c) (h : Mangled text field) :
      Mangled (octal c ++ text) (c :: field)

/-- `line` is a line of the kernel for the mount `m`. -/
structure Prints (m : Mount) (line : Bytes) : Prop where
  printed : ∃ fields type source, List.Forall₂ Mangled fields m.fields ∧ Mangled type m.type ∧
    Mangled source m.source ∧
    (∀ f ∈ fields, f ≠ [] ∧ f ≠ [dash]) ∧ type ≠ [] ∧
    line = [blank].intercalate fields ++
      (mountSeparator ++ [blank].intercalate [type, source, [comma].intercalate m.options])
  options : ∀ o ∈ m.options, blank ∉ o ∧ comma ∉ o

/-- The host in the source of an NFS mount: an IPv6 address stands in brackets. -/
def NfsHost (server host : Bytes) : Prop :=
  if server.head? = some bracket then 3 ≤ server.length ∧ host = server
  else if colon ∈ server then host = bracket :: (server ++ [closing])
  else host = server

/-- The type, the source and, for SMB, the root that a context asks for. -/
def ExpectedSource (c : Context) (m : Mount) : Prop :=
  match c.protocol with
  | .nfs => (m.type = ascii "nfs" ∨ m.type = ascii "nfs4") ∧ ∃ host, NfsHost c.server host ∧
      m.source = host ++ colon :: c.exportPath
  | .smb =>
    m.type = ascii "cifs" ∧ ∃ share dir,
      (c.exportPath = share ∧ dir = [] ∨ c.exportPath = share ++ slash :: dir) ∧
      slash ∉ share ∧ m.root = slash :: dir ∧
      (sameText m.source (smbSource c.server share) = true ∨
        sameText m.source (smbSource c.server c.exportPath) = true)

/-- The mount `m` is the one that the context `c` asks for, and `v` is its version. -/
structure Expected (c : Context) (m : Mount) (v : Bytes) : Prop where
  source : ExpectedSource c m
  serverino : c.protocol = .smb → ascii "serverino" ∈ m.options
  version : ∃ text, m.options.filter (versKey.isPrefixOf ·) = [versKey ++ text] ∧
    canonicalVersion c.protocol text = some v
  allowed : c.version = ascii "auto" ∨ c.version = v

/-! ### Tokens -/

lemma strtok_intercalate {sep : UInt8} {ls : List Bytes} (h : ∀ l ∈ ls, sep ∉ l) :
    strtok sep ([sep].intercalate ls) = ls.filter (· ≠ []) := by
  unfold strtok
  cases ls with
  | nil => rfl
  | cons l ls => rw [List.splitOn_intercalate sep h (List.cons_ne_nil _ _)]

lemma filter_nonempty_cons {l : Bytes} (h : l ≠ []) (ls : List Bytes) :
    (l :: ls).filter (· ≠ []) = l :: ls.filter (· ≠ []) :=
  List.filter_cons_of_pos (decide_eq_true h)

lemma filter_empty_cons (ls : List Bytes) : ([] :: ls).filter (· ≠ []) = ls.filter (· ≠ []) :=
  List.filter_cons_of_neg (by simp)

lemma strtok_fields {sep : UInt8} {ls : List Bytes} (h : ∀ l ∈ ls, sep ∉ l)
    (hne : ∀ l ∈ ls, l ≠ []) :
    strtok sep ([sep].intercalate ls) = ls := by
  rw [strtok_intercalate h, List.filter_eq_self]
  intro l hl
  exact decide_eq_true (hne l hl)

/-! ### Escaped fields -/

lemma octal_special {c : UInt8} (h : Special c) :
    ∃ a b d, octal c = [backslash, a, b, d] ∧ isOctal a = true ∧ isOctal b = true ∧
      isOctal d = true ∧
      octalValue a b d = c.toNat ∧ c ≠ 0 ∧ blank ∉ octal c := by
  unfold Special at h
  simp only [List.mem_cons, List.not_mem_nil, or_false] at h
  refine ⟨_, _, _, rfl, ?_⟩
  rcases h with rfl | rfl | rfl | rfl | rfl <;> decide

lemma Mangled.blank_notMem {text field : Bytes} (h : Mangled text field) : blank ∉ text := by
  induction h with
  | nil => exact List.not_mem_nil
  | plain hc _ ih =>
    rw [List.mem_cons, not_or]
    refine ⟨?_, ih⟩
    rintro rfl
    exact hc (by decide)
  | escaped hc _ ih =>
    obtain ⟨-, -, -, -, -, -, -, -, -, hblank⟩ := octal_special hc
    rw [List.mem_append, not_or]
    exact ⟨hblank, ih⟩

lemma unescape_plain {c : UInt8} (h : c ≠ backslash) (p : Bytes) :
    unescape (c :: p) = (unescape p).map fun out => c :: out := by
  rw [unescape.eq_def]
  exact if_neg h

lemma unescape_octal (a b d : UInt8) (p : Bytes) : unescape (backslash :: a :: b :: d :: p) =
    if isOctal a && isOctal b && isOctal d then
      if octalValue a b d = 0 ∨ 255 < octalValue a b d then none
      else (unescape p).map fun out => (octalValue a b d).toUInt8 :: out
    else none := by
  rw [unescape.eq_def]
  exact if_pos rfl

lemma unescape_mangled {text field : Bytes} (h : Mangled text field) :
    unescape text = some field := by
  induction h with
  | nil => rfl
  | @plain c text field hc _ ih =>
    have hne : c ≠ backslash := by
      rintro rfl
      exact hc (by decide)
    rw [unescape_plain hne, ih]
    rfl
  | @escaped c text field hc _ ih =>
    obtain ⟨a, b, d, ho, ha, hb, hd, hv, hz, -⟩ := octal_special hc
    have hlt := UInt8.toNat_lt c
    have hpos : c.toNat ≠ 0 := fun h0 => hz (UInt8.toNat_inj.mp h0)
    rw [ho]
    show unescape (backslash :: a :: b :: d :: text) = _
    rw [unescape_octal, ha, hb, hd, if_pos (show (true && true && true) = true from rfl), hv,
      if_neg (by omega), ih, Option.map_some]
    exact congrArg (fun x => some (x :: field)) UInt8.ofNat_toNat

lemma Mangled.eq_nil_iff {text field : Bytes} (h : Mangled text field) :
    text = [] ↔ field = [] := by
  cases h with
  | nil => exact Iff.rfl
  | plain => exact iff_of_false (List.cons_ne_nil _ _) (List.cons_ne_nil _ _)
  | escaped => exact iff_of_false (List.cons_ne_nil _ _) (List.cons_ne_nil _ _)

/-- A word without special bytes is printed as it is, and nothing else is. -/
lemma Mangled.eq_iff {text field : Bytes} (h : Mangled text field) {w : Bytes}
    (hw : ∀ c ∈ w, ¬ Special c) :
    text = w ↔ field = w := by
  induction h generalizing w with
  | nil => exact Iff.rfl
  | @plain c text field hc _ ih =>
    cases w with
    | nil => exact iff_of_false (List.cons_ne_nil _ _) (List.cons_ne_nil _ _)
    | cons a w =>
      rw [List.cons.injEq, List.cons.injEq, ih fun c hc => hw c (List.mem_cons_of_mem a hc)]
  | @escaped c text field hc _ ih =>
    constructor
    · rintro rfl
      exact absurd (show Special backslash by unfold Special; decide)
        (hw backslash List.mem_cons_self)
    · rintro rfl
      exact absurd hc (hw c List.mem_cons_self)

/-! ### Options -/

/-- The options that name a version. -/
def versions (vs : List Bytes) : List Bytes := vs.filter (versKey.isPrefixOf ·)

lemma versions_cons_pos {v : Bytes} (h : versKey <+: v) (vs : List Bytes) :
    versions (v :: vs) = v :: versions vs :=
  List.filter_cons_of_pos (List.isPrefixOf_iff_prefix.mpr h)

lemma versions_cons_neg {v : Bytes} (h : ¬ versKey <+: v) (vs : List Bytes) :
    versions (v :: vs) = versions vs :=
  List.filter_cons_of_neg fun hp => h (List.isPrefixOf_iff_prefix.mp hp)

lemma serverino_cons (b : Bool) (v : Bytes) (vs : List Bytes) :
    (b || v == ascii "serverino" || decide (ascii "serverino" ∈ vs)) =
      (b || decide (ascii "serverino" ∈ v :: vs)) := by
  rw [Bool.or_assoc, show decide (ascii "serverino" ∈ v :: vs) = (v == ascii "serverino" ||
    decide (ascii "serverino" ∈ vs)) from ?_]
  rw [Bool.eq_iff_iff, decide_eq_true_iff, List.mem_cons, Bool.or_eq_true, decide_eq_true_iff,
    beq_iff_eq, eq_comm]

/-- Options that name no version. -/
lemma optionsLoop_none {vs : List Bytes} (h : versions vs = []) (st : Options) :
    optionsLoop st vs =
      { st with serverino := st.serverino || decide (ascii "serverino" ∈ vs) } := by
  induction vs generalizing st with
  | nil => rw [optionsLoop, decide_eq_false List.not_mem_nil, Bool.or_false]
  | cons v vs ih =>
    by_cases hv : versKey <+: v
    · rw [versions_cons_pos hv] at h
      exact absurd h (List.cons_ne_nil _ _)
    · rw [versions_cons_neg hv] at h
      rw [optionsLoop, if_neg hv, ih h]
      exact congrArg (Options.mk st.version st.found) (serverino_cons _ _ _)

/-- A second version ends the loop. -/
lemma optionsLoop_second {vs : List Bytes} (h : versions vs ≠ []) {st : Options}
    (hfound : st.found = 1) :
    (optionsLoop st vs).found = 2 := by
  induction vs generalizing st with
  | nil => exact absurd rfl h
  | cons v vs ih =>
    by_cases hv : versKey <+: v
    · rw [optionsLoop, if_pos hv, if_pos (.inl (by omega))]
      show st.found + 1 = 2
      omega
    · rw [versions_cons_neg hv] at h
      rw [optionsLoop, if_neg hv]
      exact ih h hfound

lemma canonicalVersion_nil (p : Protocol) : canonicalVersion p [] = none := by cases p <;> rfl

/-- The version of a long text. -/
lemma canonicalVersion_long {p : Protocol} {v : Bytes} (h : 32 ≤ v.length) :
    canonicalVersion p v = none := by
  have hne : ∀ s : String, (ascii s).length < 32 → v ≠ ascii s := by
    rintro s hs rfl
    omega
  unfold canonicalVersion
  cases p with
  | nfs =>
    simp only [hne "3" (by decide), hne "4.0" (by decide), hne "4" (by decide),
      hne "4.1" (by decide), hne "4.2" (by decide),
      or_self, if_false]
  | smb =>
    simp only [hne "2.1" (by decide), hne "3.0" (by decide), hne "3.02" (by decide),
      hne "3.0.2" (by decide),
      hne "3.11" (by decide), hne "3.1.1" (by decide), or_self, if_false]

/-- What the loop makes of the options: the one version with a canonical form, and whether
`serverino` is there. -/
lemma optionsLoop_iff {p : Protocol} {v : Bytes} (vs : List Bytes) (b : Bool) :
    ((optionsLoop ⟨[], 0, b⟩ vs).found = 1 ∧
      canonicalVersion p (optionsLoop ⟨[], 0, b⟩ vs).version = some v ∧
        (p = .smb → (optionsLoop ⟨[], 0, b⟩ vs).serverino = true)) ↔
      (∃ text, versions vs = [versKey ++ text] ∧ canonicalVersion p text = some v) ∧
        (p = .smb → (b || decide (ascii "serverino" ∈ vs)) = true) := by
  induction vs generalizing b with
  | nil =>
    refine iff_of_false ?_ ?_
    · rintro ⟨h, -⟩
      exact absurd h Nat.zero_ne_one
    · rintro ⟨⟨text, h, -⟩, -⟩
      cases h
  | cons o vs ih =>
    by_cases ho : versKey <+: o
    · obtain ⟨text, rfl⟩ := ho
      have hdrop : (versKey ++ text).drop versKey.length = text := List.drop_left
      rw [versions_cons_pos (List.prefix_append _ _)]
      rw [optionsLoop, if_pos (List.prefix_append _ _),
        show (versKey ++ text).drop 5 = text from hdrop]
      rcases Nat.lt_or_ge text.length 32 with hlt | hge
      · rw [if_neg (by simp only [not_or]; omega)]
        by_cases hvs : versions vs = []
        · -- the only version
          rw [optionsLoop_none hvs, hvs]
          dsimp only
          rw [serverino_cons]
          constructor
          · rintro ⟨-, hv, hs⟩
            exact ⟨⟨text, rfl, hv⟩, hs⟩
          · rintro ⟨⟨text', htext, hv⟩, hs⟩
            obtain rfl := List.append_cancel_left (List.cons.inj htext).1
            exact ⟨rfl, hv, hs⟩
        · refine iff_of_false ?_ ?_
          · rintro ⟨h, -⟩
            rw [optionsLoop_second hvs rfl] at h
            exact absurd h (by decide)
          · rintro ⟨⟨text', htext, -⟩, -⟩
            exact hvs (List.cons.inj htext).2
      · -- a text that is too long ends the loop, and is no version
        rw [if_pos (.inr hge)]
        refine iff_of_false ?_ ?_
        · rintro ⟨-, h, -⟩
          rw [canonicalVersion_nil] at h
          cases h
        · rintro ⟨⟨text', htext, h⟩, -⟩
          obtain rfl := List.append_cancel_left (List.cons.inj htext).1
          rw [canonicalVersion_long hge] at h
          cases h
    · rw [versions_cons_neg ho, optionsLoop, if_neg ho]
      dsimp only
      rw [ih, serverino_cons]

/-- The options of a mount give the version that the context allows. -/
lemma optionsVersion_iff {c : Context} {options v : Bytes} :
    optionsVersion c options = some v ↔
      (∃ text, versions (strtok comma options) = [versKey ++ text] ∧
        canonicalVersion c.protocol text = some v) ∧
        (c.protocol = .smb → ascii "serverino" ∈ strtok comma options) ∧
        (c.version = ascii "auto" ∨ c.version = v) := by
  have hloop := @optionsLoop_iff c.protocol v (strtok comma options) false
  rw [Bool.false_or, decide_eq_true_iff] at hloop
  rw [← and_assoc, ← hloop]
  unfold optionsVersion
  dsimp only
  generalize optionsLoop ⟨[], 0, false⟩ (strtok comma options) = st
  cases hcanon : canonicalVersion c.protocol st.version with
  | none => exact iff_of_false (by rintro ⟨⟩) (by rintro ⟨⟨-, h, -⟩, -⟩; cases h)
  | some canonical =>
    dsimp only
    constructor
    · intro h
      split at h
      next => cases h
      next hok =>
        obtain rfl := Option.some.inj h
        rw [not_or, not_or, not_not] at hok
        obtain ⟨hfound, hversion, hino⟩ := hok
        refine ⟨⟨hfound, rfl, fun hp => ?_⟩, ?_⟩
        · by_contra hs
          exact hino ⟨hp, Bool.eq_false_iff.mpr hs⟩
        · by_contra hne
          rw [not_or] at hne
          exact hversion hne
    · rintro ⟨⟨hfound, hv, hino⟩, hversion⟩
      obtain rfl := Option.some.inj hv
      rw [if_neg]
      rw [not_or, not_or, not_not]
      refine ⟨hfound, ?_, ?_⟩
      · rintro ⟨h1, h2⟩
        rcases hversion with h | h
        · exact h1 h
        · exact h2 h
      · rintro ⟨hp, hs⟩
        rw [hino hp] at hs
        cases hs

/-! ### Sources -/

/-- The bounds of an accepted context, which no buffer is too small for. -/
structure Context.Short (c : Context) : Prop where
  server : c.server.length ≤ 255
  exportPath : c.exportPath.length ≤ 4095
  bracket : c.server.head? = some bracket → c.server.getLast? = some closing

lemma rxLoadContext_short {json : Json} {c : Context} (h : rxLoadContext json = some c) :
    c.Short := by
  obtain ⟨server, task, target, attempt, hl⟩ := rxLoadContext_loaded h
  have hserver := (rxString_spec hl.read).1
  refine ⟨?_, (rxString_spec hl.exportPath).1, ?_⟩
  · cases serverPort_cut hl.host with
    | closed hs hb hhost hport =>
      rw [hhost]
      exact hserver
    | port text hb hport hv h1 h2 =>
      have hlen := congrArg List.length hport.1
      rw [List.length_append] at hlen
      omega
    | whole hs hcount hhost hport =>
      rw [hhost]
      exact hserver
  · intro hhead
    cases serverPort_cut hl.host with
    | closed hs hb hhost hport => exact hb.ends.2
    | port text hb hport hv h1 h2 =>
      rcases hb with hb | ⟨hhost, -⟩
      · exact hb.ends.2
      · exact absurd hhead hhost
    | whole hs hcount hhost hport =>
      rw [hhost] at hhead
      exact absurd hhead hs

lemma fits_eq_some {size : ℕ} {text : Bytes} (h : text.length < size) :
    fits size text = some text := if_pos h

lemma sourceNfs_iff {c : Context} (hc : c.Short) {source : Bytes} :
    sourceNfs c 4608 = some source ↔ ∃ host, NfsHost c.server host ∧
      source = host ++ colon :: c.exportPath := by
  have hserver := hc.server
  have hexport := hc.exportPath
  have hfit : fits 4608 (c.server ++ colon :: c.exportPath) =
      some (c.server ++ colon :: c.exportPath) := by
    refine fits_eq_some ?_
    rw [List.length_append, List.length_cons]
    omega
  unfold sourceNfs NfsHost
  split
  next hhead =>
    rw [hc.bracket hhead]
    split
    next hlen =>
      refine iff_of_false (by rintro ⟨⟩) ?_
      rintro ⟨host, ⟨hlong, -⟩, -⟩
      rcases hlen with hlen | hlen
      · omega
      · exact hlen rfl
    next hlen =>
      rw [not_or, not_lt] at hlen
      rw [hfit]
      constructor
      · intro h
        exact ⟨c.server, ⟨hlen.1, rfl⟩, (Option.some.inj h).symm⟩
      · rintro ⟨host, ⟨-, rfl⟩, rfl⟩
        rfl
  next =>
    split
    next =>
      have hfit6 : fits 4608 (bracket :: (c.server ++ closing :: colon :: c.exportPath)) =
          some (bracket :: (c.server ++ closing :: colon :: c.exportPath)) := by
        refine fits_eq_some ?_
        rw [List.length_cons, List.length_append, List.length_cons, List.length_cons]
        omega
      rw [hfit6]
      constructor
      · intro h
        refine ⟨_, rfl, ?_⟩
        rw [← Option.some.inj h]
        simp
      · rintro ⟨host, rfl, rfl⟩
        simp
    next =>
      rw [hfit]
      constructor
      · intro h
        exact ⟨c.server, rfl, (Option.some.inj h).symm⟩
      · rintro ⟨host, rfl, rfl⟩
        rfl

lemma snprintf_of_lt {size : ℕ} {text : Bytes} (h : text.length < size) :
    snprintf size text = text := by
  unfold snprintf
  exact List.take_of_length_le (by omega)

lemma length_smbSource (server path : Bytes) :
    (smbSource server path).length = server.length + path.length + 3 := by
  unfold smbSource
  simp only [List.length_cons, List.length_append]
  omega

/-- The share and the directory of an export path. -/
lemma share_iff {path share dir : Bytes} :
    ((path = share ∧ dir = [] ∨ path = share ++ slash :: dir) ∧ slash ∉ share) ↔
      path.takeWhile (· != slash) = share ∧ (path.dropWhile (· != slash)).drop 1 = dir := by
  constructor
  · rintro ⟨h, hs⟩
    have hall : ∀ b ∈ share, (b != slash) = true := by
      intro b hb
      rw [bne_iff_ne]
      rintro rfl
      exact hs hb
    rcases h with ⟨rfl, rfl⟩ | rfl
    · rw [List.takeWhile_eq_self_iff.mpr hall, List.dropWhile_eq_nil_iff.mpr hall]
      exact ⟨rfl, rfl⟩
    · rw [List.takeWhile_append_of_pos hall, List.dropWhile_append_of_pos hall,
        List.takeWhile_cons_of_neg (by decide),
        List.dropWhile_cons_of_neg (by decide), List.append_nil]
      exact ⟨rfl, rfl⟩
  · rintro ⟨rfl, rfl⟩
    refine ⟨?_, takeWhile_ne_notMem slash path⟩
    cases h : path.dropWhile (· != slash) with
    | nil =>
      left
      have := List.takeWhile_append_dropWhile (p := (· != slash)) (l := path)
      rw [h, List.append_nil] at this
      exact ⟨this.symm, rfl⟩
    | cons b rest =>
      right
      exact (takeWhile_dropWhile_of_mem h).2

/-- `source_ok` finds the expected source. -/
lemma sourceOk_iff {c : Context} (hc : c.Short) {m : Mount} {type : Bytes}
    (htype : Mangled type m.type) :
    sourceOk c type m.source m.root = true ↔ ExpectedSource c m := by
  have hserver := hc.server
  have hexport := hc.exportPath
  have hname : ∀ w : Bytes, (∀ b ∈ w, ¬ Special b) → (type = w ↔ m.type = w) :=
    fun w hw => htype.eq_iff hw
  unfold sourceOk ExpectedSource
  cases hp : c.protocol with
  | nfs =>
    dsimp only
    rw [← hname (ascii "nfs") (by unfold Special; decide +kernel),
      ← hname (ascii "nfs4") (by unfold Special; decide +kernel)]
    rw [← sourceNfs_iff hc]
    cases sourceNfs c 4608 with
    | none => exact iff_of_false Bool.false_ne_true (by rintro ⟨-, ⟨⟩⟩)
    | some expected =>
      dsimp only
      rw [Bool.and_eq_true, Bool.or_eq_true, beq_iff_eq, beq_iff_eq, beq_iff_eq, Option.some.injEq]
  | smb =>
    dsimp only
    rw [← hname (ascii "cifs") (by unfold Special; decide +kernel)]
    have hlen : (c.exportPath.takeWhile (· != slash)).length ≤ c.exportPath.length :=
      (List.takeWhile_prefix _).length_le
    have hdrop : ((c.exportPath.dropWhile (· != slash)).drop 1).length + 1 ≤
        max 1 c.exportPath.length := by
      have := (List.dropWhile_suffix (l := c.exportPath) (· != slash)).length_le
      rw [List.length_drop]
      omega
    rw [snprintf_of_lt (by rw [length_smbSource]; omega),
      snprintf_of_lt (by rw [length_smbSource]; omega),
      snprintf_of_lt (by rw [List.length_cons]; omega)]
    rw [Bool.and_eq_true, Bool.and_eq_true, Bool.or_eq_true, beq_iff_eq, beq_iff_eq]
    constructor
    · rintro ⟨⟨h1, h2⟩, h3⟩
      obtain ⟨hsplit, hs⟩ := share_iff.mpr ⟨rfl, rfl⟩
      exact ⟨h1, _, _, hsplit, hs, h3, h2⟩
    · rintro ⟨h1, share, dir, hsplit, hs, h3, h2⟩
      obtain ⟨rfl, rfl⟩ := share_iff.mp ⟨hsplit, hs⟩
      exact ⟨⟨h1, h2⟩, h3⟩

/-! ### Lines -/

/-- The separator does not begin before the end of the fields. -/
lemma separator_notInfix {fields : List Bytes} (hne : fields ≠ [])
    (hblank : ∀ f ∈ fields, blank ∉ f) (hdash : ∀ f ∈ fields, f ≠ [dash]) :
    ¬ [blank, dash] ++ [blank] <:+: [blank].intercalate fields ++ [blank, dash] := by
  rintro ⟨s, t, h⟩
  have hleft : (s ++ ([blank, dash] ++ [blank]) ++ t).splitOn blank = s.splitOn blank ++
      [dash] :: t.splitOn blank := by
    rw [show s ++ ([blank, dash] ++ [blank]) ++ t = s ++ blank :: ([dash] ++ blank :: t) by simp]
    rw [List.splitOn_append_cons_self, List.splitOn_append_cons_self_of_not_mem (by decide)]
  have hright : ([blank].intercalate fields ++ [blank, dash]).splitOn blank =
      fields ++ [[dash]] := by
    rw [List.splitOn_append_cons_self, List.splitOn_intercalate blank hblank hne]
    rfl
  rw [← h, hleft] at hright
  -- a field that is not the last would be a dash
  have hlast := congrArg List.dropLast hright
  rw [List.dropLast_concat, List.dropLast_append_of_ne_nil (List.cons_ne_nil _ _),
    List.dropLast_cons_of_ne_nil (List.splitOn_ne_nil _ _)] at hlast
  exact hdash [dash] (by rw [← hlast]; simp) rfl

lemma notMem_intercalate {b sep : UInt8} (hb : b ≠ sep) {ls : List Bytes} (h : ∀ l ∈ ls, b ∉ l) :
    b ∉ [sep].intercalate ls := by
  induction ls with
  | nil => exact List.not_mem_nil
  | cons l ls ih =>
    have hl := h l List.mem_cons_self
    have ih := ih fun l hl => h l (List.mem_cons_of_mem _ hl)
    cases ls with
    | nil => rwa [List.intercalate_singleton]
    | cons l' ls =>
      rw [List.intercalate_cons_cons, List.mem_append, List.mem_append, not_or, not_or]
      exact ⟨⟨hl, fun h => hb (List.mem_singleton.mp h)⟩, ih⟩

/-- The option that is there makes the text of the options non-empty. -/
lemma intercalate_ne_nil {ls : List Bytes} {o : Bytes} (ho : o ∈ ls) (hne : o ≠ []) :
    [comma].intercalate ls ≠ [] := by
  obtain ⟨a, b, rfl⟩ := List.append_of_mem ho
  cases a with
  | nil =>
    cases b with
    | nil => rwa [List.nil_append, List.intercalate_singleton]
    | cons x b =>
      rw [List.nil_append, List.intercalate_cons_cons]
      simp [hne]
  | cons x a =>
    cases a with
    | nil =>
      rw [List.singleton_append, List.intercalate_cons_cons]
      simp
    | cons y a =>
      rw [List.cons_append, List.cons_append, List.intercalate_cons_cons]
      simp

lemma versions_filter (vs : List Bytes) : versions (vs.filter (· ≠ [])) = versions vs := by
  unfold versions
  rw [List.filter_filter]
  refine List.filter_congr fun v _ => ?_
  cases v with
  | nil => rfl
  | cons b v => exact Bool.and_true _

lemma ExpectedSource.source_ne {c : Context} {m : Mount} (h : ExpectedSource c m) :
    m.source ≠ [] := by
  unfold ExpectedSource at h
  split at h
  · obtain ⟨-, host, -, hsource⟩ := h
    rw [hsource]
    exact List.append_ne_nil_of_right_ne_nil _ (List.cons_ne_nil _ _)
  · rintro hm
    rw [hm] at h
    obtain ⟨-, share, dir, -, -, -, hs | hs⟩ := h
    · cases hs
    · cases hs

/-- The words behind the separator. -/
lemma mountTail_iff {c : Context} (hc : c.Short) {m : Mount} {type source v : Bytes}
    (htype : Mangled type m.type) (hne : type ≠ []) (hsource : Mangled source m.source)
    (hoptions : ∀ o ∈ m.options, blank ∉ o ∧ comma ∉ o) :
    mountTail c m.root ([blank].intercalate [type, source, [comma].intercalate m.options]) =
      some v ↔ Expected c m v := by
  have hblank : blank ∉ [comma].intercalate m.options := notMem_intercalate (by decide) fun o ho =>
    (hoptions o ho).1
  have hwords : strtok blank ([blank].intercalate [type, source, [comma].intercalate m.options]) =
      [type, source, [comma].intercalate m.options].filter (· ≠ []) := by
    refine strtok_intercalate ?_
    intro l hl
    simp only [List.mem_cons, List.not_mem_nil, or_false] at hl
    rcases hl with rfl | rfl | rfl
    · exact htype.blank_notMem
    · exact hsource.blank_notMem
    · exact hblank
  have hopts : strtok comma ([comma].intercalate m.options) = m.options.filter (· ≠ []) :=
    strtok_intercalate fun o ho => (hoptions o ho).2
  unfold mountTail
  rw [hwords, filter_nonempty_cons hne]
  by_cases hs : source = []
  · -- a mount without a source is not the expected one
    have hno : ¬ Expected c m v := fun h => h.source.source_ne (hsource.eq_nil_iff.mp hs)
    rw [hs, filter_empty_cons]
    refine iff_of_false ?_ hno
    by_cases ho : [comma].intercalate m.options = []
    · rw [ho, filter_empty_cons]
      rintro ⟨⟩
    · rw [filter_nonempty_cons ho]
      rintro ⟨⟩
  · rw [filter_nonempty_cons hs]
    by_cases ho : [comma].intercalate m.options = []
    · -- nor is one without options
      rw [ho, filter_empty_cons]
      refine iff_of_false (by rintro ⟨⟩) fun h => ?_
      obtain ⟨text, htext, -⟩ := h.version
      have hmem : versKey ++ text ∈ m.options.filter (versKey.isPrefixOf ·) := by
        rw [htext]
        exact List.mem_singleton_self _
      exact intercalate_ne_nil (List.mem_of_mem_filter hmem) (List.cons_ne_nil _ _) ho
    · rw [filter_nonempty_cons ho, List.filter_nil]
      dsimp only
      rw [unescape_mangled hsource]
      dsimp only
      have hsok := sourceOk_iff hc (m := m) htype
      have hino : ascii "serverino" ∈ m.options.filter (· ≠ []) ↔
          ascii "serverino" ∈ m.options := by
        rw [List.mem_filter]
        exact and_iff_left (by decide)
      split
      next hok =>
        rw [optionsVersion_iff, hopts, versions_filter, hino]
        constructor
        · rintro ⟨hv, hi, ha⟩
          exact ⟨hsok.mp hok, hi, hv, ha⟩
        · rintro ⟨-, hi, hv, ha⟩
          exact ⟨hv, hi, ha⟩
      next hok => exact iff_of_false (by rintro ⟨⟩) fun h => hok (hsok.mpr h.source)

/-- **One line of the kernel**: it is counted if its mount point is the storage. -/
lemma mountLine_spec {c : Context} (hc : c.Short) {m : Mount} {line : Bytes} (h : Prints m line) :
    (m.point ≠ ascii "/storage" → mountLine c line = none) ∧
      (m.point = ascii "/storage" → ∃ r, mountLine c line = some r ∧ ∀ v,
        r = some v ↔ Expected c m v) := by
  obtain ⟨fields, type, source, hfields, htype, hsource, hne, htype_ne, rfl⟩ := h.printed
  have hblank : ∀ f ∈ fields, blank ∉ f := by
    intro f hf
    obtain ⟨g, -, hg⟩ := exists_right_of_forall₂ hfields hf
    exact hg.blank_notMem
  have hnil : fields ≠ [] := by
    rintro rfl
    cases hfields
  have hsep := separator_notInfix hnil hblank fun f hf => (hne f hf).2
  have hafter :=
    afterFirst_key hsep ([blank].intercalate [type, source, [comma].intercalate m.options])
  have hbefore :=
    beforeFirst_key hsep ([blank].intercalate [type, source, [comma].intercalate m.options])
  have hwords : strtok blank ([blank].intercalate fields) = fields :=
    strtok_fields hblank fun f hf => (hne f hf).1
  unfold mountLine
  rw [show mountSeparator = [blank, dash] ++ [blank] from rfl, hafter, hbefore]
  dsimp only
  rw [hwords]
  unfold Mount.fields at hfields
  rcases hfields with _ | ⟨-, hfields⟩
  rcases hfields with _ | ⟨-, hfields⟩
  rcases hfields with _ | ⟨-, hfields⟩
  rcases hfields with _ | ⟨hroot, hfields⟩
  rcases hfields with _ | ⟨hpoint, hfields⟩
  rcases hfields with _ | ⟨-, hfields⟩
  dsimp only
  rw [unescape_mangled hroot, unescape_mangled hpoint]
  dsimp only
  constructor
  · intro hp
    exact if_neg hp
  · intro hp
    exact ⟨_, if_pos hp, fun v => mountTail_iff hc htype htype_ne hsource h.options⟩

/-! ### The text -/

lemma mountStep_matched (rs : List (Option Bytes)) (st : Mounts) :
    (rs.foldl mountStep st).matched = st.matched + rs.length := by
  induction rs generalizing st with
  | nil => rfl
  | cons r rs ih =>
    have hstep : (mountStep st r).matched = st.matched + 1 := by cases r <;> rfl
    rw [List.foldl_cons, ih, hstep, List.length_cons]
    omega

/-- The helper goes on if one line is counted, and it is good. -/
lemma rxParseMountinfo_eq_some {text : Bytes} {c : Context} {v : Bytes} :
    rxParseMountinfo text c = some v ↔
      (strtok newline text).filterMap (mountLine c) = [some v] := by
  unfold rxParseMountinfo
  dsimp only
  generalize (strtok newline text).filterMap (mountLine c) = rs
  constructor
  · intro h
    split at h
    next hst =>
      have hlen := mountStep_matched rs ⟨0, 0, []⟩
      rw [hst.1] at hlen
      dsimp only at hlen
      obtain ⟨r, rfl⟩ := List.length_eq_one_iff.mp (show rs.length = 1 by omega)
      cases r with
      | none => exact absurd hst.2 (by decide)
      | some canonical => rw [← h]; rfl
    next => cases h
  · rintro rfl
    rfl

/-- The lines that are counted, one for each mount on the storage. -/
lemma counted_lines {c : Context} (hc : c.Short) {mounts : List Mount} {lines : List Bytes}
    (h : List.Forall₂ Prints mounts lines) :
    List.Forall₂ (fun m r => ∀ v, r = some v ↔ Expected c m v)
      (mounts.filter (·.point = ascii "/storage"))
      (lines.filterMap (mountLine c)) := by
  induction h with
  | nil => exact .nil
  | @cons m line mounts lines hm _ ih =>
    obtain ⟨hskip, hcount⟩ := mountLine_spec hc hm
    by_cases hp : m.point = ascii "/storage"
    · obtain ⟨r, hr, hv⟩ := hcount hp
      have hfilter : (m :: mounts).filter (·.point = ascii "/storage") =
          m :: mounts.filter (·.point = ascii "/storage") :=
        List.filter_cons_of_pos (decide_eq_true hp)
      rw [hfilter, List.filterMap_cons_some hr]
      exact .cons hv ih
    · have hfilter : (m :: mounts).filter (·.point = ascii "/storage") =
        mounts.filter (·.point = ascii "/storage") :=
        List.filter_cons_of_neg (by simpa using hp)
      rw [hfilter, List.filterMap_cons_none (hskip hp)]
      exact ih

/-- **The mount of the storage**: `rx_parse_mountinfo` succeeds exactly when one mount is on
`/storage` and it is the one that the context asks for; its version is the actual one. -/
theorem rxParseMountinfo_iff {json : Json} {c : Context} (hc : rxLoadContext json = some c)
    {text : Bytes} {mounts : List Mount}
    (htext : List.Forall₂ Prints mounts ((text.splitOn newline).filter (· ≠ []))) (v : Bytes) :
    rxParseMountinfo text c = some v ↔ ∃ m, mounts.filter (·.point = ascii "/storage") = [m] ∧
      Expected c m v := by
  rw [rxParseMountinfo_eq_some]
  have hcounted := counted_lines (rxLoadContext_short hc) htext
  unfold strtok
  constructor
  · intro h
    rw [h] at hcounted
    generalize mounts.filter (·.point = ascii "/storage") = ms at hcounted
    obtain - | ⟨hm, htail⟩ := hcounted
    cases htail
    exact ⟨_, rfl, (hm v).mp rfl⟩
  · rintro ⟨m, hm, hv⟩
    rw [hm] at hcounted
    generalize List.filterMap (mountLine c) ((text.splitOn newline).filter (· ≠ [])) =
      rs at hcounted ⊢
    obtain - | ⟨hr, htail⟩ := hcounted
    cases htail
    rw [(hr v).mpr hv]

lemma mangled_of_plain {w : Bytes} (h : ∀ c ∈ w, PlainByte c) : Mangled w w := by
  induction w with
  | nil => exact .nil
  | cons c w ih =>
    exact .plain (h c List.mem_cons_self) (ih fun b hb => h b (List.mem_cons_of_mem c hb))

/-- A directory with a blank in its name, and the storage. -/
def exampleMounts : List Mount :=
  [⟨ascii "22", ascii "1", ascii "0:21", ascii "/", ascii "/mnt/a b", ascii "rw", [], ascii "tmpfs",
    ascii "tmpfs", [ascii "rw"]⟩,
    ⟨ascii "36", ascii "22", ascii "0:33", ascii "/", ascii "/storage", ascii "rw", [ascii "shared:7"], ascii "nfs4",
      ascii "10.0.0.1:/srv", [ascii "rw", ascii "vers=4.1"]⟩]

def exampleMountinfo : Bytes := ascii
  "22 1 0:21 / /mnt/a\\040b rw - tmpfs tmpfs rw\n36 22 0:33 / /storage rw shared:7 - nfs4 10.0.0.1:/srv rw,vers=4.1\n"

lemma exampleMountinfo_prints :
    List.Forall₂ Prints exampleMounts ((exampleMountinfo.splitOn newline).filter (· ≠ [])) := by
  have hplain : ∀ w : String, (ascii w).all (fun c => decide (c ∉ [0, newline, blank, backslash])) =
      true →
      Mangled (ascii w) (ascii w) := by
    intro w hw
    refine mangled_of_plain fun c hc => ?_
    have := List.all_eq_true.mp hw c hc
    show c ∉ [0, newline, blank, backslash]
    exact of_decide_eq_true this
  have hlines : (exampleMountinfo.splitOn newline).filter (· ≠ []) =
      [ascii "22 1 0:21 / /mnt/a\\040b rw - tmpfs tmpfs rw",
        ascii "36 22 0:33 / /storage rw shared:7 - nfs4 10.0.0.1:/srv rw,vers=4.1"] := by
            decide +kernel
  have hpoint : Mangled (ascii "/mnt/a\\040b") (ascii "/mnt/a b") := by
    have hblank : Mangled (octal blank ++ ascii "b") (blank :: ascii "b") :=
      .escaped (by unfold Special; decide +kernel) (hplain "b" rfl)
    refine .plain ?_ (.plain ?_ (.plain ?_ (.plain ?_ (.plain ?_ (.plain ?_ hblank))))) <;> (unfold PlainByte; decide)
  rw [hlines]
  refine .cons ⟨⟨[ascii "22", ascii "1", ascii "0:21", ascii "/", ascii "/mnt/a\\040b", ascii "rw"],
    ascii "tmpfs", ascii "tmpfs",
    ?_, hplain "tmpfs" rfl, hplain "tmpfs" rfl, by decide, by decide, by decide +kernel⟩,
      by decide⟩ (.cons
      ⟨⟨[ascii "36", ascii "22", ascii "0:33", ascii "/", ascii "/storage", ascii "rw",
        ascii "shared:7"], ascii "nfs4",
        ascii "10.0.0.1:/srv", ?_, hplain "nfs4" rfl, hplain "10.0.0.1:/srv" rfl, by decide, by
          decide, by decide +kernel⟩,
        by decide⟩ .nil)
  · exact .cons (hplain "22" rfl)
      (.cons (hplain "1" rfl) (.cons (hplain "0:21" rfl) (.cons (hplain "/" rfl)
      (.cons hpoint (.cons (hplain "rw" rfl) .nil)))))
  · exact .cons (hplain "36" rfl)
      (.cons (hplain "22" rfl) (.cons (hplain "0:33" rfl) (.cons (hplain "/" rfl)
      (.cons (hplain "/storage" rfl)
        (.cons (hplain "rw" rfl) (.cons (hplain "shared:7" rfl) .nil))))))

theorem rxParseMountinfo_nfs :
    rxParseMountinfo exampleMountinfo captureContext = some (ascii "4.1") ∧
    ∃ m, exampleMounts.filter (·.point = ascii "/storage") = [m] ∧
      Expected captureContext m (ascii "4.1") := by
  have hc : rxLoadContext captureJson = some captureContext := (Option.some_get _).symm
  have hrun : rxParseMountinfo exampleMountinfo captureContext =
      some (ascii "4.1") := by decide +kernel
  exact ⟨hrun, (rxParseMountinfo_iff hc exampleMountinfo_prints _).mp hrun⟩

end Pxeos.Storage
