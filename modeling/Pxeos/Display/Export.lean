import Pxeos.Display.Parsed

/-!
# Exports of the registry

The text of an export with its keys and values, and what the reader finds on each of its lines.
-/

namespace Pxeos.Display

open Pxeos.Lib

/-! ### Bytes -/

/-- A byte, as it stands in the text. -/
structure HexByte where
  high : Char
  low : Char
  high_isXdigit : isXdigit high = true
  low_isXdigit : isXdigit low = true

def HexByte.digits (b : HexByte) : Str := [b.high, b.low]

def HexByte.value (b : HexByte) : UInt8 :=
  UInt8.ofNat (16 * (hexDigit b.high).getD 0 + (hexDigit b.low).getD 0)

/-- Bytes in lower-case digits. -/
def hexText (bytes : List UInt8) : Str :=
  bytes.flatMap fun byte => [Nat.digitChar (byte.toNat / 16), Nat.digitChar (byte.toNat % 16)]

/-- Some bytes on a line, when others follow on the next one. -/
def openText (piece : List HexByte) : Str := piece.flatMap (fun b => b.digits ++ [',']) ++ ['\\']

def closeText (piece : List HexByte) : Str := List.intercalate [','] (piece.map HexByte.digits)

/-- The lines of a list of bytes. -/
def pieceLines : List (List HexByte) → List Str
  | [] => [[]]
  | [piece] => [closeText piece]
  | piece :: next :: pieces => openText piece :: pieceLines (next :: pieces)

/-! ### Values and keys -/

/-- A text on one line. -/
def Single (s : Str) : Prop := '\n' ∉ s ∧ '\x00' ∉ s

instance (s : Str) : Decidable (Single s) := inferInstanceAs (Decidable (_ ∧ _))

def escape (s : Str) : Str := s.flatMap fun c => if c = '\\' ∨ c = '"' then ['\\', c] else [c]

inductive Data where
  | bytes (tag : Str) (pieces : List (List HexByte)) (single : Single tag) (quote : '"' ∉ tag)
  | text (content : Str) (single : Single content)

/-- What stands behind the equals sign. -/
def Data.first : Data → Str
  | .bytes tag pieces _ _ => tag ++ ':' :: (pieceLines pieces).headD []
  | .text content _ => '"' :: (escape content ++ ['"'])

/-- The other lines of a value. -/
def Data.more : Data → List Str
  | .bytes _ pieces _ _ => (pieceLines pieces).tail
  | .text _ _ => []

/-- A value; the default value of a key has no name. -/
structure Value where
  name : Option Str
  data : Data
  single : ∀ n ∈ name, Single n

def Value.nameText (v : Value) : Str :=
  match v.name with
  | none => ['@']
  | some name => '"' :: (escape name ++ ['"'])

def Value.firstLine (v : Value) : Str := v.nameText ++ '=' :: v.data.first

def Value.lines (v : Value) : List Str := v.firstLine :: v.data.more

/-- The drive whose name the value has. -/
def Value.drive (v : Value) : Option Char := v.name.bind fun name => driveLetter (lower name)

/-- The volume of a drive. -/
def Value.volume (v : Value) : Option (Char × List UInt8) :=
  match v.data with
  | .bytes _ pieces _ _ => v.drive.map fun drive => (drive, pieces.flatten.map HexByte.value)
  | .text _ _ => none

/-- A list of bytes, with one on each line. -/
def Value.IsVolume (v : Value) : Prop :=
  ∃ tag pieces single quote, v.data = .bytes tag pieces single quote ∧
    lower tag = "hex".toList ∧ pieces ≠ [] ∧
    ∀ piece ∈ pieces, piece ≠ []

/-- A key with its values, and the empty lines among them. -/
structure Key where
  name : Str
  items : List (Option Value)
  single : Single name

def Key.header (k : Key) : Str := '[' :: (k.name ++ [']'])

def Key.values (k : Key) : List Value := k.items.filterMap id

def itemLines : Option Value → List Str
  | none => [[]]
  | some v => v.lines

def Key.body (k : Key) : List Str := k.items.flatMap itemLines

def Key.lines (k : Key) : List Str := k.header :: k.body

/-- An export with one key `MountedDevices`, in which the values of drives are lists of bytes. -/
structure Export where
  leading : ℕ
  header : Str
  trailing : ℕ
  before : List Key
  mounted : Key
  after : List Key
  header_mem : lower header ∈ headers
  mounted_name : lower mounted.name = mountedName
  others : ∀ k ∈ before ++ after, lower k.name ≠ mountedName
  drives : ∀ v ∈ mounted.values, v.drive ≠ none → v.IsVolume
  nodup : (mounted.values.filterMap Value.drive).Nodup

/-- The map of an export. -/
def Export.volumes (e : Export) : List (Char × List UInt8) :=
  e.mounted.values.filterMap Value.volume

/-- The lines, without the blanks around them. -/
def Export.contents (e : Export) : List Str :=
  List.replicate e.leading [] ++ e.header ::
    (List.replicate e.trailing [] ++ (e.before.flatMap Key.lines ++
    (e.mounted.lines ++ e.after.flatMap Key.lines)))

/-- A text with these lines, of which each may be indented and may have a carriage return at its
end. -/
def Renders (contents : List Str) (text : Str) : Prop :=
  ∃ lines : List Str, text = unlines lines ∧
    List.Forall₂ (fun line content => ∃ indent ending : Str, Single indent ∧ Single ending ∧
    Blank indent ∧ Blank ending ∧ line = indent ++ (content ++ ending)) lines contents

/-- What is to be printed. -/
def Export.printed (e : Export) : Str := printVolumes (e.volumes.map fun v => (v.1, hexText v.2))

/-! ### What is read back -/

/-- A text that begins with an equals sign. -/
def Opens (s : Str) : Prop := ∃ before rest, s = before ++ '=' :: rest ∧ Blank before

/-- A quoted text in which an equals sign follows a quote. -/
def Value.Breaks (v : Value) : Prop :=
  v.name ≠ none ∧ ∃ content single, v.data = .text content single ∧ HasQuoted content

/-- A value that is taken for that of a drive. -/
def Value.Strays (v : Value) : Prop :=
  v.drive ≠ none ∧ ∀ content single, v.data = .text content single → ¬ Opens content

/-- A key whose header is not seen. -/
def Key.Unseen (k : Key) : Prop := k.name = [] ∨ '[' ∈ k.name ∨ ']' ∈ k.name

instance (k : Key) : Decidable k.Unseen := inferInstanceAs (Decidable (_ ∨ _ ∨ _))

/-- The keys whose values are read as values of `MountedDevices`. -/
def Export.unseen (e : Export) : List Key := e.after.takeWhile fun k => k.Unseen

/-- No text has a quote with an equals sign behind it, and the values behind the section are none of
drives. -/
structure Export.Readable (e : Export) : Prop where
  breaks : ∀ v ∈ e.mounted.values ++ e.unseen.flatMap Key.values, ¬ v.Breaks
  strays : ∀ v ∈ e.unseen.flatMap Key.values, ¬ v.Strays

/-! ### Digits -/

section Digits

lemma digit_spec {c : Char} (h : isXdigit c = true) :
    ∃ n, hexDigit c = some n ∧ n < 16 ∧ c.toLower = Nat.digitChar n ∧ isSpace c = false ∧
      c ∉ [',', '\\', '"', '[', '\n', '\x00'] := by
  have hall : ∀ c ∈ "0123456789abcdefABCDEF".toList, ∃ n < 16, hexDigit c = some n ∧
      c.toLower = Nat.digitChar n ∧ isSpace c = false ∧
      c ∉ [',', '\\', '"', '[', '\n', '\x00'] := forall_mem_of_all (by decide +kernel)
  have hdigits : ∀ n : Fin 10, Char.ofNat (48 + n) ∈ "0123456789abcdefABCDEF".toList := by
    decide +kernel
  have hlower : ∀ n : Fin 6, Char.ofNat (97 + n) ∈ "0123456789abcdefABCDEF".toList := by
    decide +kernel
  have hupper : ∀ n : Fin 6, Char.ofNat (65 + n) ∈ "0123456789abcdefABCDEF".toList := by
    decide +kernel
  have hmem : c ∈ "0123456789abcdefABCDEF".toList := by
    unfold isXdigit hexDigit at h
    split at h
    · rename_i hle
      have h48 : 48 ≤ c.toNat := hle.1
      have h57 : c.toNat ≤ 57 := hle.2
      have := hdigits ⟨c.toNat - 48, by omega⟩
      dsimp only at this
      rwa [show 48 + (c.toNat - 48) = c.toNat by omega, Char.ofNat_toNat] at this
    · split at h
      · rename_i hle
        have h97 : 97 ≤ c.toNat := hle.1
        have h102 : c.toNat ≤ 102 := hle.2
        have := hlower ⟨c.toNat - 97, by omega⟩
        dsimp only at this
        rwa [show 97 + (c.toNat - 97) = c.toNat by omega, Char.ofNat_toNat] at this
      · split at h
        · rename_i hle
          have h65 : 65 ≤ c.toNat := hle.1
          have h70 : c.toNat ≤ 70 := hle.2
          have := hupper ⟨c.toNat - 65, by omega⟩
          dsimp only at this
          rwa [show 65 + (c.toNat - 65) = c.toNat by omega, Char.ofNat_toNat] at this
        · cases h
  obtain ⟨n, hn, hrest⟩ := hall c hmem
  exact ⟨n, hrest.1, hn, hrest.2⟩

/-- The digits of a byte, in lower case. -/
lemma lower_digits (b : HexByte) :
    lower b.digits = [Nat.digitChar (b.value.toNat / 16), Nat.digitChar (b.value.toNat % 16)] := by
  obtain ⟨n, hn, hn16, hhigh, -⟩ := digit_spec b.high_isXdigit
  obtain ⟨m, hm, hm16, hlow, -⟩ := digit_spec b.low_isXdigit
  have hvalue : b.value.toNat = 16 * n + m := by
    unfold HexByte.value
    rw [hn, hm, Option.getD_some, Option.getD_some, UInt8.toNat_ofNat']
    exact Nat.mod_eq_of_lt (by omega)
  rw [hvalue, show (16 * n + m) / 16 = n by omega, show (16 * n + m) % 16 = m by omega,
    ← hhigh, ← hlow]
  rfl

lemma mem_digits {b : HexByte} {c : Char} (h : c ∈ b.digits) : isXdigit c = true := by
  rcases List.mem_pair.mp h with rfl | rfl
  · exact b.high_isXdigit
  · exact b.low_isXdigit

lemma mem_openText {piece : List HexByte} {c : Char} (h : c ∈ openText piece) :
    isXdigit c = true ∨ c = ',' ∨ c = '\\' := by
  rcases List.mem_append.mp h with h | h
  · obtain ⟨b, -, hb⟩ := List.mem_flatMap.mp h
    rcases List.mem_append.mp hb with hb | hb
    · exact .inl (mem_digits hb)
    · exact .inr (.inl (List.mem_singleton.mp hb))
  · exact .inr (.inr (List.mem_singleton.mp h))

lemma closeText_cons (b b' : HexByte) (piece : List HexByte) :
    closeText (b :: b' :: piece) = b.digits ++ ',' :: closeText (b' :: piece) := by
  unfold closeText
  rw [List.map_cons, List.map_cons, List.intercalate_cons_cons]
  simp

lemma closeText_single (b : HexByte) : closeText [b] = b.digits := by
  simp [closeText]

lemma mem_closeText {piece : List HexByte} {c : Char} (h : c ∈ closeText piece) :
    isXdigit c = true ∨ c = ',' := by
  induction piece with
  | nil => exact absurd h List.not_mem_nil
  | cons b piece ih =>
    cases piece with
    | nil =>
      rw [closeText_single] at h
      exact .inl (mem_digits h)
    | cons b' piece =>
      rw [closeText_cons] at h
      rcases List.mem_append.mp h with h | h
      · exact .inl (mem_digits h)
      · rcases List.mem_cons.mp h with rfl | h
        · exact .inr rfl
        · exact ih h

lemma filter_isSpace {s : Str} (h : ∀ c ∈ s, isXdigit c = true ∨ c = ',' ∨ c = '\\') :
    s.filter (fun c => !isSpace c) = s := by
  refine List.filter_eq_self.mpr fun c hc => ?_
  rcases h c hc with hx | rfl | rfl
  · obtain ⟨-, -, -, -, hspace, -⟩ := digit_spec hx
    rw [hspace]
    rfl
  · rfl
  · rfl

lemma filter_digits (b : HexByte) : b.digits.filter (· ≠ ',') = b.digits := by
  refine List.filter_eq_self.mpr fun c hc => decide_eq_true ?_
  rintro rfl
  have := mem_digits hc
  revert this
  decide

/-- The lines of the bytes give their digits. -/
lemma fragment_openText {piece : List HexByte} (h : piece ≠ []) :
    regHexFragment (openText piece) = some (true, hexText (piece.map HexByte.value)) := by
  have hbytes : bytesWithCommas (piece.flatMap fun b => b.digits ++ [',']) = true := by
    induction piece with
    | nil => exact absurd rfl h
    | cons b piece ih =>
      have hb : (isXdigit b.high && isXdigit b.low) = true := by
        rw [b.high_isXdigit, b.low_isXdigit]; rfl
      cases piece with
      | nil => exact hb
      | cons b' piece =>
        have htail := ih (List.cons_ne_nil _ _)
        show bytesWithCommas
          (b.high :: b.low :: ',' :: ((b' :: piece).flatMap fun b => b.digits ++ [','])) = true
        rw [bytesWithCommas, hb, htail]
        · rfl
        · intro hnil
          cases hnil
  have hdigits : lower ((piece.flatMap fun b => b.digits ++ [',']).filter (· ≠ ',')) =
      hexText (piece.map HexByte.value) := by
    clear h hbytes
    induction piece with
    | nil => rfl
    | cons b piece ih =>
      rw [List.flatMap_cons, List.filter_append, List.filter_append, filter_digits,
        show [','].filter (· ≠ ',') = [] from rfl,
        List.append_nil, lower, List.map_append]
      rw [lower] at ih
      rw [ih, ← lower, lower_digits]
      rfl
  unfold regHexFragment
  dsimp only
  rw [filter_isSpace fun c hc => mem_openText hc, if_neg (by simp [openText]),
    if_pos (by simp [openText]),
    show (openText piece).dropLast = piece.flatMap fun b =>
      b.digits ++ [','] from List.dropLast_concat, if_pos hbytes, hdigits]

lemma fragment_closeText {piece : List HexByte} (h : piece ≠ []) :
    regHexFragment (closeText piece) = some (false, hexText (piece.map HexByte.value)) := by
  have hbytes : bytesBetweenCommas (closeText piece) = true := by
    induction piece with
    | nil => exact absurd rfl h
    | cons b piece ih =>
      have hb : (isXdigit b.high && isXdigit b.low) = true := by
        rw [b.high_isXdigit, b.low_isXdigit]; rfl
      cases piece with
      | nil =>
        rw [closeText_single]
        exact hb
      | cons b' piece =>
        rw [closeText_cons]
        show bytesBetweenCommas (b.high :: b.low :: ',' :: closeText (b' :: piece)) = true
        rw [bytesBetweenCommas, hb, ih (List.cons_ne_nil _ _)]
        rfl
  have hdigits : lower ((closeText piece).filter (· ≠ ',')) =
      hexText (piece.map HexByte.value) := by
    clear h hbytes
    induction piece with
    | nil => rfl
    | cons b piece ih =>
      cases piece with
      | nil =>
        rw [closeText_single, filter_digits, lower_digits]
        rfl
      | cons b' piece =>
        rw [closeText_cons, List.filter_append, filter_digits, List.filter_cons_of_neg (by decide),
          lower, List.map_append]
        rw [lower] at ih
        rw [ih, ← lower, lower_digits]
        rfl
  have hne : closeText piece ≠ [] := by
    intro hnil
    rw [hnil] at hbytes
    cases hbytes
  unfold regHexFragment
  dsimp only
  rw [filter_isSpace fun c hc => (mem_closeText hc).imp_right .inl, if_neg hne, if_neg,
    if_pos hbytes, hdigits]
  intro hlast
  rcases mem_closeText (List.mem_of_getLast? hlast) with hx | hx <;> revert hx <;> decide

lemma HexOpen.cons {p h' : Str} (hp : regHexFragment p = some (true, h')) {ps : List Str} {h : Str}
    (hps : HexOpen ps h) :
    HexOpen (p :: ps) (h' ++ h) := by
  induction hps with
  | one hq => exact .more (.one hp) hq
  | more _ hq ih =>
    rw [← List.append_assoc]
    exact .more ih hq

lemma HexData.cons {p h' : Str} (hp : regHexFragment p = some (true, h')) {ps : List Str} {h : Str}
    (hps : HexData ps h) :
    HexData (p :: ps) (h' ++ h) := by
  cases hps with
  | one hq => exact .more (.one hp) hq
  | more hopen hq =>
    rw [← List.append_assoc]
    exact .more (hopen.cons hp) hq

lemma hexData_pieceLines {pieces : List (List HexByte)} (hne : pieces ≠ [])
    (h : ∀ piece ∈ pieces, piece ≠ []) :
    HexData (pieceLines pieces) (hexText (pieces.flatten.map HexByte.value)) := by
  induction pieces with
  | nil => exact absurd rfl hne
  | cons piece pieces ih =>
    have hpiece := h piece List.mem_cons_self
    cases pieces with
    | nil =>
      rw [List.flatten_cons, List.flatten_nil, List.append_nil]
      exact .one (fragment_closeText hpiece)
    | cons next pieces =>
      rw [List.flatten_cons, List.map_append, hexText, List.flatMap_append, ← hexText, ← hexText]
      exact (ih (List.cons_ne_nil _ _) fun p hp => h p (List.mem_cons_of_mem _ hp)).cons
        (fragment_openText hpiece)

lemma mem_pieceLines {pieces : List (List HexByte)} {line : Str} (h : line ∈ pieceLines pieces) :
    ∀ c ∈ line, isXdigit c = true ∨ c = ',' ∨ c = '\\' := by
  induction pieces using pieceLines.induct with
  | case1 =>
    rw [List.mem_singleton.mp h]
    exact fun c hc => absurd hc List.not_mem_nil
  | case2 piece =>
    rw [List.mem_singleton.mp h]
    exact fun c hc => (mem_closeText hc).imp_right .inl
  | case3 piece next pieces ih =>
    rcases List.mem_cons.mp h with rfl | h
    · exact fun c hc => mem_openText hc
    · exact ih h

end Digits

end Pxeos.Display
