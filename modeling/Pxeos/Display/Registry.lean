import Mathlib.Data.List.DropRight
import Pxeos.Lib.Shell

/-!
# The export of the registry

`windows-display-registry.sh`: the volumes of the drive letters, read line by line from an export of
the key `MountedDevices`.
-/

namespace Pxeos.Display

open Pxeos.Lib

/-! ### Texts -/

/-- `rootpxe_display_windows_reg_trim`. -/
def regTrim (value : Str) : Str := (value.dropWhile isSpace).rdropWhile isSpace

/-- `${value,,}`. -/
def lower (value : Str) : Str := value.map Char.toLower

/-- `rootpxe_display_windows_reg_unescape_name`. -/
def regUnescapeName : Str → Option Str
  | [] => some []
  | '\\' :: [] => none
  | '\\' :: escaped :: input =>
    if escaped = '\\' ∨ escaped = '"' then (regUnescapeName input).map (escaped :: ·) else none
  | character :: input => (regUnescapeName input).map (character :: ·)

def isXdigit (c : Char) : Bool := (hexDigit c).isSome

/-- `^([[:xdigit:]]{2},)+$`. -/
def bytesWithCommas : Str → Bool
  | a :: b :: ',' :: [] => isXdigit a && isXdigit b
  | a :: b :: ',' :: rest => isXdigit a && isXdigit b && bytesWithCommas rest
  | _ => false

/-- `^[[:xdigit:]]{2}(,[[:xdigit:]]{2})*$`. -/
def bytesBetweenCommas : Str → Bool
  | a :: b :: [] => isXdigit a && isXdigit b
  | a :: b :: ',' :: rest => isXdigit a && isXdigit b && bytesBetweenCommas rest
  | _ => false

/-- `rootpxe_display_windows_reg_hex_fragment`: the continuation, and the digits. -/
def regHexFragment (fragment : Str) : Option (Bool × Str) :=
  let fragment := fragment.filter fun c => !isSpace c
  let digits := fun fragment : Str => lower (fragment.filter (· ≠ ','))
  if fragment = [] then none
  else if fragment.getLast? = some '\\' then
    let fragment := fragment.dropLast
    if bytesWithCommas fragment then some (true, digits fragment) else none
  else if bytesBetweenCommas fragment then some (false, digits fragment)
  else none

/-- `^\[[^][]+\]$`: what stands between the brackets. -/
def sectionName (trimmed : Str) : Option Str :=
  match trimmed with
  | '[' :: rest =>
    match rest.getLast? with
    | some ']' =>
      let name := rest.dropLast
      if name ≠ [] ∧ '[' ∉ name ∧ ']' ∉ name then some name else none
    | _ => none
  | _ => none

/-- The last quote that an equals sign follows: what stands before it, and the value. -/
def lastQuoted : Str → Option (Str × Str)
  | [] => none
  | c :: s =>
    match lastQuoted s with
    | some (name, rhs) => some (c :: name, rhs)
    | none =>
      if c = '"' then
        match s.dropWhile isSpace with
        | '=' :: rhs => some ([], rhs.dropWhile isSpace)
        | _ => none
      else none

/-- `^\"(.*)\"[[:space:]]*=[[:space:]]*(.*)$`: the escaped name, and the value. -/
def splitValue (trimmed : Str) : Option (Str × Str) :=
  match trimmed with
  | '"' :: s => lastQuoted s
  | _ => none

/-- `^\\dosdevices\\([a-z]):$`, and the letter in upper case. -/
def driveLetter (lowerName : Str) : Option Char :=
  if "\\dosdevices\\".toList.isPrefixOf lowerName then
    match lowerName.drop "\\dosdevices\\".toList.length with
    | [letter, ':'] => if 'a' ≤ letter ∧ letter ≤ 'z' then some letter.toUpper else none
    | _ => none
  else none

/-! ### The loop -/

/-- The variables of `rootpxe_display_windows_parse_reg`. -/
structure Reader where
  headerSeen : Bool := false
  mountedSections : ℕ := 0
  inMounted : Bool := false
  pending : Option (Char × Str) := none
  volumeByDrive : List (Char × Str) := []

def headers : List Str := ["regedit4".toList, "windows registry editor version 5.00".toList]

def mountedName : Str := "hkey_local_machine\\system\\mounteddevices".toList

/-- A fragment behind the digits that have come: the value goes on, or its drive gets it. -/
def Reader.fragment (s : Reader) (drive : Char) (hex : Str) (text : Str) : Option Reader :=
  match regHexFragment text with
  | none => none
  | some (continuation, compact) =>
    if continuation then some { s with pending := some (drive, hex ++ compact) }
    else if s.volumeByDrive.any (·.1 == drive) then none
    else some { s with
        volumeByDrive := s.volumeByDrive ++ [(drive, hex ++ compact)], pending := none }

/-- A value of the key; nothing happens with those of no drive. -/
def Reader.value (s : Reader) (trimmed : Str) : Option Reader :=
  match splitValue trimmed with
  | none => some s
  | some (nameEscaped, rhs) =>
    match regUnescapeName nameEscaped with
    | none => none
    | some name =>
      match driveLetter (lower name) with
      | none => some s
      | some drive =>
        if "hex:".toList.isPrefixOf (lower rhs) then
          s.fragment drive [] ((rhs.dropWhile (· ≠ ':')).drop 1) else none

/-- One line, without its end and the blanks around it. -/
def Reader.line (s : Reader) (trimmed : Str) : Option Reader :=
  if s.headerSeen = false then
    if trimmed = [] then some s
    else if lower trimmed ∈ headers then some { s with headerSeen := true }
    else none
  else
    match s.pending with
    | some (drive, hex) => s.fragment drive hex trimmed
    | none =>
      match sectionName trimmed with
      | some name =>
        if lower name = mountedName then
          if s.mountedSections + 1 = 1 then
            some { s with mountedSections := s.mountedSections + 1, inMounted := true } else none
        else some { s with inMounted := false }
      | none => if s.inMounted then s.value trimmed else some s

/-- The lines that `read` gives, trimmed. -/
def trimmedLines (file : Str) : List Str :=
  (records (file.filter (· ≠ '\x00'))).map fun line => regTrim (stripCr line)

/-- `{A..Z}`. -/
def letters : List Char := "ABCDEFGHIJKLMNOPQRSTUVWXYZ".toList

/-- What is printed of a drive. -/
def volumeText (entry : Char × Str) : Str :=
  "\x7b\"driveLetter\":\"".toList ++
    entry.1 :: (":\",\"volumeId\":\"".toList ++ (entry.2 ++ "\"\x7d".toList))

/-- The drives in the order of their letters. -/
def inOrder (volumes : List (Char × Str)) : List (Char × Str) :=
  letters.filterMap fun letter => volumes.find? (·.1 == letter)

def printVolumes (volumes : List (Char × Str)) : Str :=
  '[' :: (List.intercalate [','] ((inOrder volumes).map volumeText) ++ "]\n".toList)

/-- `rootpxe_display_windows_parse_reg`, on the bytes of the export. -/
def parseReg (file : Str) : Option Str := do
  let s ← (trimmedLines file).foldlM Reader.line {}
  if s.headerSeen = true ∧ s.mountedSections = 1 ∧ s.pending = none then
    some (printVolumes s.volumeByDrive) else none

end Pxeos.Display
