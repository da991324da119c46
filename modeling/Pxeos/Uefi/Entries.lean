import Pxeos.Lib.Words

/-!
# The boot entries

`rootpxe_uefi_read_entries` and `rootpxe_uefi_path_key` of `uefi-boot.sh`: what is taken from the
text of `efibootmgr -v`. An entry is kept as one text with bars between its nine fields, and taken
apart again by whoever uses it.
-/

namespace Pxeos.Uefi

open Pxeos.Lib

/-! ### Device paths -/

def isXdigit (c : Char) : Bool := (hexDigit c).isSome

/-- What stands behind a beginning. -/
def dropStart (start s : Str) : Option Str :=
  if start.isPrefixOf s then some (s.drop start.length) else none

/-- `([^d]+)d`: what stands before the first `d`, if it is not empty, and what stands behind. -/
def upTo (d : Char) (s : Str) : Option (Str × Str) :=
  match s.takeWhile (· ≠ d), s.dropWhile (· ≠ d) with
  | [], _ => none
  | _, [] => none
  | w, _ :: rest => some (w, rest)

/-- `HD(number,kind,signature,start,size)`. -/
structure HdNode where
  number : Str
  kind : Str
  signature : Str
  start : Str
  size : Str
  deriving DecidableEq, Repr

/-- The pattern of a hard drive at the beginning of a text, with what stands behind it. -/
def hdHere (s : Str) : Option (HdNode × Str) := do
  let s ← dropStart "HD(".toList s
  let (number, s) ← upTo ',' s
  if number.all Char.isDigit then
    let (kind, s) ← (dropStart "GPT,".toList s).map (("GPT".toList, ·)) <|>
      (dropStart "MBR,".toList s).map (("MBR".toList, ·))
    let (signature, s) ← upTo ',' s
    let (start, s) ← upTo ',' s
    let (size, s) ← upTo ')' s
    some (⟨number, kind, signature, start, size⟩, s)
  else none

/-- The first hard drive in a device path. -/
def findHd : Str → Option (HdNode × Str)
  | [] => none
  | c :: s => hdHere (c :: s) <|> findHd s

/-- A signed number of 64 bits. -/
def int64 (n : ℕ) : ℤ := (BitVec.ofNat 64 n).toInt

/-- `^(0x[[:xdigit:]]+|[0-9]+)$`. -/
def isConstant (s : Str) : Bool :=
  isNumber s || ("0x".toList.isPrefixOf s && s.drop 2 != [] && (s.drop 2).all isXdigit)

/-- `$((text))` of such a text: with a zero in front it is octal, and then a greater digit is an
error. -/
def arithmetic (s : Str) : Option ℤ :=
  if "0x".toList.isPrefixOf s then
    some (int64 ((s.drop 2).foldl (fun n c => 16 * n + (hexDigit c).getD 0) 0))
  else
    match s with
    | '0' :: rest => (rest.mapM octalDigit).map fun ds => int64 (ds.foldl (fun n d => 8 * n + d) 0)
    | _ => some (int64 (Nat.ofDigitChars 10 s 0))

/-- `printf '%s'` of a number. -/
def decimalText (z : ℤ) : Str :=
  if z < 0 then '-' :: Nat.toDigits 10 z.natAbs else Nat.toDigits 10 z.natAbs

/-- `rootpxe_uefi_path_key`. -/
def pathKey (path : Str) : Str :=
  let path := (path.map Char.toLower).map fun c => if c = '/' then '\\' else c
  '\\' :: path.dropWhile (· = '\\')

/-- The path of the loader in what stands behind the hard drive. -/
def loaderPath (suffix : Str) : Str :=
  if "/file(".toList.isPrefixOf (suffix.map Char.toLower) then
    let path := suffix.drop 6
    if ')' ∈ path then path.takeWhile (· ≠ ')') else []
  else if "/".toList.isPrefixOf suffix ∨ "\\".toList.isPrefixOf suffix then suffix
  else []

/-- The signature of an MBR, eight digits long; nothing if it is not a number of 32 bits. -/
def mbrSignature (signature : Str) : Option Str := do
  let digits ← dropStart "0x".toList signature
  if digits ≠ [] ∧ digits.length ≤ 8 ∧ digits.all isXdigit = true then
    some ("0x".toList ++ digits.leftpad 8 '0') else none

/-! ### Entries -/

/-- The fields of an entry with bars between them. -/
def joinFields (fields : List Str) : Str := List.intercalate ['|'] fields

def yesNo (b : Bool) : Str := if b then "yes".toList else "no".toList

/-- An entry without a hard drive of which the numbers are known. -/
def classified (id : Str) (active : Bool) (classification : String) : Str :=
  joinFields [id, yesNo active, [], [], [], [], [], [], classification.toList]

def hasNode (nodes : List String) (devicePath : Str) : Bool :=
  nodes.any fun n => (afterFirst n.toList devicePath).isSome

/-- The entry of a device path; `some none` where there is none, and nothing if a number is no
number. -/
def entryOf (id : Str) (active : Bool) (devicePath : Str) : Option (Option Str) :=
  match findHd devicePath with
  | some (node, suffix) =>
    if isConstant node.start && isConstant node.size then
      let path := loaderPath suffix
      let path := if path = [] then path else pathKey path
      let signature := node.signature.map Char.toLower
      match if node.kind = "MBR".toList then mbrSignature signature else some signature with
      | none => some none
      | some signature => do
        let start ← arithmetic node.start
        let size ← arithmetic node.size
        some (some (joinFields [id, yesNo active, node.number, node.kind, signature, decimalText start, decimalText size, path,
          "local".toList]))
    else some none
  | none =>
    if hasNode ["MAC(", "IPv4(", "IPv6(", "Uri("] devicePath then
      some (some (classified id active "network"))
    else if hasNode ["HD(", "NVMe(", "Sata(", "Ata("] devicePath then
      some (some (classified id active "local"))
    else some (some (classified id active "other"))

/-! ### The text -/

/-- `uefi_entries`, `uefi_labels` with the last assignment first, and `uefi_order`. -/
structure Reading where
  entries : List Str
  labels : List (Str × Str)
  order : List Str
  deriving DecidableEq, Repr

def isUpperHex (c : Char) : Bool := c.isDigit || ('A' ≤ c && c ≤ 'F')

/-- `[0-9A-F]{4}`. -/
def isId (w : Str) : Bool := w.length == 4 && w.all isUpperHex

/-- The value of `BootOrder`. -/
def readOrder (text : Str) : Option (List Str) :=
  let order := (text.filter (! isSpace ·)).map Char.toUpper
  if order = [] then some [] else if (order.splitOn ',').all isId then
    some (order.splitOn ',') else none

/-- `^Boot([[:xdigit:]]{4})(\*)?[[:space:]]`: the number, and whether the star is there. -/
def bootHead (line : Str) : Option (Str × Bool) := do
  let rest ← dropStart "Boot".toList line
  let id := rest.take 4
  if id.length = 4 ∧ id.all isXdigit = true then
    match rest.drop 4 with
    | '*' :: c :: _ => if isSpace c then some (id.map Char.toUpper, true) else none
    | c :: _ => if isSpace c then some (id.map Char.toUpper, false) else none
    | [] => none
  else none

/-- The label in the line of an entry: what stands before the last tab, without what ends in its
first blank. -/
def labelOf (line : Str) : Str :=
  let label := ((line.reverse.dropWhile (· ≠ '\t')).drop 1).reverse
  if ' ' ∈ label then (label.dropWhile (· ≠ ' ')).drop 1 else label

/-- What stands behind the last tab. -/
def devicePathOf (line : Str) : Str := (line.reverse.takeWhile (· ≠ '\t')).reverse

/-- One line; with the reading comes the number of lines of the order. -/
def readLine (state : Reading × ℕ) (line : Str) : Option (Reading × ℕ) :=
  let (r, count) := state
  match dropStart "BootOrder:".toList line with
  | some text => (readOrder text).map fun order => ({ r with order := order }, count + 1)
  | none =>
    match bootHead line with
    | none => some (r, count)
    | some (id, active) =>
      if '\t' ∈ line then
        (entryOf id active (devicePathOf line)).map fun entry =>
          ({ r with
              entries := r.entries ++ entry.toList,
              labels := (id, labelOf line) :: r.labels }, count)
      else none

/-- `rootpxe_uefi_read_entries` of what `efibootmgr -v` prints. -/
def readEntries (text : Str) : Option Reading := do
  let (r, count) ← (records (captured text ++ ['\n'])).foldlM readLine (⟨[], [], []⟩, 0)
  if count ≤ 1 then some r else none

end Pxeos.Uefi
