import Pxeos.Lib.AwkNumber
import Pxeos.Linux.Files

/-!
# The rendering of the hosts

`rootpxe_lh_render_hosts` of `linux-hostname.sh`, whose text for `awk` goes through the lines of
`/etc/hosts` one by one: what is behind a `#` is left alone, and on the lines of the loopback
network the old name is replaced behind the first column.
-/

namespace Pxeos.Linux

open Pxeos.Lib

/-! ### The parts of a line -/

/-- What stands before the first `#`, and the rest. -/
def hostsPrefix (line : Str) : Str := line.takeWhile (· ≠ '#')

def hostsComment (line : Str) : Str := line.dropWhile (· ≠ '#')

/-- `split` at the pattern of one or more blanks: `inside` says that a field is being read. -/
def splitBlanksFrom : Bool → Str → Str → List Str
  | _, field, [] => [field]
  | true, field, c :: s =>
    if isSpace c then field :: splitBlanksFrom false [] s else splitBlanksFrom true (field ++ [c]) s
  | false, field, c :: s =>
    if isSpace c then splitBlanksFrom false field s else splitBlanksFrom true [c] s

/-- `split(data, fields, /[[:space:]]+/)`, behind the blanks at the beginning. -/
def hostsFields (text : Str) : List Str :=
  let data := text.dropWhile isSpace
  if data = [] then [] else splitBlanksFrom true [] data

/-- `loopback`. -/
def isLoopback (ip : Str) : Bool :=
  ip == "::1".toList ||
    match ip.splitOn '.' with
    | [a, b, c, d] => a == "127".toList && [a, b, c, d].all fun part =>
        isNumber part && decide (part.length ≤ 3) && decide (Nat.ofDigitChars 10 part 0 ≤ 255)
    | _ => false

/-! ### One line -/

/-- `tolower(token) == "localhost"`, or the one with the domain. -/
def isLocalhost (token : Str) : Bool :=
  token.map Char.toLower == "localhost".toList ||
    token.map Char.toLower == "localhost.localdomain".toList

/-- The variables of `render`. -/
structure Rendering where
  out : Str
  token : Str
  column : ℕ
  found : Bool

variable (old name : Str)

/-- `out=out token_value(token)`. -/
def tokenValue (self already : Bool) (r : Rendering) : Rendering :=
  let column := r.column + 1
  if column = 1 then { r with out := r.out ++ r.token, column := column }
  else
    let found := r.found || (self && r.token == name)
    if self && !already && old != [] && r.token == old && !isLocalhost r.token then
      { r with out := r.out ++ name, column := column, found := true }
    else { r with out := r.out ++ r.token, column := column, found := found }

/-- The body of the loop of `render`. -/
def renderChar (self already : Bool) (r : Rendering) (ch : Char) : Rendering :=
  if isSpace ch then
    let r := if r.token = [] then r else { tokenValue old name self already r with token := [] }
    { r with out := r.out ++ [ch] }
  else { r with token := r.token ++ [ch] }

/-- `render`. -/
def renderPrefix (self already found : Bool) (text : Str) : Rendering :=
  let r := text.foldl (renderChar old name self already) ⟨[], [], 0, found⟩
  if r.token = [] then r else tokenValue old name self already r

/-- The rule for a record: what is printed of the line, and `found`. -/
def renderLine (found : Bool) (line : Str) : Str × Bool :=
  let fields := hostsFields (hostsPrefix line)
  let self := isLoopback (fields.headD [])
  let already := self && fields.tail.any (awkEqual · name)
  let r := renderPrefix old name self already (found || already) (hostsPrefix line)
  (r.out ++ hostsComment line, r.found)

/-! ### The file -/

/-- The rules on all records. -/
def renderLines (lines : List Str) : List Str × Bool :=
  lines.foldl (fun (out, found) line =>
    let (text, found) := renderLine old name found line
    (out ++ [text], found)) ([], false)

/-- `tail -c 1` is a newline. -/
def trailingNewline (content : Str) : Bool := content.getLast? == some '\n'

/-- `rootpxe_lh_render_hosts`, on the bytes of `/etc/hosts`. -/
def renderHosts (content : Option Str) : Str :=
  match content with
  | none => "127.0.0.1 localhost\n127.0.1.1 ".toList ++ name ++ ['\n']
  | some content =>
    let old := unescape old
    let name := unescape name
    let (lines, found) := renderLines old name (records content)
    let trailing := trailingNewline content
    List.intercalate ['\n'] lines ++ (if trailing then ['\n'] else []) ++
      if found then []
      else (if records content ≠ [] ∧ trailing = false then ['\n'] else []) ++
        ("127.0.1.1 ".toList ++ name ++ ['\n'])

end Pxeos.Linux
