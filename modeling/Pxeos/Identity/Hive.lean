import Pxeos.Storage.Context

/-!
# The host name in an offline registry

`rootpxe-offline-identities.c`: where the three values of the host name are in a SYSTEM hive, and
whether they have the name they should have.  Names are C strings as `hivex` returns them.
-/

namespace Pxeos.Identity

open Pxeos.Storage (Bytes ascii)

/-! ### Hives -/

/-- `hive_t_string`, `hive_t_dword`, and the number of any other type. -/
inductive HiveType where
  | string
  | dword
  | other (n : ℕ)
  deriving DecidableEq, Repr

/-- The type and the bytes of a value. -/
abbrev Data := HiveType × Bytes

/-- A value; `hivex` may fail to read its key or its data. -/
structure Value where
  key : Option Bytes
  data : Option Data
  deriving DecidableEq, Repr

/-- A key with its subkeys and its values; `hivex` may fail to read each of these. -/
inductive Node where
  | mk (name : Option Bytes) (children : Option (List Node)) (values : Option (List Value))

namespace Node

def name : Node → Option Bytes
  | mk n _ _ => n

def children : Node → Option (List Node)
  | mk _ c _ => c

def values : Node → Option (List Value)
  | mk _ _ v => v

end Node

/-- The file: whether it is regular, whether `hivex_open` takes it, and its root. -/
structure SystemFile where
  regular : Bool
  opens : Bool
  root : Option Node

/-! ### Names -/

def lower (c : UInt8) : UInt8 := if 65 ≤ c ∧ c ≤ 90 then c - 65 + 97 else c

/-- `ascii_case_equal`. -/
def asciiCaseEqual : Bytes → Bytes → Bool
  | a :: actual, e :: expected => lower a == lower e && asciiCaseEqual actual expected
  | [], [] => true
  | _, _ => false

/-- The loop of `hostname_child_ci` and `hostname_value_ci`: the only item with a name, and the name
as it is spelled. `name` is how the name of an item is read. -/
def uniqueCi {α : Type} (name : α → Option Bytes) (expected : Bytes) : Option (α × Bytes) → List α →
    Option (α × Bytes)
  | result, [] => result
  | result, x :: xs =>
    match name x with
    | none => none
    | some n =>
      if asciiCaseEqual n expected then
        match result with
        | some _ => none
        | none => uniqueCi name expected (some (x, n)) xs
      else uniqueCi name expected result xs

/-- `hostname_child_ci`. -/
def hostnameChildCi (parent : Node) (expected : Bytes) : Option (Node × Bytes) :=
  parent.children.bind (uniqueCi Node.name expected none)

/-- `hostname_value_ci`. -/
def hostnameValueCi (parent : Node) (expected : Bytes) : Option (Value × Bytes) :=
  parent.values.bind (uniqueCi Value.key expected none)

/-- `hostname_path_ci`. -/
def hostnamePathCi : Node → List Bytes → Option Node
  | start, [] => some start
  | start, part :: parts => do
    let (child, _) ← hostnameChildCi start part
    hostnamePathCi child parts

/-! ### Values -/

/-- The string of a registry, with its end. -/
def utf16 (hostname : Bytes) : Bytes := hostname.flatMap (fun c => [c, 0]) ++ [0, 0]

/-- The loop of `hostname_value_matches` over the characters, and what it compares after them. -/
def utf16Matches : Bytes → Bytes → Bool
  | [], data => data == [0, 0]
  | c :: hostname, low :: high :: data => low == c && high == 0 && utf16Matches hostname data
  | _, _ => false

/-- `hostname_value_matches`. -/
def hostnameValueMatches (node : Node) (key hostname : Bytes) : Bool :=
  match hostnameValueCi node key with
  | none => false
  | some (value, _) =>
    match value.data with
    | some (.string, data) => data.length == (hostname.length + 1) * 2 && utf16Matches hostname data
    | _ => false

/-- `le32`, as an unsigned number. -/
def le32 (data : Bytes) : ℕ := data.foldr (fun b n => b.toNat + 256 * n) 0

/-- `hostname_dword`. -/
def hostnameDword (node : Node) (key : Bytes) : Option ℕ :=
  match hostnameValueCi node key with
  | none => none
  | some (value, _) =>
    match value.data with
    | some (.dword, data) =>
      if data.length = 4 then (if le32 data = 0 ∨ 999 < le32 data then none else some (le32 data))
      else none
    | _ => none

/-! ### Control sets -/

def digit (n : ℕ) : UInt8 := 48 + (n % 10).toUInt8

/-- `%03u`. -/
def threeDigits (n : ℕ) : Bytes :=
  if n < 1000 then [digit (n / 100), digit (n / 10), digit n] else Pxeos.Storage.decimal n

/-- `ControlSet%03u` in a buffer of 16 bytes. -/
def controlSet (n : ℕ) : Option Bytes :=
  let control := ascii "ControlSet" ++ threeDigits n
  if control.length < 16 then some control else none

/-- The control sets that are there. -/
def controlSetsExist (root : Node) : List ℕ → Bool
  | [] => true
  | n :: ns =>
    match controlSet n with
    | none => false
    | some control => (hostnameChildCi root control).isSome && controlSetsExist root ns

/-- `selected_hostname_control_sets`. -/
def selectedHostnameControlSets (root : Node) : Option (List ℕ) := do
  let (select, _) ← hostnameChildCi root (ascii "Select")
  let current ← hostnameDword select (ascii "Current")
  let fallback ← hostnameDword select (ascii "Default")
  let selected := if fallback ≠ current then [current, fallback] else [current]
  if controlSetsExist root selected then some selected else none

/-- `valid_windows_hostname`. -/
def validWindowsHostname (hostname : Bytes) : Bool :=
  decide (hostname ≠ []) && decide (hostname.length ≤ 15) &&
  hostname.all (fun c => c == 45 || (65 ≤ c && c ≤ 90) || (97 ≤ c && c ≤ 122) ||
    (48 ≤ c && c ≤ 57)) &&
  !hostname.all fun c => 48 ≤ c && c ≤ 57

/-! ### The paths to write -/

def maxPaths : ℕ := 6
def pathSize : ℕ := 160

/-- A path for `reged`, if it fits the buffer. -/
def regedPath (names : List Bytes) : Option Bytes :=
  let path := names.flatMap fun n => 92 :: n
  if path.length < pathSize then some path else none

/-- The value is a `REG_SZ`. -/
def isString (value : Value) : Bool :=
  match value.data with
  | some (.string, _) => true
  | _ => false

/-- The names on the way to a value, as they are spelled, and the value. -/
def hostnameNames : Node → List Bytes → Bytes → Option (List Bytes × Value)
  | node, [], key => (hostnameValueCi node key).map fun v => ([v.2], v.1)
  | node, part :: parts, key => do
    let (child, name) ← hostnameChildCi node part
    let (names, value) ← hostnameNames child parts key
    some (name :: names, value)

/-- The path of a value that is a `REG_SZ`. -/
def stringPath (root : Node) (parts : List Bytes) (key : Bytes) : Option Bytes := do
  let (names, value) ← hostnameNames root parts key
  if isString value then regedPath names else none

/-- The keys below a control set, and the values, in the order of the paths. -/
def hostnameValues (control : Bytes) : List (List Bytes × Bytes) :=
  [([control, ascii "Services", ascii "Tcpip", ascii "Parameters"], ascii "NV Hostname"),
   ([control, ascii "Services", ascii "Tcpip", ascii "Parameters"], ascii "Hostname"),
   ([control, ascii "Control", ascii "ComputerName", ascii "ComputerName"], ascii "ComputerName")]

/-- The loop of `windows_hostname_write_paths`, after `written` paths. -/
def writeLoop (root : Node) : List Bytes → List ℕ → Option (List Bytes)
  | paths, [] => some paths
  | paths, n :: ns =>
    if maxPaths < paths.length + 3 then none
    else do
      let control ← controlSet n
      let new ← (hostnameValues control).mapM fun v => stringPath root v.1 v.2
      writeLoop root (paths ++ new) ns

/-- What a command prints, and whether it succeeds. -/
structure Outcome where
  printed : List Bytes
  ok : Bool
  deriving DecidableEq, Repr

/-- `windows_hostname_write_paths`. -/
def windowsHostnameWritePaths (system : SystemFile) : Outcome :=
  if !system.regular then ⟨[], false⟩
  else if !system.opens then ⟨[], false⟩
  else
    match system.root with
    | none => ⟨[], false⟩
    | some root =>
      match selectedHostnameControlSets root with
      | none => ⟨[], false⟩
      | some selected =>
        match writeLoop root [] selected with
        | none => ⟨[], false⟩
        | some paths => ⟨paths, true⟩

/-! ### Looking at the values -/

/-- The three values of a control set have the host name. -/
def hostnameVerified (set : Node) (hostname : Bytes) : Bool :=
  match hostnamePathCi set [ascii "Services", ascii "Tcpip", ascii "Parameters"],
    hostnamePathCi set [ascii "Control", ascii "ComputerName", ascii "ComputerName"] with
  | some tcp, some computer => hostnameValueMatches tcp (ascii "Hostname") hostname &&
      hostnameValueMatches tcp (ascii "NV Hostname") hostname &&
        hostnameValueMatches computer (ascii "ComputerName") hostname
  | _, _ => false

/-- The loop of `windows_hostname_inspect_or_verify`: the control sets are printed if there is no
host name. -/
def verifyLoop (root : Node) (hostname : Option Bytes) : List Bytes → List ℕ → Outcome
  | printed, [] => ⟨printed, true⟩
  | printed, n :: ns =>
    match controlSet n with
    | none => ⟨printed, false⟩
    | some control =>
      match hostnameChildCi root control with
      | none => ⟨printed, false⟩
      | some (set, _) =>
        match hostname with
        | none => verifyLoop root hostname (printed ++ [control]) ns
        | some h =>
          if hostnameVerified set h then verifyLoop root hostname printed ns else ⟨printed, false⟩

/-- `windows_hostname_inspect_or_verify`. -/
def windowsHostnameInspectOrVerify (system : SystemFile) (hostname : Option Bytes) : Outcome :=
  if !system.regular ||
    (match hostname with | some h => !validWindowsHostname h | none => false) then ⟨[], false⟩
  else if !system.opens then ⟨[], false⟩
  else
    match system.root with
    | none => ⟨[], false⟩
    | some root =>
      match selectedHostnameControlSets root with
      | none => ⟨[], false⟩
      | some selected => verifyLoop root hostname [] selected

/-! ### Writing -/

/-- A value is set: the one whose path has these names. -/
def Node.setValue (data : Data) : List Bytes → Node → Node
  | [], node => node
  | [key], node =>
    .mk node.name node.children (node.values.map fun vs => vs.map fun v =>
      if v.key = some key then { v with data := some data } else v)
  | part :: key :: rest, node =>
    .mk node.name (node.children.map fun cs => cs.map fun c =>
      if c.name = some part then c.setValue data (key :: rest) else c) node.values

/-- The names of a path; none of them has a backslash in it. -/
def pathNames (path : Bytes) : List Bytes := (path.splitOn 92).drop 1

/-- What `reged` does with a list of paths: each of the values is set, and nothing else is
changed. -/
def SystemFile.reged (system : SystemFile) (data : Data) (paths : List Bytes) : SystemFile :=
  { system with
    root := system.root.map fun root => paths.foldl (fun r p => r.setValue data (pathNames p)) root }

end Pxeos.Identity
