import Mathlib.Data.Nat.Notation
import Mathlib.Data.Int.Notation
import Mathlib.Data.List.Basic
import Mathlib.Algebra.GroupWithZero.Nat
import Mathlib.Algebra.Group.Int.Defs

/-!
# The context of the storage helper

The strings and numbers of the JSON objects that the helper is given, as `storage_context.c` reads
them, and the context it accepts.  Strings are byte strings; a string with a NUL byte in it is read
as absent.
-/

namespace Pxeos.Storage

abbrev Bytes := List UInt8

/-- The bytes of an ASCII text. -/
def ascii (s : String) : Bytes := s.toList.map fun c => c.toNat.toUInt8

/-- `%llu`. -/
def decimal (n : ℕ) : Bytes := (Nat.toDigits 10 n).map fun c => c.toNat.toUInt8

/-- A JSON value.  An object has every key once; `double` has the text of the number. -/
inductive Json where
  | null
  | bool (b : Bool)
  | int (n : ℤ)
  | double (text : Bytes)
  | string (s : Bytes)
  | array (items : List Json)
  | object (fields : List (Bytes × Json))

namespace Json

/-- `json_object_object_get_ex`. -/
def get (o : Json) (key : Bytes) : Option Json :=
  match o with
  | .object fields => (fields.find? fun f => f.1 == key).map Prod.snd
  | _ => none

/-- `json_object_object_add` of a key that the object does not have. -/
def add (o : Json) (key : String) (v : Json) : Json :=
  match o with
  | .object fields => .object (fields ++ [(ascii key, v)])
  | o => o

def isObject : Json → Bool
  | .object _ => true
  | _ => false

end Json

/-! ### Strings and numbers -/

/-- `rx_string`. -/
def rxString (o : Json) (key : String) (max : ℕ) : Option Bytes :=
  match o.get (ascii key) with
  | some (.string s) => if s.length ≤ max ∧ (0 : UInt8) ∉ s then some s else none
  | _ => none

/-- `rx_u64`. -/
def rxU64 (o : Json) (key : String) : Option ℕ :=
  match o.get (ascii key) with
  | some (.int n) => if 0 ≤ n ∧ n < 2 ^ 64 then some n.toNat else none
  | _ => none

def isDigit (c : UInt8) : Bool := 48 ≤ c && c ≤ 57

/-- The value of a run of digits. -/
def digitsValue (s : Bytes) : ℕ := s.foldl (fun n d => 10 * n + (d.toNat - 48)) 0

/-- `strtoull` of a text that is not empty and has only digits. -/
def strtoull (s : Bytes) : Option ℕ :=
  if s ≠ [] ∧ s.all isDigit then if digitsValue s < 2 ^ 64 then some (digitsValue s)
  else none else none

/-- `rx_sequence`. -/
def rxSequence (o : Json) : Option ℕ := do
  let s ← rxString o "sequence" 20
  if s.head? = some 48 then none else strtoull s

/-- `rx_hex`: a number of hexadecimal digits that are not all zero. -/
def rxHex (s : Bytes) (n : ℕ) : Bool :=
  s.length == n && s.all (fun c => isDigit c || (97 ≤ c && c ≤ 102)) && s.any (· != 48)

/-! ### Paths -/

def slash : UInt8 := 47
def colon : UInt8 := 58

/-- The bytes no component may have. -/
def unprintable (c : UInt8) : Bool := c < 32 || c == 127 || c == 92

/-- The loop of `rx_relative` over the components, after `atoms` of them. -/
def relativeLoop : ℕ → List Bytes → Bool
  | _, [] => true
  | atoms, p :: ps =>
    if p = [] ∨ 255 < p.length ∨ p = ascii "." ∨ p = ascii ".." ∨ 32 < atoms + 1 then false
    else if p.any unprintable then false
    else relativeLoop (atoms + 1) ps

/-- `rx_relative`. -/
def rxRelative (path : Bytes) (empty : Bool) : Bool :=
  if 4095 < path.length then false
  else if path = [] then empty
  else if path.head? = some slash ∨ path.getLast? = some slash then false
  else relativeLoop 0 (path.splitOn slash)

/-! ### The context -/

inductive Protocol where
  | nfs
  | smb
  deriving DecidableEq, Repr

/-- `struct storage_context`. -/
structure Context where
  owner : Json
  protocol : Protocol
  server : Bytes
  port : ℕ
  exportPath : Bytes
  imagePath : Bytes
  version : Bytes
  stage : Bytes
  lock : Bytes
  uid : ℕ
  gid : ℕ
  sequence : ℕ
  dataWrite : Bool

/-- `version_ok`. -/
def versionOk (p : Protocol) (v : Bytes) : Bool :=
  match p with
  | .nfs => ["auto", "3", "4.0", "4.1", "4.2"].any fun a => v == ascii a
  | .smb => ["auto", "2.1", "3.0", "3.0.2", "3.1.1"].any fun a => v == ascii a

/-- The bytes a server may not have. -/
def serverByte (c : UInt8) : Bool := c ≤ 32 || c == 127 || decide (c ∈ ascii "/,\\;|&$\x60")

/-- The port behind a server. -/
def portOf (text : Bytes) : Option ℕ := do
  let port ← strtoull text
  if port = 0 ∨ 65535 < port then none else some port

/-- The host and the port of a server; a port stands behind the bracket of an address, or behind the
only colon. -/
def serverPort (p : Protocol) (server : Bytes) : Option (Bytes × ℕ) :=
  let default := match p with
    | .nfs => 2049
    | .smb => 445
  if server.head? = some 91 then
    let host := server.takeWhile (· != 93)
    match server.dropWhile (· != 93) with
    | [] => none
    | close :: [] => some (host ++ [close], default)
    | close :: c :: text => if c = colon then (portOf text).map fun port =>
      (host ++ [close], port) else none
  else if server.count colon = 1 then
    (portOf ((server.dropWhile (· != colon)).drop 1)).map fun port =>
      (server.takeWhile (· != colon), port)
  else some (server, default)

/-- `snprintf` into a buffer. -/
def snprintf (size : ℕ) (text : Bytes) : Bytes := text.take (size - 1)

/-- The fields of `execution` that are checked: the task, its attempt and its target. -/
def execution (owner : Json) : Option (Bytes × ℕ × Bytes) := do
  let domain ← rxString owner "domainId" 32
  let kind ← rxString owner "taskType" 7
  let task ← rxString owner "taskId" 64
  let nonce ← rxString owner "nonce" 32
  let target ← rxString owner "targetKey" 64
  let revision ← rxString owner "configRevision" 64
  let attempt ← rxU64 owner "executionAttempt"
  if rxHex domain 32 ∧ (kind = ascii "capture" ∨ kind = ascii "deploy") ∧ task ≠ [] ∧
    rxRelative task false ∧
      slash ∉ task ∧ rxHex nonce 32 ∧ rxHex target 64 ∧ rxHex revision 64 ∧ attempt ≠ 0 then
    some (task, attempt, target)
  else none

/-- The numeric identity of an NFS client. -/
def identity (json : Json) (p : Protocol) (root : Bytes) : Option (ℕ × ℕ) :=
  match p with
  | .nfs => do
    let uid ← rxU64 json "nfsUid"
    let gid ← rxU64 json "nfsGid"
    if root.head? = some slash ∧ (root.tail = [] ∨ rxRelative root.tail false) ∧ uid ≤ 4294967294 ∧
      gid ≤ 4294967294 then
      some (uid, gid)
    else none
  | .smb => if rxRelative root false then some (0, 0) else none

def protocolOf (p : Bytes) : Option Protocol :=
  if p = ascii "nfs" then some .nfs else if p = ascii "smb" then some .smb else none

/-- The sequence number of a context, which may be `0`. -/
def initialSequence (json : Json) : Option ℕ :=
  if rxString json "sequence" 20 = some (ascii "0") then some 0 else rxSequence json

/-- `rx_load_context`, on the object that has been read. -/
def rxLoadContext (json : Json) : Option Context := do
  let v ← rxU64 json "version"
  let p ← rxString json "protocol" 3
  let server ← rxString json "server" 255
  let root ← rxString json "exportPath" 4095
  let image ← rxString json "imagePath" 4095
  let dir ← rxString json "direction" 5
  let protocol ← protocolOf p
  if v = 1 ∧ server ≠ [] ∧ root ≠ [] ∧ rxRelative image false ∧
    (dir = ascii "read" ∨ dir = ascii "write") ∧
      ¬ server.any serverByte then
    let (host, port) ← serverPort protocol server
    let sequence ← initialSequence json
    let owner ← json.get (ascii "execution")
    let (task, attempt, target) ← execution owner
    let version ← rxString json (match protocol with | .nfs => "nfsVersion" | .smb => "smbVersion")
      15
    let (uid, gid) ← identity json protocol root
    if owner.isObject ∧ versionOk protocol version then
      some { owner := owner
             protocol := protocol
             server := host
             port := port
             exportPath := root
             imagePath := image
             version := version
             stage := snprintf 256 (ascii "dev/" ++ task ++ slash :: decimal attempt)
             lock := snprintf 128 (ascii ".locks/" ++ target)
             uid := uid
             gid := gid
             sequence := sequence
             dataWrite := dir == ascii "write" }
    else none
  else none

/-! ### Strings -/

lemma rxString_some {o : Json} {key : String} {max : ℕ} {s : Bytes}
    (h : o.get (ascii key) = some (.string s)) (hlen : s.length ≤ max) (hz : (0 : UInt8) ∉ s) :
    rxString o key max = some s := by
  unfold rxString
  rw [h]
  exact if_pos ⟨hlen, hz⟩

lemma rxString_spec {o : Json} {key : String} {max : ℕ} {s : Bytes}
    (h : rxString o key max = some s) :
    s.length ≤ max ∧ (0 : UInt8) ∉ s := by
  unfold rxString at h
  split at h
  · split at h
    next hs =>
      obtain rfl := Option.some.inj h
      exact hs
    next => cases h
  · cases h

/-! ### Printed numbers -/

/-- A digit as a byte. -/
lemma digit_toNat {n : ℕ} {c : Char} (h : c ∈ Nat.toDigits 10 n) :
    c.toNat.toUInt8.toNat = c.toNat ∧ 48 ≤ c.toNat ∧ c.toNat ≤ 57 := by
  obtain ⟨h1, h2⟩ :=
    Char.isDigit_iff_toNat.mp (Nat.isDigit_of_mem_toDigits (by decide) (by decide) h)
  have h1 : 48 ≤ c.toNat := h1
  have h2 : c.toNat ≤ 57 := h2
  refine ⟨?_, h1, h2⟩
  rw [UInt8.toNat_ofNat']
  exact Nat.mod_eq_of_lt (by omega)

lemma mem_decimal {n : ℕ} {b : UInt8} (h : b ∈ decimal n) : 48 ≤ b.toNat ∧ b.toNat ≤ 57 := by
  obtain ⟨c, hc, rfl⟩ := List.mem_map.mp h
  obtain ⟨h1, h2⟩ := digit_toNat hc
  rw [h1]
  exact h2

lemma zero_notMem_decimal (n : ℕ) : (0 : UInt8) ∉ decimal n := by
  intro h
  have := mem_decimal h
  simp at this

lemma decimal_length {n : ℕ} (h : n < 2 ^ 64) : (decimal n).length ≤ 20 := by
  unfold decimal
  rw [List.length_map, Nat.length_toDigits_le_iff (by decide) (by decide)]
  omega

lemma digitsValue_decimal (n : ℕ) : digitsValue (decimal n) = n := by
  have h : Nat.ofDigitChars 10 (Nat.toDigits 10 n) 0 = n := Nat.ofDigitChars_ten_toDigits
  refine Eq.trans ?_ h
  unfold digitsValue decimal Nat.ofDigitChars
  rw [List.foldl_map]
  refine List.foldl_ext _ _ _ fun m c hc => ?_
  rw [(digit_toNat hc).1]
  rfl

end Pxeos.Storage
