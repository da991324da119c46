import Pxeos.Storage.Guarantees

/-!
# The server of an accepted context

A server is a name, an IPv4 address, an IPv6 address or an IPv6 address in brackets, and a port may
stand behind all but the third.  The host and the port that `rx_load_context` stores are those of
the string, unless the host is empty.
-/

namespace Pxeos.Storage

def bracket : UInt8 := 91
def closing : UInt8 := 93

def defaultPort : Protocol → ℕ
  | .nfs => 2049
  | .smb => 445

/-- A host in brackets. -/
def Bracketed (host : Bytes) : Prop :=
  ∃ inner, host = bracket :: (inner ++ [closing]) ∧ closing ∉ inner

/-- `host` stands before a port: it is in brackets, or has no colon of its own. -/
def BeforePort (host : Bytes) : Prop := Bracketed host ∨ host.head? ≠ some bracket ∧ colon ∉ host

/-- `text` is the port behind `host`. -/
def PortBehind (s host text : Bytes) : Prop :=
  s = host ++ colon :: text ∧ text ≠ [] ∧ text.all isDigit = true

/-- A server with a port. -/
def HasPort (s : Bytes) : Prop := ∃ host text, PortBehind s host text ∧ BeforePort host

/-- The host and the port of `c` are those of the server `s`. -/
structure ServerRead (s : Bytes) (c : Context) : Prop where
  host : c.server ≠ []
  cut : (¬ HasPort s ∧ c.server = s ∧ c.port = defaultPort c.protocol) ∨
    ∃ text, PortBehind s c.server text ∧ digitsValue text = c.port ∧ 1 ≤ c.port ∧ c.port ≤ 65535
  brackets : s.head? = some bracket → c.server.head? = some bracket ∧
    c.server.getLast? = some closing
  colons : s.head? ≠ some bracket → 2 ≤ s.count colon → c.server = s

/-! ### Ports -/

lemma strtoull_spec {s : Bytes} {n : ℕ} (h : strtoull s = some n) :
    s ≠ [] ∧ s.all isDigit = true ∧ digitsValue s = n := by
  unfold strtoull at h
  split at h
  next hs =>
    split at h
    · exact ⟨hs.1, hs.2, Option.some.inj h⟩
    · cases h
  next => cases h

lemma portOf_spec {text : Bytes} {port : ℕ} (h : portOf text = some port) :
    text ≠ [] ∧ text.all isDigit = true ∧ digitsValue text = port ∧ 1 ≤ port ∧ port ≤ 65535 := by
  unfold portOf at h
  obtain ⟨n, hn, h⟩ := Option.bind_eq_some_iff.mp h
  split at h
  next => cases h
  next hrange =>
    obtain rfl := Option.some.inj h
    obtain ⟨hne, hdigits, hvalue⟩ := strtoull_spec hn
    exact ⟨hne, hdigits, hvalue, by omega, by omega⟩

/-- A run of digits has no colon, and does not end in a bracket. -/
lemma notMem_of_digits {text : Bytes} (h : text.all isDigit = true) :
    colon ∉ text ∧ closing ∉ text := by
  rw [List.all_eq_true] at h
  constructor
  · intro hc
    exact absurd (h colon hc) (by decide)
  · intro hc
    exact absurd (h closing hc) (by decide)

/-- No port stands behind a closing bracket that ends the server. -/
lemma not_hasPort_of_closing {s : Bytes} (h : s.getLast? = some closing) : ¬ HasPort s := by
  rintro ⟨host, text, ⟨rfl, hne, hdigits⟩, -⟩
  have hlast : (host ++ colon :: text).getLast? = text.getLast? := by
    rw [List.getLast?_append_of_ne_nil _ (List.cons_ne_nil _ _), List.getLast?_cons_of_ne_nil hne]
  rw [hlast] at h
  exact (notMem_of_digits hdigits).2 (List.mem_of_getLast? h)

lemma count_of_portBehind {s host text : Bytes} (h : PortBehind s host text)
    (hhost : colon ∉ host) : s.count colon = 1 := by
  obtain ⟨rfl, -, hdigits⟩ := h
  rw [List.count_append, List.count_eq_zero_of_not_mem hhost, List.count_cons_self,
    List.count_eq_zero_of_not_mem (notMem_of_digits hdigits).1]

/-- A server outside brackets has a port if it has one colon only. -/
lemma not_hasPort_of_count {s : Bytes} (hs : s.head? ≠ some bracket) (hcount : s.count colon ≠ 1) :
    ¬ HasPort s := by
  rintro ⟨host, text, hport, hb⟩
  rcases hb with ⟨inner, rfl, -⟩ | ⟨-, hhost⟩
  · rw [hport.1] at hs
    exact hs rfl
  · exact hcount (count_of_portBehind hport hhost)

/-! ### Hosts -/

lemma takeWhile_ne_notMem (q : UInt8) (s : Bytes) : q ∉ s.takeWhile (· != q) := by
  intro h
  have := List.mem_takeWhile_imp h
  simp at this

/-- What stands before the first `q` of a text, and behind it. -/
lemma takeWhile_dropWhile_of_mem {q : UInt8} {s rest : Bytes} {c : UInt8}
    (h : s.dropWhile (· != q) = c :: rest) :
    c = q ∧ s = s.takeWhile (· != q) ++ q :: rest := by
  have hc : (c != q) = false := by
    have hne : s.dropWhile (· != q) ≠ [] := by
      rw [h]
      exact List.cons_ne_nil _ _
    have := List.head_dropWhile_not (· != q) hne
    simpa only [h, List.head_cons] using this
  have hc : c = q := by simpa using hc
  refine ⟨hc, ?_⟩
  conv_lhs => rw [← List.takeWhile_append_dropWhile (p := (· != q)) (l := s), h]
  rw [hc]

/-- The host in brackets that a server begins with. -/
lemma bracketed_takeWhile {s : Bytes} (h : s.head? = some bracket) :
    Bracketed (s.takeWhile (· != closing) ++ [closing]) := by
  obtain ⟨t, rfl⟩ : ∃ t, s = bracket :: t := by
    cases s with
    | nil => cases h
    | cons a t => exact ⟨t, by rw [Option.some.inj h]⟩
  refine ⟨t.takeWhile (· != closing), ?_, takeWhile_ne_notMem closing t⟩
  rw [List.takeWhile_cons_of_pos (by decide)]
  rfl

lemma Bracketed.ends {host : Bytes} (h : Bracketed host) :
    host.head? = some bracket ∧ host.getLast? = some closing := by
  obtain ⟨inner, rfl, -⟩ := h
  refine ⟨rfl, ?_⟩
  rw [← List.cons_append, List.getLast?_append_of_ne_nil _ (by simp)]
  rfl

/-- The three ways in which `serverPort` has cut a server. -/
inductive Cut (p : Protocol) (s host : Bytes) (port : ℕ) : Prop
  /-- In brackets, with nothing behind them. -/
  | closed (hs : s.head? = some bracket) (hb : Bracketed host) (hhost : host = s)
      (hport : port = defaultPort p)
  /-- A port behind the brackets or behind the only colon. -/
  | port (text : Bytes) (hb : BeforePort host) (h : PortBehind s host text)
      (hv : digitsValue text = port) (h1 : 1 ≤ port)
      (h2 : port ≤ 65535)
  /-- A server without brackets that has no colon, or several. -/
  | whole (hs : s.head? ≠ some bracket) (hcount : s.count colon ≠ 1) (hhost : host = s)
      (hport : port = defaultPort p)

lemma serverPort_eq (p : Protocol) (s : Bytes) : serverPort p s =
    if s.head? = some bracket then
      match s.dropWhile (· != closing) with
      | [] => none
      | close :: [] => some (s.takeWhile (· != closing) ++ [close], defaultPort p)
      | close :: c :: text =>
        if c = colon then (portOf text).map fun port =>
          (s.takeWhile (· != closing) ++ [close], port) else none
    else if s.count colon = 1 then
      (portOf ((s.dropWhile (· != colon)).drop 1)).map fun port => (s.takeWhile (· != colon), port)
    else some (s, defaultPort p) := by
  cases p <;> rfl

lemma serverPort_cut {p : Protocol} {s host : Bytes} {port : ℕ}
    (h : serverPort p s = some (host, port)) :
    Cut p s host port := by
  rw [serverPort_eq] at h
  split at h
  next hs =>
    have hb := bracketed_takeWhile hs
    cases hrest : s.dropWhile (· != closing) with
    | nil =>
      rw [hrest] at h
      cases h
    | cons close rest =>
      obtain ⟨hclose, hsplit⟩ := takeWhile_dropWhile_of_mem hrest
      rw [hrest, hclose] at h
      cases rest with
      | nil =>
        obtain ⟨rfl, rfl⟩ := Prod.mk.inj (Option.some.inj h)
        exact .closed hs hb hsplit.symm rfl
      | cons c text =>
        dsimp only at h
        split at h
        next hc =>
          obtain ⟨n, hn, h⟩ := Option.map_eq_some_iff.mp h
          obtain ⟨rfl, rfl⟩ := Prod.mk.inj h
          obtain ⟨hne, hdigits, hvalue, h1, h2⟩ := portOf_spec hn
          refine .port text (.inl hb) ⟨?_, hne, hdigits⟩ hvalue h1 h2
          rw [List.append_assoc, ← hc]
          exact hsplit
        next => cases h
  next hs =>
    split at h
    next hcount =>
      obtain ⟨n, hn, h⟩ := Option.map_eq_some_iff.mp h
      obtain ⟨rfl, rfl⟩ := Prod.mk.inj h
      obtain ⟨hne, hdigits, hvalue, h1, h2⟩ := portOf_spec hn
      cases hrest : s.dropWhile (· != colon) with
      | nil =>
        rw [hrest] at hne
        exact absurd rfl hne
      | cons c text =>
        obtain ⟨-, hsplit⟩ := takeWhile_dropWhile_of_mem hrest
        rw [hrest] at hne hdigits hvalue
        refine .port text (.inr ⟨?_, takeWhile_ne_notMem colon s⟩) ⟨hsplit, hne,
          hdigits⟩ hvalue h1 h2
        intro hhead
        rw [hsplit, List.head?_append, hhead] at hs
        exact hs rfl
    next hcount =>
      obtain ⟨rfl, rfl⟩ := Prod.mk.inj (Option.some.inj h)
      exact .whole hs hcount rfl rfl

/-! ### Accepted servers -/

/-- Only a server that begins with its only colon has an empty host. -/
lemma host_ne_nil_iff {p : Protocol} {s host : Bytes} {port : ℕ} (hs : s ≠ [])
    (h : Cut p s host port) :
    host ≠ [] ↔ ¬ (s.head? = some colon ∧ s.count colon = 1) := by
  cases h with
  | closed hhead hb hhost hport =>
    rw [hhost]
    refine iff_of_true hs ?_
    rintro ⟨hc, -⟩
    rw [hhead] at hc
    exact absurd hc (by decide)
  | whole hhead hcount hhost hport =>
    rw [hhost]
    exact iff_of_true hs fun hc => hcount hc.2
  | port text hb hport hv h1 h2 =>
    rcases hb with hb | ⟨-, hcolon⟩
    · obtain ⟨inner, rfl, -⟩ := hb
      refine iff_of_true (List.cons_ne_nil _ _) ?_
      rintro ⟨hc, -⟩
      rw [hport.1] at hc
      exact absurd (Option.some.inj hc) (by decide)
    · have hcount := count_of_portBehind hport hcolon
      constructor
      · rintro hne ⟨hc, -⟩
        obtain ⟨a, t, rfl⟩ := List.exists_cons_of_ne_nil hne
        rw [hport.1] at hc
        have hac : a = colon := Option.some.inj hc
        exact hcolon (by rw [hac]; exact List.mem_cons_self)
      · rintro hn rfl
        refine hn ⟨?_, hcount⟩
        rw [hport.1]
        rfl

/-- **The server of an accepted context**: the stored host and port are those of the string, except
that a string which begins with its only colon leaves an empty host. -/
theorem serverRead_iff {json : Json} {c : Context} {s : Bytes} (h : rxLoadContext json = some c)
    (hs : rxString json "server" 255 = some s) :
    ServerRead s c ↔ ¬ (s.head? = some colon ∧ s.count colon = 1) := by
  obtain ⟨server, task, target, attempt, hl⟩ := rxLoadContext_loaded h
  obtain rfl : server = s := Option.some.inj (hl.read.symm.trans hs)
  have hcut := serverPort_cut hl.host
  rw [← host_ne_nil_iff hl.server_ne hcut]
  refine ⟨ServerRead.host, fun hne => ?_⟩
  cases hcut with
  | closed hhead hb hhost hport =>
    have hends := hb.ends
    refine ⟨hne, .inl ⟨?_, hhost, hport⟩, fun _ => hends, fun _ _ => hhost⟩
    rw [hhost] at hends
    exact not_hasPort_of_closing hends.2
  | port text hb hport hv h1 h2 =>
    refine ⟨hne, .inr ⟨text, hport, hv, h1, h2⟩, fun hhead => ?_, fun hhead hcount => ?_⟩
    · rcases hb with hb | ⟨hhost, -⟩
      · exact hb.ends
      · rw [hport.1, List.head?_append_of_ne_nil _ hne] at hhead
        exact absurd hhead hhost
    · rcases hb with hb | ⟨-, hcolon⟩
      · rw [hport.1, List.head?_append_of_ne_nil _ hne] at hhead
        exact absurd hb.ends.1 hhead
      · have := count_of_portBehind hport hcolon
        omega
  | whole hhead hcount hhost hport =>
    exact ⟨hne, .inl ⟨not_hasPort_of_count hhead hcount, hhost, hport⟩, fun hb => absurd hb hhead,
      fun _ _ => hhost⟩

/-- The context of a deployment from an SMB server. -/
def serverJson (server : String) : Json :=
  .object [(ascii "version", .int 1), (ascii "protocol", .string (ascii "smb")),
    (ascii "server", .string (ascii server)),
    (ascii "exportPath", .string (ascii "share")), (ascii "imagePath", .string (ascii "images/a")),
    (ascii "direction", .string (ascii "read")), (ascii "sequence", .string (ascii "0")),
      (ascii "execution", captureOwner),
    (ascii "smbVersion", .string (ascii "3.1.1"))]

theorem serverRead_bracketed : ∃ c, rxLoadContext (serverJson "[fe80::1]:8445") = some c ∧
    ServerRead (ascii "[fe80::1]:8445") c ∧ c.server = ascii "[fe80::1]" ∧ c.port = 8445 := by
  have hc : (rxLoadContext (serverJson "[fe80::1]:8445")).isSome = true := by decide +kernel
  obtain ⟨c, hc⟩ := Option.isSome_iff_exists.mp hc
  have hread : (rxLoadContext (serverJson "[fe80::1]:8445")).map (fun c => (c.server, c.port)) =
      some (ascii "[fe80::1]", 8445) := by decide +kernel
  rw [hc] at hread
  obtain ⟨h1, h2⟩ := Prod.mk.inj (Option.some.inj hread)
  exact ⟨c, hc, (serverRead_iff hc (by decide +kernel)).mpr (by decide +kernel), h1, h2⟩

/-- A port with no host before it is accepted. -/
theorem not_serverRead_colon : ∃ c, rxLoadContext (serverJson ":445") = some c ∧
    rxString (serverJson ":445") "server" 255 = some (ascii ":445") ∧ c.server = [] ∧
    ¬ ServerRead (ascii ":445") c := by
  have hread : (rxLoadContext (serverJson ":445")).map Context.server = some [] := by decide +kernel
  obtain ⟨c, hc, hserver⟩ := Option.map_eq_some_iff.mp hread
  exact ⟨c, hc, by decide +kernel, hserver, fun h => h.host hserver⟩

end Pxeos.Storage
