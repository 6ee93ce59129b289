import ReactorRpc.CallMethod
import ReactorRpc.Http

namespace ReactorRpc
open Streams Http

abbrev dot : UInt8 := 46
abbrev colon : UInt8 := 58

/-- The address of a `sockaddr_in`, byte by byte. -/
structure InAddr where
  a : UInt8 := 0
  b : UInt8 := 0
  c : UInt8 := 0
  d : UInt8 := 0
  deriving DecidableEq

/-- The value of a text of digits. -/
def decimal (digits : Bytes) : Nat := digits.foldl (fun value c => 10 * value + (c.toNat - 48)) 0

/-- A number up to 255 as `inet_pton` takes it, without leading zeros. -/
def octet (text : Bytes) : Option UInt8 :=
  if text ≠ [] ∧ text.all isDigit ∧ (text.head? = some 48 → text = [48]) ∧ decimal text ≤ 255 then
    some (UInt8.ofNat (decimal text))
  else none

/-- `inet_pton` for `AF_INET`. -/
def inetPton (text : Bytes) : Option InAddr :=
  match text.splitOn dot with
  | [a, b, c, d] => do some ⟨← octet a, ← octet b, ← octet c, ← octet d⟩
  | _ => none

/-- What the calls of `socket` and `connect` give: a descriptor if there is one, and
whether the connection is there or in progress. -/
structure Kernel where
  socket : Option Nat
  connect : Bool
  deriving DecidableEq

structure Connection where
  sockfd : Nat
  ip : InAddr
  port : UInt16
  deriving DecidableEq

/-- `createNonBlockingConnection`, which does not look at what `inet_pton` returns. -/
def createNonBlockingConnection (kernel : Kernel) (ip : Bytes) (port : UInt16) : Option Connection :=
  match kernel.socket with
  | none => none
  | some sockfd =>
    let addr : InAddr := (inetPton (cString ip)).getD {}
    if kernel.connect then some ⟨sockfd, addr, port⟩ else none

inductive GetConnection
  | null
  | connected (conn : Connection)
  | threw
  deriving DecidableEq

/-- `getConnection` for an address without a connection in `connections_`. -/
def getConnection (kernel : Kernel) (addr : Bytes) : GetConnection :=
  match parseAddress addr with
  | .noColon => .null
  | .invalidPort => .threw
  | .endpoint ip port =>
    match createNonBlockingConnection kernel ip port with
    | none => .null
    | some conn => .connected conn

/-- A number as it is written. -/
def decimals (n : Nat) : Bytes := (Nat.toDigits 10 n).map fun c => UInt8.ofNat c.toNat

/-- An address as it is written. -/
def InAddr.dotted (ip : InAddr) : Bytes :=
  decimals ip.a.toNat ++ dot :: (decimals ip.b.toNat ++ dot :: (decimals ip.c.toNat ++ dot ::
    decimals ip.d.toNat))

/-- The string is a dotted address, a colon, and a port in decimal. -/
def Written (addr : Bytes) (ip : InAddr) (port : UInt16) : Prop :=
  ∃ digits : Bytes, digits ≠ [] ∧ (∀ c ∈ digits, isDigit c = true) ∧ decimal digits = port.toNat ∧
    addr = ip.dotted ++ colon :: digits

/-- There is no connection, or one to what is written. -/
def Exact (addr : Bytes) : GetConnection → Prop
  | .null => True
  | .connected conn => Written addr conn.ip conn.port
  | .threw => False

theorem decimals_digits : ∀ n < 256, (decimals n).all isDigit = true ∧ octet (decimals n) = some (UInt8.ofNat n) := by
  decide +kernel

theorem octet_decimals (v : UInt8) : octet (decimals v.toNat) = some v := by
  rw [(decimals_digits v.toNat v.toNat_lt).2, UInt8.ofNat_toNat]

theorem isDigit_ne {c e : UInt8} (digit : isDigit c = true) (other : isDigit e = false) : c ≠ e := by
  rintro rfl
  rw [digit] at other
  cases other

theorem not_mem_decimals (v : UInt8) {c : UInt8} (other : isDigit c = false) : c ∉ decimals v.toNat :=
  fun member => isDigit_ne (List.all_eq_true.mp (decimals_digits v.toNat v.toNat_lt).1 c member) other rfl

/-- Nothing but digits and dots is in a dotted address. -/
theorem not_mem_dotted (ip : InAddr) {c : UInt8} (other : isDigit c = false) (noDot : c ≠ dot) :
    c ∉ ip.dotted := by
  simp [InAddr.dotted, not_mem_decimals _ other, noDot]

theorem inetPton_dotted (ip : InAddr) : inetPton ip.dotted = some ip := by
  have plain : ∀ v : UInt8, dot ∉ decimals v.toNat := fun v => not_mem_decimals v (by decide)
  have split : ip.dotted.splitOn dot =
      [decimals ip.a.toNat, decimals ip.b.toNat, decimals ip.c.toNat, decimals ip.d.toNat] := by
    rw [InAddr.dotted, List.splitOn_append_cons_self_of_not_mem (plain _),
      List.splitOn_append_cons_self_of_not_mem (plain _), List.splitOn_append_cons_self_of_not_mem (plain _),
      List.splitOn_eq_singleton (plain _)]
  rw [inetPton, split]
  simp only [octet_decimals]
  rfl

theorem cString_dotted (ip : InAddr) : cString ip.dotted = ip.dotted := by
  have none := not_mem_dotted ip (c := 0) (by decide) (by decide)
  refine List.takeWhile_eq_self_iff.mpr fun c member => decide_eq_true ?_
  rintro rfl
  exact none member

theorem isDigit_iff {c : UInt8} : isDigit c = true ↔ 48 ≤ c.toNat ∧ c.toNat ≤ 57 := by
  rw [isDigit, Bool.and_eq_true, decide_eq_true_eq, decide_eq_true_eq, UInt8.le_iff_toNat_le,
    UInt8.le_iff_toNat_le]
  rfl

theorem not_isSpace {c : UInt8} (digit : isDigit c = true) : isSpace c = false := by
  obtain ⟨low, _⟩ := isDigit_iff.mp digit
  have notBlank : c ≠ 32 := isDigit_ne digit (by decide)
  have notControl : ¬c ≤ 13 := by
    rw [UInt8.le_iff_toNat_le]
    exact fun small => absurd (low.trans small) (by decide)
  simp [isSpace, notBlank, notControl]

theorem foldl_decimal {digits : Bytes} (all : ∀ c ∈ digits, isDigit c = true) (value : Nat) :
    digits.foldl (fun (value : Int) c => 10 * value + (c.toNat - 48)) value =
      (digits.foldl (fun value c => 10 * value + (c.toNat - 48)) value : Nat) := by
  induction digits generalizing value with
  | nil => rfl
  | cons c digits ih =>
    obtain ⟨digit, rest⟩ := List.forall_mem_cons.mp all
    have large := (isDigit_iff.mp digit).1
    rw [List.foldl_cons, List.foldl_cons, ← ih rest]
    congr 1
    omega

/-- `stoi` reads a text of digits whole. -/
theorem stoi_digits {digits : Bytes} (some_ : digits ≠ []) (all : ∀ c ∈ digits, isDigit c = true)
    (small : decimal digits < 2 ^ 31) : stoi digits = some (decimal digits : Int) := by
  obtain ⟨c, rest, rfl⟩ := List.exists_cons_of_ne_nil some_
  have digit := all c (List.mem_cons_self ..)
  have noMinus : c ≠ 45 := isDigit_ne digit (by decide)
  have noPlus : c ≠ 43 := isDigit_ne digit (by decide)
  have trimmed : (c :: rest).dropWhile isSpace = c :: rest :=
    List.dropWhile_cons_of_neg (by rw [not_isSpace digit]; decide)
  have read : (c :: rest).takeWhile isDigit = c :: rest := List.takeWhile_eq_self_iff.mpr all
  have value := foldl_decimal all 0
  rw [Nat.cast_zero, ← decimal] at value
  simp only [stoi, trimmed, List.head?_cons, Option.some.injEq, noMinus, noPlus, or_self, if_false, read, value]
  rw [if_neg]
  simp only [List.cons_ne_nil, false_or, not_or]
  omega

theorem idxOf_colon {front : Bytes} (none : colon ∉ front) (rest : Bytes) :
    (front ++ colon :: rest).idxOf colon = front.length := by
  rw [List.idxOf_append_of_notMem none, List.idxOf_cons_self, Nat.add_zero]

/-- What is written is what `getConnection` reads. -/
theorem parseAddress_written {addr : Bytes} {ip : InAddr} {port : UInt16} (written : Written addr ip port) :
    parseAddress addr = .endpoint ip.dotted port := by
  obtain ⟨digits, some_, all, value, rfl⟩ := written
  have bound := port.toNat_lt
  have place := idxOf_colon (not_mem_dotted ip (by decide) (by decide)) digits
  have whole : stoi digits = some (port.toNat : Int) := by
    rw [stoi_digits some_ all (by omega), value]
  have behind : (ip.dotted ++ colon :: digits).drop (ip.dotted.length + 1) = digits := by
    rw [← List.drop_drop, List.drop_left]
    rfl
  have narrowed : UInt16.ofInt port.toNat = port := by
    have fits : ((port.toNat : Int) % 2 ^ 16).toNat = port.toNat := by omega
    rw [UInt16.ofInt, fits, UInt16.ofNat_toNat]
  rw [parseAddress, if_pos (List.mem_append_right _ (List.mem_cons_self ..)), place, behind, whole,
    List.take_left]
  exact congrArg _ narrowed

/-- The kernel gives no descriptor or no connection. -/
def Kernel.Refuses (kernel : Kernel) : Prop := kernel.socket = none ∨ kernel.connect = false

/-- With an ip and a port it is up to the kernel whether there is a connection. -/
theorem getConnection_endpoint {addr ip : Bytes} {port : UInt16} (read : parseAddress addr = .endpoint ip port)
    (kernel : Kernel) :
    kernel.Refuses ∧ getConnection kernel addr = .null ∨
      ¬kernel.Refuses ∧ ∃ sockfd,
        getConnection kernel addr = .connected ⟨sockfd, (inetPton (cString ip)).getD {}, port⟩ := by
  rw [getConnection, read]
  simp only [createNonBlockingConnection, Kernel.Refuses]
  cases kernel.socket with
  | none => exact .inl ⟨.inl rfl, rfl⟩
  | some sockfd =>
    cases kernel.connect with
    | false => exact .inl ⟨.inr rfl, rfl⟩
    | true => exact .inr ⟨by simp, sockfd, rfl⟩

theorem getConnection_noColon {addr : Bytes} (missing : colon ∉ addr) (kernel : Kernel) :
    getConnection kernel addr = .null := by
  rw [getConnection, parseAddress, if_neg missing]

theorem getConnection_threw {addr : Bytes} (there : colon ∈ addr)
    (number : stoi (addr.drop (addr.idxOf colon + 1)) = none) (kernel : Kernel) :
    getConnection kernel addr = .threw := by
  rw [getConnection, parseAddress, if_pos there, number]

theorem parseAddress_number {addr : Bytes} (there : colon ∈ addr) {port : Int}
    (number : stoi (addr.drop (addr.idxOf colon + 1)) = some port) :
    parseAddress addr = .endpoint (addr.take (addr.idxOf colon)) (UInt16.ofInt port) := by
  rw [parseAddress, if_pos there, number]

/-- `getConnection` is exact on an address exactly if it has no colon, if it is an
address and a port as they are written, or if the kernel refuses what `stoi` finds a
number in. -/
theorem getConnection_exact_iff (kernel : Kernel) (addr : Bytes) :
    Exact addr (getConnection kernel addr) ↔
      colon ∉ addr ∨ (∃ ip port, Written addr ip port) ∨
        kernel.Refuses ∧ stoi (addr.drop (addr.idxOf colon + 1)) ≠ none := by
  constructor
  · intro exact_
    by_cases there : colon ∈ addr
    · right
      cases number : stoi (addr.drop (addr.idxOf colon + 1)) with
      | none =>
        rw [getConnection_threw there number] at exact_
        exact absurd exact_ id
      | some port =>
        have read := parseAddress_number there number
        rcases getConnection_endpoint read kernel with ⟨refuses, _⟩ | ⟨_, sockfd, connected⟩
        · exact .inr ⟨refuses, Option.some_ne_none port⟩
        · rw [connected] at exact_
          exact .inl ⟨_, _, exact_⟩
    · exact .inl there
  · rintro (missing | ⟨ip, port, written⟩ | ⟨refuses, number⟩)
    · rw [getConnection_noColon missing]
      trivial
    · rcases getConnection_endpoint (parseAddress_written written) kernel with
        ⟨_, null⟩ | ⟨_, sockfd, connected⟩
      · rw [null]
        trivial
      · rw [connected, cString_dotted, inetPton_dotted]
        exact written
    · by_cases there : colon ∈ addr
      · obtain ⟨port, found⟩ := Option.ne_none_iff_exists'.mp number
        have read := parseAddress_number there found
        rcases getConnection_endpoint read kernel with ⟨_, null⟩ | ⟨accepts, _⟩
        · rw [null]
          trivial
        · exact absurd refuses accepts
      · rw [getConnection_noColon there]
        trivial

/-- A host name leads to the address that is all zeros. -/
theorem host_name_connected : ¬∀ kernel addr, addr ≠ [] → Exact addr (getConnection kernel addr) := by
  intro exact_
  have connected : getConnection ⟨some 3, true⟩ (asciiText "localhost:8080") = .connected ⟨3, {}, 8080⟩ := by
    decide
  have here := exact_ ⟨some 3, true⟩ (asciiText "localhost:8080") (by decide)
  rw [connected] at here
  obtain ⟨digits, _, _, _, same⟩ := here
  cases (List.cons.inj same).1

end ReactorRpc
