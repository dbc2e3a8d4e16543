import AgentBeacon.Serialize
import Mathlib.Data.Set.Basic

/-!
# `Network.Entry` — the entries of a network policy

An entry is `host:ports` in canonical form (`services/network_policy/entry.rs`). Texts are lists of characters.
Three things come from outside of the scheduler and are fields of `Outside`: the mapping of host names to ASCII
by the `idna` crate, the text of IPv6 addresses, and the text of a string in an error. Prefixes are those of the
`ipnet` crate.
-/

namespace AgentBeacon
namespace Network

/-! ## Addresses and prefixes -/

inductive Family where
  | v4 | v6
  deriving DecidableEq, Repr

def Family.bits : Family → Nat
  | v4 => 32
  | v6 => 128

/-- `IpAddr`. -/
structure IpAddr where
  family : Family
  value : Nat
  fits : value < 2 ^ family.bits
  deriving DecidableEq

/-- `IpNet`. -/
structure IpNet where
  addr : IpAddr
  prefixLen : Nat
  fits : prefixLen ≤ addr.family.bits
  deriving DecidableEq

namespace IpNet

variable (n : IpNet)

/-- How many addresses the prefix has. -/
def size : Nat := 2 ^ (n.addr.family.bits - n.prefixLen)

/-- The value of the network address. -/
def networkValue : Nat := n.addr.value / n.size * n.size

theorem networkValue_le : n.networkValue ≤ n.addr.value := Nat.div_mul_le_self _ _

/-- `network`. -/
def network : IpAddr where
  family := n.addr.family
  value := n.networkValue
  fits := Nat.lt_of_le_of_lt n.networkValue_le n.addr.fits

/-- `trunc`: the prefix without its host bits. -/
def trunc : IpNet where
  addr := n.network
  prefixLen := n.prefixLen
  fits := n.fits

/-- The value of the last address. -/
def broadcastValue : Nat := n.networkValue + (n.size - 1)

/-- `contains`. -/
def contains (other : IpNet) : Bool :=
  n.addr.family = other.addr.family && n.networkValue ≤ other.networkValue &&
    other.broadcastValue ≤ n.broadcastValue

end IpNet

/-- The prefix of a single address. -/
def IpNet.ofAddr (a : IpAddr) : IpNet := ⟨a, a.family.bits, Nat.le_refl _⟩

/-! ## Entries -/

/-- `HostPart`. -/
inductive HostPart where
  | name (n : List Char)
  | wildcard (suffix : List Char)
  | addr (a : IpAddr)
  | net (n : IpNet)
  deriving DecidableEq

namespace HostPart

def fromNet (n : IpNet) : HostPart :=
  if n.prefixLen = n.addr.family.bits then .addr n.addr else .net n

/-- `HostPart::net`. -/
def toNet : HostPart → Option IpNet
  | addr a => some (.ofAddr a)
  | net n => some n
  | _ => none

end HostPart

/-- `PortRange`: an inclusive interval. -/
structure PortRange where
  lo : Nat
  hi : Nat
  pos : 1 ≤ lo
  ordered : lo ≤ hi
  fits : hi ≤ 65535
  deriving DecidableEq

/-- `PortRange::ALL`. -/
def PortRange.all : PortRange := ⟨1, 65535, by decide, by decide, by decide⟩

structure Entry where
  host : HostPart
  ports : PortRange
  deriving DecidableEq

/-- `EntryError`. -/
structure EntryError where
  entry : List Char
  reason : String

/-- What comes from outside: `Uts46::to_ascii` with the options of `parse_name`, `Ipv6Addr::from_str`, the
`Display` of an `Ipv6Addr`, and the `Debug` of a string. -/
structure Outside where
  toAscii : List Char → Option (List Char)
  parseIpv6 : List Char → Option (Fin (2 ^ 128))
  showIpv6 : Fin (2 ^ 128) → List Char
  debug : List Char → String

variable (outside : Outside)

/-! ## Display -/

def digits (n : Nat) : List Char := Nat.toDigits 10 n

/-- An octet of an IPv4 address, the last one being that at 0. -/
def octetAt (value place : Nat) : Nat := value / 256 ^ place % 256

/-- `Display` of `IpAddr`. -/
def showAddr (a : IpAddr) : List Char :=
  match a with
  | ⟨.v4, value, _⟩ =>
      digits (octetAt value 3) ++ '.' :: (digits (octetAt value 2) ++ '.' :: (digits (octetAt value 1) ++
        '.' :: digits (octetAt value 0)))
  | ⟨.v6, value, fits⟩ => outside.showIpv6 ⟨value, fits⟩

/-- `Display` of `IpNet`. -/
def showNet (n : IpNet) : List Char := showAddr outside n.addr ++ '/' :: digits n.prefixLen

/-- IPv6 stands in brackets. -/
def bracketed (family : Family) (text : List Char) : List Char :=
  match family with
  | .v4 => text
  | .v6 => '[' :: (text ++ [']'])

/-- `Display` of `HostPart`. -/
def showHost : HostPart → List Char
  | .name n => n
  | .wildcard suffix => '*' :: '.' :: suffix
  | .addr a => bracketed a.family (showAddr outside a)
  | .net n => bracketed n.addr.family (showNet outside n)

/-- `Display` of `PortRange`. -/
def showPorts (p : PortRange) : List Char :=
  if p = .all then ['*'] else if p.lo = p.hi then digits p.lo else digits p.lo ++ '-' :: digits p.hi

/-- `Display` of `Entry`. -/
def Entry.show (e : Entry) : List Char := showHost outside e.host ++ ':' :: showPorts e.ports

/-! ## Parsing -/

/-- `split_once`. -/
def splitOnce (c : Char) (s : List Char) : Option (List Char × List Char) :=
  if c ∈ s then some (s.takeWhile (· ≠ c), (s.dropWhile (· ≠ c)).tail) else none

/-- `rsplit_once`. -/
def rsplitOnce (c : Char) (s : List Char) : Option (List Char × List Char) :=
  (splitOnce c s.reverse).map fun (back, front) => (front.reverse, back.reverse)

def missingPort : String := "missing port; use host:port, host:lo-hi or host:*"

/-- `split_host_ports`. -/
def splitHostPorts (raw : List Char) : Except String (List Char × List Char) :=
  if raw.head? = some '[' then
    match splitOnce ']' raw.tail with
    | none => .error "missing closing bracket"
    | some (inner, behind) =>
        if behind.head? = some ':' then .ok ('[' :: (inner ++ [']']), behind.tail) else .error missingPort
  else
    match rsplitOnce ':' raw with
    | none => .error missingPort
    | some (host, ports) =>
        if ':' ∈ host then .error "IPv6 addresses must be written in brackets, as [addr]:port"
        else if host = [] then .error "missing host"
        else .ok (host, ports)

def allDigits (s : List Char) : Bool := s.all Char.isDigit

def leadingZero (s : List Char) : Bool := 1 < s.length && s.head? = some '0'

/-- The number that the digits write. -/
def numberOf (s : List Char) : Nat := Nat.ofDigitChars 10 s 0

/-- `parse_port`. -/
def parsePort (s : List Char) : Except String { p : Nat // 1 ≤ p ∧ p ≤ 65535 } :=
  if s = [] || !allDigits s then .error s!"invalid port {outside.debug s}"
  else if leadingZero s then .error s!"port {outside.debug s} has a leading zero"
  else if h : 1 ≤ numberOf s ∧ numberOf s ≤ 65535 then .ok ⟨numberOf s, h⟩
  else .error s!"port {String.ofList s} is outside 1-65535"

/-- `PortRange::new`, with the error of `parse_ports`. -/
def rangeOf (s : List Char) (lo hi : { p : Nat // 1 ≤ p ∧ p ≤ 65535 }) : Except String PortRange :=
  if h : lo.1 ≤ hi.1 then .ok ⟨lo.1, hi.1, lo.2.1, h, hi.2.2⟩
  else .error s!"port range {String.ofList s} ends before it starts"

/-- `parse_ports`. -/
def parsePorts (s : List Char) : Except String PortRange :=
  if s = ['*'] then .ok .all
  else
    match splitOnce '-' s with
    | some (lo, hi) => do
        let lo ← parsePort outside lo
        let hi ← parsePort outside hi
        rangeOf s lo hi
    | none => do
        let p ← parsePort outside s
        rangeOf s p p

/-- `split_prefix`. -/
def splitPrefix (s : List Char) : Except String (List Char × Option Nat) :=
  match splitOnce '/' s with
  | none => .ok (s, none)
  | some (a, p) =>
      if p = [] || !allDigits p || leadingZero p || 255 < numberOf p then
        .error s!"invalid prefix length {outside.debug p}"
      else .ok (a, some (numberOf p))

/-- `make_net`. -/
def makeNet (addr : IpAddr) (len : Option Nat) : Except String IpNet :=
  let len := len.getD addr.family.bits
  if h : len ≤ addr.family.bits then
    let net : IpNet := ⟨addr, len, h⟩
    if net.trunc ≠ net then
      .error s!"prefix has host bits set; the network is {String.ofList
        (showHost outside (.fromNet net.trunc))}"
    else .ok net
  else .error s!"prefix length {len} is too long"

/-- One octet of `parse_ipv4`. -/
def parseOctet (o : List Char) : Except String (Fin 256) :=
  if o = [] || 3 < o.length then .error "invalid IPv4 address"
  else if leadingZero o then .error "IPv4 octets cannot have leading zeros"
  else if h : numberOf o < 256 then .ok ⟨numberOf o, h⟩
  else .error "invalid IPv4 address"

/-- The address of four octets. -/
def ipv4Of (a b c d : Fin 256) : IpAddr where
  family := .v4
  value := ((a.1 * 256 + b.1) * 256 + c.1) * 256 + d.1
  fits := by
    have ha := a.2
    have hb := b.2
    have hc := c.2
    have hd := d.2
    simp only [Family.bits]
    omega

/-- `parse_ipv4`; the octets are digits only. -/
def parseIpv4 (s : List Char) : Except String HostPart := do
  let (addr, len) ← splitPrefix outside s
  match addr.splitOn '.' with
  | [a, b, c, d] => do
      let a ← parseOctet a
      let b ← parseOctet b
      let c ← parseOctet c
      let d ← parseOctet d
      let net ← makeNet outside (ipv4Of a b c d) len
      .ok (.fromNet net)
  | _ => .error "invalid IPv4 address"

/-- The address of 128 bits. -/
def ipv6Of (value : Fin (2 ^ 128)) : IpAddr where
  family := .v6
  value := value.1
  fits := value.2

/-- `::ffff:0:0/96`. -/
def mapped : IpNet where
  addr := ⟨.v6, 0xffff * 2 ^ 32, by decide⟩
  prefixLen := 96
  fits := by decide

/-- `parse_ipv6`. -/
def parseIpv6 (s : List Char) : Except String HostPart := do
  if '%' ∈ s then throw "IPv6 zone identifiers are not allowed"
  let (addr, len) ← splitPrefix outside s
  match outside.parseIpv6 addr with
  | none => .error "invalid IPv6 address"
  | some value => do
      let net ← makeNet outside (ipv6Of value) len
      if mapped.contains net then
        .error "IPv4-mapped IPv6 addresses are not allowed; write the IPv4 address"
      else .ok (.fromNet net)

def invalidName : String :=
  "invalid host name: labels are letters, digits and inner hyphens (no \"_\", no \"--\" in positions 3-4), " ++
    "at most 63 octets each and 253 in total"

/-- Without the root dot. -/
def rootless (name : List Char) : List Char := if name.getLast? = some '.' then name.dropLast else name

/-- `rsplit('.').next()`. -/
def lastLabel (name : List Char) : List Char := (name.reverse.takeWhile (· ≠ '.')).reverse

/-- `parse_name`. -/
def parseName (s : List Char) (extra : Nat) : Except String (List Char) :=
  match outside.toAscii s with
  | none => .error invalidName
  | some mapped =>
      let ascii := rootless mapped
      if 253 < ascii.length + extra then .error "host name is longer than 253 octets"
      else if allDigits (lastLabel ascii) then
        .error "the last label of a host name cannot be all digits"
      else .ok ascii

/-- What stands between brackets. -/
def bracketsOf (s : List Char) : Option (List Char) :=
  if s.head? = some '[' ∧ s.tail.getLast? = some ']' then some s.tail.dropLast else none

/-- The host is written as an IPv4 address or prefix. -/
def ipv4Shaped (s : List Char) : Bool :=
  s ≠ [] && s.all fun c => c.isDigit || c = '.' || c = '/'

def oneWildcard : String := "a wildcard is exactly one leading \"*.\""

/-- `parse_host`. -/
def parseHost (s : List Char) : Except String HostPart :=
  match bracketsOf s with
  | some inner => parseIpv6 outside inner
  | none =>
      if ipv4Shaped s then parseIpv4 outside s
      else
        match s with
        | '*' :: '.' :: suffix =>
            if '*' ∈ suffix then .error oneWildcard
            else if ((parseHost suffix).toOption.bind HostPart.toNet).isSome then
              .error "a wildcard cannot apply to an address"
            else (parseName outside suffix 2).map .wildcard
        | s => if '*' ∈ s then .error oneWildcard else (parseName outside s 0).map .name

/-- `Entry::parse`. -/
def Entry.parse (raw : List Char) : Except EntryError Entry :=
  match splitHostPorts raw with
  | .error reason => .error ⟨raw, reason⟩
  | .ok (host, ports) =>
      match parsePorts outside ports with
      | .error reason => .error ⟨raw, reason⟩
      | .ok ports =>
          match parseHost outside host with
          | .error reason => .error ⟨raw, reason⟩
          | .ok host => .ok ⟨host, ports⟩

/-! ## Authored entries -/

/-- `is_guest_loopback`. -/
def isGuestLoopback (n : IpNet) : Bool :=
  match n.addr.family with
  | .v4 => 8 ≤ n.prefixLen && n.addr.value / 2 ^ 24 = 127
  | .v6 => n.prefixLen = 128 && n.addr.value = 1

/-- `check_authorable`. -/
def checkAuthorable (e : Entry) : Except String Unit :=
  match e.host.toNet with
  | some net =>
      if isGuestLoopback net then
        .error "loopback addresses refer to the sandbox itself; use host.internal to reach the host"
      else .ok ()
  | none => .ok ()

/-! ## What an entry covers -/

/-- The addresses of a prefix: those that agree with it but for the host bits. -/
def IpNet.covers (n : IpNet) : Set IpAddr :=
  { a | a.family = n.addr.family ∧ a.value / n.size = n.addr.value / n.size }

/-- The addresses of a host part. -/
def HostPart.covers (h : HostPart) : Set IpAddr := { a | ∃ n, h.toNet = some n ∧ a ∈ n.covers }

end Network
end AgentBeacon
