import AgentBeacon.Deserialize
import AgentBeacon.Network.Prefixes

/-!
# `Network.EntryTexts` — the canonical text of an entry

The parts of an entry, read from the text in which they are shown: numbers, ports, addresses, prefixes and host
names. What the parser relies on in the code outside of the scheduler is `Outside.Lawful`.
-/

namespace AgentBeacon
namespace Network

/-- A character of a host name in ASCII. -/
def nameChar (c : Char) : Bool := c.isLower || c.isDigit || c = '-' || c = '.'

/-- A character of the text of an IPv6 address. -/
def addressChar (c : Char) : Bool := c.isDigit || ('a' ≤ c && c ≤ 'f') || c = ':' || c = '.'

/-- What the parser relies on: the ASCII form of a host name is its own ASCII form, with and without the root
dot, and is made of lower-case letters, digits, hyphens and dots; and an IPv6 address is read from its text,
which is made of hexadecimal digits, colons and dots. -/
structure Outside.Lawful (outside : Outside) : Prop where
  fixed : ∀ s a, outside.toAscii s = some a → outside.toAscii a = some a
  root : ∀ s a, outside.toAscii s = some (a ++ ['.']) → a ≠ [] → outside.toAscii a = some a
  names : ∀ s a, outside.toAscii s = some a → ∀ c ∈ a, nameChar c = true
  address : ∀ v, outside.parseIpv6 (outside.showIpv6 v) = some v
  addresses : ∀ v, ∀ c ∈ outside.showIpv6 v, addressChar c = true

variable {outside : Outside}

/-! ## Splitting -/

theorem splitOnce_append {c : Char} {u : List Char} (h : c ∉ u) (v : List Char) :
    splitOnce c (u ++ c :: v) = some (u, v) := by
  have hu : ∀ d ∈ u, (decide (d ≠ c)) = true := by
    intro d hd
    rw [decide_eq_true_iff]
    rintro rfl
    exact h hd
  rw [splitOnce, if_pos (by simp), List.takeWhile_append_of_pos hu, List.dropWhile_append_of_pos hu]
  simp

theorem splitOnce_none {c : Char} {s : List Char} (h : c ∉ s) : splitOnce c s = none := if_neg h

theorem rsplitOnce_append {c : Char} {v : List Char} (h : c ∉ v) (u : List Char) :
    rsplitOnce c (u ++ c :: v) = some (u, v) := by
  have hv : c ∉ v.reverse := by simpa using h
  rw [rsplitOnce, List.reverse_append, List.reverse_cons, List.append_assoc, List.singleton_append,
    splitOnce_append hv]
  simp

/-! ## Numbers -/

theorem isDigit_of_mem {n : Nat} {c : Char} (h : c ∈ digits n) : c.isDigit = true :=
  Nat.isDigit_of_mem_toDigits (by decide) (by decide) h

theorem notMem_digits {c : Char} (h : c.isDigit = false) (n : Nat) : c ∉ digits n := by
  intro hmem
  rw [isDigit_of_mem hmem] at h
  cases h

theorem allDigits_digits (n : Nat) : allDigits (digits n) = true :=
  List.all_eq_true.mpr fun _ hc => isDigit_of_mem hc

theorem digits_ne_nil (n : Nat) : digits n ≠ [] := Nat.toDigits_ne_nil

theorem numberOf_digits (n : Nat) : numberOf (digits n) = n := Nat.ofDigitChars_ten_toDigits

theorem leadingZero_digits (n : Nat) : leadingZero (digits n) = false := by
  by_cases hn : n = 0
  · subst hn
    rfl
  · have hhead := Json.head_toDigits n (Nat.pos_of_ne_zero hn)
    unfold leadingZero
    have hnot : ¬ (digits n).head? = some '0' := hhead
    simp [hnot]

theorem length_digits {n k : Nat} (h : n < 10 ^ k) (hk : 0 < k) : (digits n).length ≤ k :=
  (Nat.length_toDigits_le_iff (by decide) hk).mpr h

/-! ## Ports -/

theorem parsePort_digits {p : Nat} (h : 1 ≤ p ∧ p ≤ 65535) : parsePort outside (digits p) = .ok ⟨p, h⟩ := by
  have hnumber : 1 ≤ numberOf (digits p) ∧ numberOf (digits p) ≤ 65535 := by rwa [numberOf_digits]
  rw [parsePort, if_neg (by simp [digits_ne_nil, allDigits_digits]),
    if_neg (by simp [leadingZero_digits]), dif_pos hnumber]
  simp only [numberOf_digits]

theorem digits_ne_star (n : Nat) (rest : List Char) : digits n ++ rest ≠ ['*'] := by
  obtain ⟨d, ds, hd⟩ := List.exists_cons_of_ne_nil (digits_ne_nil n)
  have hdigit : d.isDigit = true := isDigit_of_mem (hd ▸ List.mem_cons_self)
  rw [hd, List.cons_append]
  intro heq
  have hstar : d = '*' := (List.cons.inj heq).1
  rw [hstar] at hdigit
  exact absurd hdigit (by decide)

/-- **A port range is read from its text.** -/
theorem parsePorts_show (p : PortRange) : parsePorts outside (showPorts p) = .ok p := by
  obtain ⟨lo, hi, hpos, hordered, hfits⟩ := p
  have hlo : 1 ≤ lo ∧ lo ≤ 65535 := ⟨hpos, Nat.le_trans hordered hfits⟩
  have hhi : 1 ≤ hi ∧ hi ≤ 65535 := ⟨Nat.le_trans hpos hordered, hfits⟩
  unfold showPorts
  split
  · next hall =>
      rw [hall]
      rfl
  · split
    · next heq =>
        obtain rfl : lo = hi := heq
        have hstar : digits lo ≠ ['*'] := by
          have hne := digits_ne_star lo []
          rwa [List.append_nil] at hne
        rw [parsePorts, if_neg hstar, splitOnce_none (notMem_digits (by decide) lo)]
        simp only [parsePort_digits hlo]
        simp [rangeOf, Bind.bind, Except.bind]
    · rw [parsePorts, if_neg (digits_ne_star _ _), splitOnce_append (notMem_digits (by decide) lo)]
      simp only [parsePort_digits hlo, parsePort_digits hhi]
      simp [rangeOf, Bind.bind, Except.bind, hordered]

theorem colon_notMem_showPorts (p : PortRange) : ':' ∉ showPorts p := by
  have hdigits (n : Nat) : ':' ∉ digits n := notMem_digits (by decide) n
  unfold showPorts
  split
  · decide
  · split
    · exact hdigits _
    · simp [hdigits]

/-! ## Addresses and prefixes -/

theorem parseOctet_digits (o : Fin 256) : parseOctet (digits o.1) = .ok o := by
  have hlength : (digits o.1).length ≤ 3 := length_digits (by omega) (by decide)
  have hshort : ¬ ((decide (digits o.1 = []) || decide (3 < (digits o.1).length)) = true) := by
    simp [digits_ne_nil, hlength]
  have hnumber : numberOf (digits o.1) < 256 := by
    rw [numberOf_digits]
    exact o.2
  rw [parseOctet, if_neg hshort, if_neg (by simp [leadingZero_digits]), dif_pos hnumber]
  simp only [numberOf_digits]

/-- The octet at a place. -/
def octet (value place : Nat) : Fin 256 := ⟨octetAt value place, Nat.mod_lt _ (by decide)⟩

theorem ipv4Of_octets {value : Nat} (fits : value < 2 ^ Family.v4.bits) :
    ipv4Of (octet value 3) (octet value 2) (octet value 1) (octet value 0) = ⟨.v4, value, fits⟩ := by
  have hbound : value < 4294967296 := fits
  have hvalue : ((octetAt value 3 * 256 + octetAt value 2) * 256 + octetAt value 1) * 256 + octetAt value 0 =
      value := by
    unfold octetAt
    omega
  unfold ipv4Of octet
  simp only [hvalue]

theorem splitOn_ipv4 (value : Nat) (fits : value < 2 ^ Family.v4.bits) :
    (showAddr outside ⟨.v4, value, fits⟩).splitOn '.' =
      [digits (octetAt value 3), digits (octetAt value 2), digits (octetAt value 1),
        digits (octetAt value 0)] := by
  have hdot (n : Nat) : '.' ∉ digits n := notMem_digits (by decide) n
  rw [showAddr, List.splitOn_append_cons_self_of_not_mem (hdot _),
    List.splitOn_append_cons_self_of_not_mem (hdot _), List.splitOn_append_cons_self_of_not_mem (hdot _),
    List.splitOn_eq_singleton (hdot _)]

theorem makeNet_of_trunc {n : IpNet} (h : n.trunc = n) {len : Option Nat}
    (hlen : len.getD n.addr.family.bits = n.prefixLen) : makeNet outside n.addr len = .ok n := by
  unfold makeNet
  simp only [hlen]
  rw [dif_pos n.fits, if_neg (not_not.mpr h)]

theorem splitPrefix_none {s : List Char} (h : '/' ∉ s) : splitPrefix outside s = .ok (s, none) := by
  rw [splitPrefix, splitOnce_none h]

theorem splitPrefix_some {s : List Char} (h : '/' ∉ s) {len : Nat} (hlen : len ≤ 255) :
    splitPrefix outside (s ++ '/' :: digits len) = .ok (s, some len) := by
  have hgood : ¬ ((decide (digits len = []) || !allDigits (digits len) || leadingZero (digits len) ||
      decide (255 < numberOf (digits len))) = true) := by
    simp [digits_ne_nil, allDigits_digits, leadingZero_digits, numberOf_digits, hlen]
  rw [splitPrefix, splitOnce_append h]
  dsimp only
  rw [if_neg hgood, numberOf_digits]

/-- The text of a prefix: that of its address, and its length unless it is a single address. -/
def prefixText (outside : Outside) (n : IpNet) : List Char :=
  if n.prefixLen = n.addr.family.bits then showAddr outside n.addr else showNet outside n

theorem showHost_fromNet (n : IpNet) :
    showHost outside (.fromNet n) = bracketed n.addr.family (prefixText outside n) := by
  unfold HostPart.fromNet prefixText
  split <;> rfl

theorem splitPrefix_prefixText {n : IpNet} (h : '/' ∉ showAddr outside n.addr) :
    ∃ len, splitPrefix outside (prefixText outside n) = .ok (showAddr outside n.addr, len) ∧
      len.getD n.addr.family.bits = n.prefixLen := by
  unfold prefixText
  split
  · next hfull => exact ⟨none, splitPrefix_none h, hfull.symm⟩
  · have hbits : n.addr.family.bits ≤ 255 := by cases n.addr.family <;> decide
    exact ⟨some n.prefixLen, splitPrefix_some h (Nat.le_trans n.fits hbits), rfl⟩

end Network
end AgentBeacon
