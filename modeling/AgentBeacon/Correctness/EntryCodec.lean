import AgentBeacon.Correctness.Loopback
import AgentBeacon.Network.EntryTexts

/-!
# `Correctness.EntryCodec` — network entries are canonical

An accepted entry is shown as a text that is accepted again and gives the same entry; and two accepted texts
that write the same destinations give the same entry. What a text writes is said of the text: the addresses of a
literal or of a prefix, one host name, or the names below one, each with the ports of an interval.
-/

namespace AgentBeacon
namespace Network

variable {outside : Outside}

/-! ## Host names -/

/-- A host name that the parser has given. -/
structure IsName (outside : Outside) (extra : Nat) (n : List Char) : Prop where
  fixed : outside.toAscii n = some n
  chars : ∀ c ∈ n, nameChar c = true
  noRoot : n.getLast? ≠ some '.'
  short : n.length + extra ≤ 253
  letters : allDigits (lastLabel n) = false

theorem lastLabel_nil : allDigits (lastLabel []) = true := rfl

theorem lastLabel_root (u : List Char) : allDigits (lastLabel (u ++ ['.'])) = true := by
  simp [lastLabel, allDigits]

theorem isName_of_parseName (hlawful : outside.Lawful) {s n : List Char} {extra : Nat}
    (h : parseName outside s extra = .ok n) : IsName outside extra n := by
  unfold parseName at h
  split at h
  · cases h
  · next mapped hmapped =>
      dsimp only at h
      split at h
      · cases h
      · next hshort =>
          split at h
          · cases h
          · next hletters =>
              cases h
              have hlast : allDigits (lastLabel (rootless mapped)) = false := by
                simpa using hletters
              have hchars := hlawful.names s mapped hmapped
              have hfixed : outside.toAscii (rootless mapped) = some (rootless mapped) ∧
                  ∀ c ∈ rootless mapped, c ∈ mapped := by
                unfold rootless at hlast ⊢
                split
                · next hdot =>
                    rw [if_pos hdot] at hlast
                    have hne : mapped.dropLast ≠ [] := by
                      intro hnil
                      rw [hnil, lastLabel_nil] at hlast
                      cases hlast
                    have hwhole : mapped = mapped.dropLast ++ ['.'] := by
                      obtain ⟨front, rfl⟩ := List.getLast?_eq_some_iff.mp hdot
                      simp
                    rw [hwhole] at hmapped
                    exact ⟨hlawful.root s _ hmapped hne, fun c hc => List.dropLast_subset _ hc⟩
                · exact ⟨hlawful.fixed s mapped hmapped, fun c hc => hc⟩
              refine ⟨hfixed.1, fun c hc => hchars c (hfixed.2 c hc), ?_, by omega, hlast⟩
              intro hdot
              obtain ⟨front, hfront⟩ := List.getLast?_eq_some_iff.mp hdot
              rw [hfront, lastLabel_root] at hlast
              cases hlast

namespace IsName

variable {extra : Nat} {n : List Char}

theorem ne_nil (h : IsName outside extra n) : n ≠ [] := by
  rintro rfl
  have hletters := h.letters
  rw [lastLabel_nil] at hletters
  cases hletters

theorem notMem (h : IsName outside extra n) {c : Char} (hc : nameChar c = false) : c ∉ n := by
  intro hmem
  rw [h.chars c hmem] at hc
  cases hc

/-- A name is read as itself. -/
theorem parseName_eq (h : IsName outside extra n) : parseName outside n extra = .ok n := by
  have hroot : rootless n = n := if_neg h.noRoot
  have hshort : ¬ 253 < n.length + extra := by
    have hle := h.short
    omega
  rw [parseName, h.fixed]
  dsimp only
  rw [hroot, if_neg hshort, if_neg (by simp [h.letters])]

theorem ipv4Shaped_eq (h : IsName outside extra n) : ipv4Shaped n = false := by
  rw [ipv4Shaped, Bool.and_eq_false_iff]
  right
  rw [Bool.eq_false_iff]
  intro hall
  -- its last label would be all digits
  have hdigits : allDigits (lastLabel n) = true := by
    refine List.all_eq_true.mpr fun c hc => ?_
    rw [lastLabel, List.mem_reverse] at hc
    have hmem : c ∈ n := by simpa using (List.takeWhile_sublist _).mem hc
    have hdot : c ≠ '.' := of_decide_eq_true (List.all_eq_true.mp List.all_takeWhile c hc)
    have hslash : c ≠ '/' := by
      rintro rfl
      exact h.notMem (by decide) hmem
    have hchar := List.all_eq_true.mp hall c hmem
    simpa [hdot, hslash] using hchar
  rw [h.letters] at hdigits
  cases hdigits

theorem bracketsOf_eq (h : IsName outside extra n) : bracketsOf n = none := by
  unfold bracketsOf
  rw [if_neg]
  rintro ⟨hhead, -⟩
  exact h.notMem (by decide) (List.mem_of_mem_head? hhead)

theorem parseHost_eq (h : IsName outside extra n) :
    parseHost outside n = (parseName outside n 0).map .name := by
  have hstar : '*' ∉ n := h.notMem (by decide)
  unfold parseHost
  rw [h.bracketsOf_eq]
  dsimp only
  rw [h.ipv4Shaped_eq, if_neg Bool.false_ne_true]
  split
  · exact absurd List.mem_cons_self hstar
  · rw [if_neg hstar]

end IsName

/-! ## Canonical hosts -/

/-- A host part that the parser has given. -/
inductive Canonical (outside : Outside) : HostPart → Prop where
  | name {n : List Char} (h : IsName outside 0 n) : Canonical outside (.name n)
  | wildcard {n : List Char} (h : IsName outside 2 n) : Canonical outside (.wildcard n)
  | net {n : IpNet} (htrunc : n.trunc = n) (hmapped : mapped.contains n = false) :
      Canonical outside (.fromNet n)

theorem canonical_of_parseHost (hlawful : outside.Lawful) {s : List Char} {h : HostPart}
    (hparse : parseHost outside s = .ok h) : Canonical outside h := by
  unfold parseHost at hparse
  split at hparse
  · obtain ⟨_, _, _, n, -, -, rfl, htrunc, -, -, hmapped⟩ := parseIpv6_ok hparse
    exact .net htrunc hmapped
  · split at hparse
    · obtain ⟨_, _, _, _, _, _, n, -, -, rfl, htrunc, haddr, -⟩ := parseIpv4_ok hparse
      exact .net htrunc (not_mapped_ipv4 haddr)
    · split at hparse
      · split at hparse
        · cases hparse
        · split at hparse
          · cases hparse
          · obtain ⟨n, hn, rfl⟩ := of_map_ok hparse
            exact .wildcard (isName_of_parseName hlawful hn)
      · split at hparse
        · cases hparse
        · obtain ⟨n, hn, rfl⟩ := of_map_ok hparse
          exact .name (isName_of_parseName hlawful hn)

/-! ## Reading what is shown -/

theorem addressChars_v4 {value : Nat} {fits : value < 2 ^ Family.v4.bits} {c : Char}
    (h : c ∈ showAddr outside ⟨.v4, value, fits⟩) : c.isDigit = true ∨ c = '.' := by
  simp only [showAddr, List.mem_append, List.mem_cons] at h
  rcases h with h | rfl | h | rfl | h | rfl | h
  · exact .inl (isDigit_of_mem h)
  · exact .inr rfl
  · exact .inl (isDigit_of_mem h)
  · exact .inr rfl
  · exact .inl (isDigit_of_mem h)
  · exact .inr rfl
  · exact .inl (isDigit_of_mem h)

theorem prefixText_chars {n : IpNet} {c : Char} (h : c ∈ prefixText outside n) :
    c ∈ showAddr outside n.addr ∨ c.isDigit = true ∨ c = '/' := by
  unfold prefixText at h
  split at h
  · exact .inl h
  · simp only [showNet, List.mem_append, List.mem_cons] at h
    rcases h with h | rfl | h
    · exact .inl h
    · exact .inr (.inr rfl)
    · exact .inr (.inl (isDigit_of_mem h))

theorem parseHost_v4 {n : IpNet} (htrunc : n.trunc = n) (hfamily : n.addr.family = .v4) :
    parseHost outside (prefixText outside n) = .ok (.fromNet n) := by
  obtain ⟨⟨family, value, fits⟩, len, hlen⟩ := n
  obtain rfl : family = .v4 := hfamily
  generalize hn : (⟨⟨.v4, value, fits⟩, len, hlen⟩ : IpNet) = n at *
  have haddr : n.addr = ⟨.v4, value, fits⟩ := by rw [← hn]
  have hchars : ∀ c ∈ prefixText outside n, c.isDigit = true ∨ c = '.' ∨ c = '/' := by
    intro c hc
    rcases prefixText_chars hc with h | h | h
    · rw [haddr] at h
      rcases addressChars_v4 h with h | h
      · exact .inl h
      · exact .inr (.inl h)
    · exact .inl h
    · exact .inr (.inr h)
  have hne : prefixText outside n ≠ [] := by
    unfold prefixText showNet
    rw [haddr]
    split <;> simp [showAddr]
  have hbrackets : bracketsOf (prefixText outside n) = none := by
    unfold bracketsOf
    rw [if_neg]
    rintro ⟨hhead, -⟩
    have hbracket := hchars '[' (List.mem_of_mem_head? hhead)
    exact absurd hbracket (by decide)
  have hshaped : ipv4Shaped (prefixText outside n) = true := by
    rw [ipv4Shaped, Bool.and_eq_true]
    refine ⟨decide_eq_true hne, List.all_eq_true.mpr fun c hc => ?_⟩
    rcases hchars c hc with h | h | h
    · simp [h]
    · simp [h]
    · simp [h]
  have hslash : '/' ∉ showAddr outside n.addr := by
    rw [haddr]
    intro hmem
    exact absurd (addressChars_v4 hmem) (by decide)
  obtain ⟨written, hsplit, hwritten⟩ := splitPrefix_prefixText (n := n) hslash
  have hoctet (place : Nat) : parseOctet (digits (octetAt value place)) = .ok (octet value place) :=
    parseOctet_digits (octet value place)
  have hnet : makeNet outside (ipv4Of (octet value 3) (octet value 2) (octet value 1) (octet value 0)) written =
      .ok n := by
    rw [ipv4Of_octets fits, ← haddr]
    exact makeNet_of_trunc htrunc hwritten
  unfold parseHost
  rw [hbrackets]
  dsimp only
  rw [if_pos hshaped, parseIpv4, hsplit]
  simp only [Bind.bind, Except.bind]
  rw [haddr, splitOn_ipv4 value fits]
  simp only [hoctet, hnet]

theorem parseHost_v6 (hlawful : outside.Lawful) {n : IpNet} (htrunc : n.trunc = n)
    (hmapped : mapped.contains n = false) (hfamily : n.addr.family = .v6) :
    parseHost outside ('[' :: (prefixText outside n ++ [']'])) = .ok (.fromNet n) := by
  obtain ⟨⟨family, value, fits⟩, len, hlen⟩ := n
  obtain rfl : family = .v6 := hfamily
  generalize hn : (⟨⟨.v6, value, fits⟩, len, hlen⟩ : IpNet) = n at *
  have haddr : n.addr = ⟨.v6, value, fits⟩ := by rw [← hn]
  have hshow : showAddr outside n.addr = outside.showIpv6 ⟨value, fits⟩ := by rw [haddr]; rfl
  have hslash : '/' ∉ showAddr outside n.addr := by
    rw [hshow]
    intro hmem
    exact absurd (hlawful.addresses _ _ hmem) (by decide)
  have hzone : '%' ∉ prefixText outside n := by
    intro hmem
    rcases prefixText_chars hmem with h | h | h
    · rw [hshow] at h
      exact absurd (hlawful.addresses _ _ h) (by decide)
    · exact absurd h (by decide)
    · exact absurd h (by decide)
  have hbrackets : bracketsOf ('[' :: (prefixText outside n ++ [']'])) = some (prefixText outside n) := by
    simp [bracketsOf]
  obtain ⟨written, hsplit, hwritten⟩ := splitPrefix_prefixText (n := n) hslash
  have hnet : makeNet outside (ipv6Of ⟨value, fits⟩) written = .ok n := by
    have hsame : ipv6Of ⟨value, fits⟩ = n.addr := haddr.symm
    rw [hsame]
    exact makeNet_of_trunc htrunc hwritten
  unfold parseHost
  rw [hbrackets]
  dsimp only
  rw [parseIpv6, if_neg hzone, hsplit, hshow]
  simp only [Bind.bind, Except.bind, hlawful.address, hnet, hmapped]
  rfl

/-- **A canonical host is read from its text.** -/
theorem parseHost_show (hlawful : outside.Lawful) {h : HostPart} (hcanonical : Canonical outside h) :
    parseHost outside (showHost outside h) = .ok h := by
  cases hcanonical with
  | name hn =>
      rw [showHost, hn.parseHost_eq, hn.parseName_eq]
      rfl
  | @wildcard n hn =>
      have hstar : '*' ∉ n := hn.notMem (by decide)
      have hbrackets : bracketsOf ('*' :: '.' :: n) = none := by simp [bracketsOf]
      have hshaped : ipv4Shaped ('*' :: '.' :: n) = false := by simp [ipv4Shaped]
      have hnot : ¬ ((parseHost outside n).toOption.bind HostPart.toNet).isSome = true := by
        rw [hn.parseHost_eq]
        cases parseName outside n 0 <;> simp [Except.map, Except.toOption, HostPart.toNet]
      rw [showHost]
      unfold parseHost
      rw [hbrackets]
      dsimp only
      rw [hshaped, if_neg Bool.false_ne_true]
      split
      · next suffix heq =>
          obtain rfl : n = suffix := by simpa using heq
          rw [if_neg hstar, if_neg hnot, hn.parseName_eq]
          rfl
      · next hother => exact absurd rfl (hother n)
  | @net n htrunc hmapped =>
      rw [showHost_fromNet]
      cases hfamily : n.addr.family with
      | v4 => exact parseHost_v4 htrunc hfamily
      | v6 => exact parseHost_v6 hlawful htrunc hmapped hfamily

theorem splitHostPorts_plain {host ports : List Char} (hne : host ≠ []) (hhead : host.head? ≠ some '[')
    (hhost : ':' ∉ host) (hports : ':' ∉ ports) : splitHostPorts (host ++ ':' :: ports) = .ok (host, ports) := by
  have hplain : ¬ (host ++ ':' :: ports).head? = some '[' := by
    rwa [List.head?_append_of_ne_nil _ hne]
  rw [splitHostPorts, if_neg hplain, rsplitOnce_append hports]
  dsimp only
  rw [if_neg hhost, if_neg hne]

/-- The text of a canonical entry is split where it was put together. -/
theorem splitHostPorts_show (hlawful : outside.Lawful) {h : HostPart} (hcanonical : Canonical outside h)
    {ports : List Char} (hports : ':' ∉ ports) :
    splitHostPorts (showHost outside h ++ ':' :: ports) = .ok (showHost outside h, ports) := by
  cases hcanonical with
  | @name n hn =>
      refine splitHostPorts_plain hn.ne_nil ?_ (hn.notMem (by decide)) hports
      intro hhead
      exact hn.notMem (by decide) (List.mem_of_mem_head? hhead)
  | @wildcard n hn =>
      have hcolon : ':' ∉ n := hn.notMem (by decide)
      exact splitHostPorts_plain (by simp [showHost]) (by simp [showHost]) (by simp [showHost, hcolon]) hports
  | @net n htrunc hmapped =>
      rw [showHost_fromNet]
      obtain ⟨⟨family, value, fits⟩, len, hlen⟩ := n
      cases family with
      | v4 =>
          have hchars {c : Char} (hc : c ∈ prefixText outside ⟨⟨.v4, value, fits⟩, len, hlen⟩) :
              c.isDigit = true ∨ c = '.' ∨ c = '/' := by
            rcases prefixText_chars hc with h | h | h
            · exact (addressChars_v4 h).imp_right .inl
            · exact .inl h
            · exact .inr (.inr h)
          have hne : prefixText outside ⟨⟨.v4, value, fits⟩, len, hlen⟩ ≠ [] := by
            unfold prefixText showNet
            split <;> simp [showAddr]
          refine splitHostPorts_plain hne (fun hhead => ?_) (fun hmem => ?_) hports
          · exact absurd (hchars (List.mem_of_mem_head? hhead)) (by decide)
          · exact absurd (hchars hmem) (by decide)
      | v6 =>
          have hclose : ']' ∉ prefixText outside ⟨⟨.v6, value, fits⟩, len, hlen⟩ := by
            intro hmem
            rcases prefixText_chars hmem with h | h | h
            · exact absurd (hlawful.addresses _ _ h) (by decide)
            · exact absurd h (by decide)
            · exact absurd h (by decide)
          simp only [bracketed, List.cons_append, List.append_assoc, List.nil_append]
          unfold splitHostPorts
          simp only [List.head?_cons, if_true, List.tail_cons, splitOnce_append hclose]

/-- **What is shown is accepted and gives the same entry.** -/
theorem parse_show (hlawful : outside.Lawful) {raw : List Char} {e : Entry}
    (h : Entry.parse outside raw = .ok e) : Entry.parse outside (e.show outside) = .ok e := by
  obtain ⟨host, ports, -, -, hhost⟩ := parse_ok h
  have hcanonical := canonical_of_parseHost hlawful hhost
  unfold Entry.parse Entry.show
  rw [splitHostPorts_show hlawful hcanonical (colon_notMem_showPorts e.ports)]
  dsimp only
  rw [parsePorts_show, parseHost_show hlawful hcanonical]

/-! ## What a text writes -/

/-- A place that traffic goes to. -/
inductive Destination where
  | name (n : List Char)
  | address (a : IpAddr)

/-- The names strictly below one. -/
def below (n : List Char) : Set Destination := { d | ∃ label, label ≠ [] ∧ d = .name (label ++ '.' :: n) }

/-- The addresses of a set. -/
def addresses (s : Set IpAddr) : Set Destination := { d | ∃ a ∈ s, d = .address a }

/-- The name that a text writes: its ASCII form without the root dot. -/
def writtenName (outside : Outside) (s : List Char) : Option (List Char) := (outside.toAscii s).map rootless

/-- The addresses that an address and a length write. -/
def writtenAddresses (a : IpAddr) (len : Option Nat) : Set IpAddr :=
  { b | ∃ h : len.getD a.family.bits ≤ a.family.bits, b ∈ IpNet.covers ⟨a, len.getD a.family.bits, h⟩ }

/-- The destinations that the text of a host writes. -/
def hostWrites (outside : Outside) (s : List Char) : Set Destination :=
  match bracketsOf s with
  | some inner => { d | ∃ text len value, splitPrefix outside inner = .ok (text, len) ∧
      outside.parseIpv6 text = some value ∧ d ∈ addresses (writtenAddresses (ipv6Of value) len) }
  | none =>
      if ipv4Shaped s then { d | ∃ text len a b c e, splitPrefix outside s = .ok (text, len) ∧
        WritesOctets text a b c e ∧ d ∈ addresses (writtenAddresses (ipv4Of a b c e) len) }
      else
        match s with
        | '*' :: '.' :: suffix => { d | ∃ n, writtenName outside suffix = some n ∧ d ∈ below n }
        | s => { d | ∃ n, writtenName outside s = some n ∧ d = .name n }

/-- The ports that a text writes. -/
def portsWrite (s : List Char) : Set Nat :=
  if s = ['*'] then { p | 1 ≤ p ∧ p ≤ 65535 }
  else
    match splitOnce '-' s with
    | some (lo, hi) => { p | numberOf lo ≤ p ∧ p ≤ numberOf hi }
    | none => { p | p = numberOf s }

/-- The destinations and ports that a text writes. -/
def writes (outside : Outside) (raw : List Char) : Set (Destination × Nat) :=
  { d | ∃ host ports, splitHostPorts raw = .ok (host, ports) ∧ d.1 ∈ hostWrites outside host ∧
    d.2 ∈ portsWrite ports }

/-! ## What an entry stands for -/

/-- The destinations of a host part. -/
def HostPart.destinations : HostPart → Set Destination
  | .name n => {.name n}
  | .wildcard n => below n
  | .addr a => addresses (IpNet.ofAddr a).covers
  | .net n => addresses n.covers

theorem destinations_fromNet (n : IpNet) : (HostPart.fromNet n).destinations = addresses n.covers := by
  unfold HostPart.fromNet
  split
  · next hfull =>
      obtain ⟨addr, len, fits⟩ := n
      obtain rfl : len = addr.family.bits := hfull
      rfl
  · rfl

theorem writtenAddresses_eq {a : IpAddr} {len : Option Nat} {n : IpNet} (haddr : n.addr = a)
    (hlen : n.prefixLen = len.getD a.family.bits) : writtenAddresses a len = n.covers := by
  subst haddr
  obtain ⟨addr, l, fits⟩ := n
  obtain rfl : l = len.getD addr.family.bits := hlen
  ext b
  constructor
  · rintro ⟨_, hb⟩
    exact hb
  · intro hb
    exact ⟨fits, hb⟩

theorem parseName_written {s n : List Char} {extra : Nat} (h : parseName outside s extra = .ok n) :
    writtenName outside s = some n := by
  unfold parseName at h
  split at h
  · cases h
  · next mapped hmapped =>
      dsimp only at h
      split at h
      · cases h
      · split at h
        · cases h
        · cases h
          rw [writtenName, hmapped]
          rfl

theorem hostWrites_bracketed {s inner : List Char} (h : bracketsOf s = some inner) :
    hostWrites outside s = { d | ∃ text len value, splitPrefix outside inner = .ok (text, len) ∧
      outside.parseIpv6 text = some value ∧ d ∈ addresses (writtenAddresses (ipv6Of value) len) } := by
  unfold hostWrites
  rw [h]

theorem hostWrites_ipv4 {s : List Char} (h : bracketsOf s = none) (hshaped : ipv4Shaped s = true) :
    hostWrites outside s = { d | ∃ text len a b c e, splitPrefix outside s = .ok (text, len) ∧
      WritesOctets text a b c e ∧ d ∈ addresses (writtenAddresses (ipv4Of a b c e) len) } := by
  unfold hostWrites
  rw [h]
  dsimp only
  rw [if_pos hshaped]

theorem hostWrites_wildcard {suffix : List Char} (h : bracketsOf ('*' :: '.' :: suffix) = none)
    (hshaped : ¬ipv4Shaped ('*' :: '.' :: suffix) = true) :
    hostWrites outside ('*' :: '.' :: suffix) =
      { d | ∃ n, writtenName outside suffix = some n ∧ d ∈ below n } := by
  unfold hostWrites
  rw [h]
  dsimp only
  rw [if_neg hshaped]
  rfl

theorem hostWrites_name {s : List Char} (h : bracketsOf s = none) (hshaped : ¬ipv4Shaped s = true)
    (hstar : '*' ∉ s) :
    hostWrites outside s = { d | ∃ n, writtenName outside s = some n ∧ d = .name n } := by
  unfold hostWrites
  rw [h]
  dsimp only
  rw [if_neg hshaped]
  split
  · exact absurd List.mem_cons_self hstar
  · rfl

/-- **A host stands for what its text writes.** -/
theorem hostWrites_eq {s : List Char} {h : HostPart} (hparse : parseHost outside s = .ok h) :
    hostWrites outside s = h.destinations := by
  unfold parseHost at hparse
  split at hparse
  · next inner hinner =>
      rw [hostWrites_bracketed hinner]
      obtain ⟨text, len, value, n, hsplit, hvalue, rfl, -, haddr, hlen, -⟩ := parseIpv6_ok hparse
      have hwritten := writtenAddresses_eq haddr hlen
      rw [destinations_fromNet, ← hwritten]
      ext d
      constructor
      · rintro ⟨text', len', value', hsplit', hvalue', hd⟩
        rw [hsplit] at hsplit'
        cases hsplit'
        rw [hvalue] at hvalue'
        cases hvalue'
        exact hd
      · intro hd
        exact ⟨text, len, value, hsplit, hvalue, hd⟩
  · next hinner =>
    split at hparse
    · next hshaped =>
        obtain ⟨text, len, a, b, c, e, n, hsplit, hoctets, rfl, -, haddr, hlen⟩ := parseIpv4_ok hparse
        have hwritten := writtenAddresses_eq haddr hlen
        rw [hostWrites_ipv4 hinner hshaped, destinations_fromNet, ← hwritten]
        ext d
        constructor
        · rintro ⟨text', len', a', b', c', e', hsplit', ⟨ta, tb, tc, te, hsplits, ha, hb, hc, he⟩, hd⟩
          obtain ⟨ta', tb', tc', te', hsplits', ha', hb', hc', he'⟩ := hoctets
          rw [hsplit] at hsplit'
          cases hsplit'
          rw [hsplits] at hsplits'
          cases hsplits'
          obtain rfl : a' = a := Fin.ext (ha.symm.trans ha')
          obtain rfl : b' = b := Fin.ext (hb.symm.trans hb')
          obtain rfl : c' = c := Fin.ext (hc.symm.trans hc')
          obtain rfl : e' = e := Fin.ext (he.symm.trans he')
          exact hd
        · intro hd
          exact ⟨text, len, a, b, c, e, hsplit, hoctets, hd⟩
    · next hshaped =>
        split at hparse
        · rw [hostWrites_wildcard hinner hshaped]
          split at hparse
          · cases hparse
          · split at hparse
            · cases hparse
            · obtain ⟨n, hn, rfl⟩ := of_map_ok hparse
              have hwritten := parseName_written hn
              ext d
              constructor
              · rintro ⟨m, hm, hd⟩
                rw [hwritten] at hm
                cases hm
                exact hd
              · intro hd
                exact ⟨n, hwritten, hd⟩
        · split at hparse
          · cases hparse
          · next hstar =>
              obtain ⟨n, hn, rfl⟩ := of_map_ok hparse
              have hwritten := parseName_written hn
              rw [hostWrites_name hinner hshaped hstar]
              ext d
              constructor
              · rintro ⟨m, hm, hd⟩
                rw [hwritten] at hm
                cases hm
                exact hd
              · intro hd
                exact ⟨n, hwritten, hd⟩

theorem parsePort_number {s : List Char} {p : { p : Nat // 1 ≤ p ∧ p ≤ 65535 }}
    (h : parsePort outside s = .ok p) : numberOf s = p.1 := by
  unfold parsePort at h
  split at h
  · cases h
  · split at h
    · cases h
    · split at h
      · cases h
        rfl
      · cases h

/-- The ports of an entry are those that its text writes. -/
theorem portsWrite_eq {s : List Char} {p : PortRange} (h : parsePorts outside s = .ok p) :
    portsWrite s = { q | p.lo ≤ q ∧ q ≤ p.hi } := by
  unfold parsePorts at h
  unfold portsWrite
  split at h
  · next hstar =>
      cases h
      rw [if_pos hstar]
      rfl
  · next hstar =>
      rw [if_neg hstar]
      cases hsplit : splitOnce '-' s with
      | some parts =>
          simp only [hsplit] at h
          obtain ⟨l, hl, h⟩ := of_bind_ok h
          obtain ⟨r, hr, h⟩ := of_bind_ok h
          dsimp only
          rw [parsePort_number hl, parsePort_number hr]
          unfold rangeOf at h
          split at h
          · cases h
            rfl
          · cases h
      | none =>
          simp only [hsplit] at h
          obtain ⟨l, hl, h⟩ := of_bind_ok h
          unfold rangeOf at h
          split at h
          · cases h
            dsimp only
            ext q
            rw [parsePort_number hl]
            exact ⟨fun hq => ⟨Nat.le_of_eq hq.symm, Nat.le_of_eq hq⟩, fun hq => Nat.le_antisymm hq.2 hq.1⟩
          · cases h

/-- What an accepted text writes. -/
theorem writes_eq {raw : List Char} {e : Entry} (h : Entry.parse outside raw = .ok e) :
    writes outside raw = { d | d.1 ∈ e.host.destinations ∧ e.ports.lo ≤ d.2 ∧ d.2 ≤ e.ports.hi } := by
  obtain ⟨host, ports, hsplit, hports, hhost⟩ := parse_ok h
  have hwrites := hostWrites_eq hhost
  have hwritten := portsWrite_eq hports
  ext d
  constructor
  · rintro ⟨host', ports', hsplit', hd, hp⟩
    rw [hsplit] at hsplit'
    cases hsplit'
    rw [hwrites] at hd
    rw [hwritten] at hp
    exact ⟨hd, hp⟩
  · rintro ⟨hd, hp⟩
    refine ⟨host, ports, hsplit, ?_, ?_⟩
    · rw [hwrites]
      exact hd
    · rw [hwritten]
      exact hp

/-! ## Equal destinations, equal entries -/

theorem IpNet.eq_of_covers {n m : IpNet} (hn : n.trunc = n) (hm : m.trunc = m) (h : n.covers = m.covers) :
    n = m := by
  have hnfirst := (mem_covers hm _).mp (h ▸ offset_mem hn n.size_pos)
  have hmfirst := (mem_covers hn _).mp (h ▸ offset_mem hm m.size_pos)
  have hnpos := n.size_pos
  have hmpos := m.size_pos
  have hnlast := (mem_covers hm _).mp (h ▸ offset_mem hn (by omega : n.size - 1 < n.size))
  have hmlast := (mem_covers hn _).mp (h ▸ offset_mem hm (by omega : m.size - 1 < m.size))
  simp only [offset] at hnfirst hmfirst hnlast hmlast
  have hvalue : n.addr.value = m.addr.value := by omega
  have hsize : n.size = m.size := by omega
  have hfamily := hnfirst.1
  have hlen : n.prefixLen = m.prefixLen := by
    unfold size at hsize
    have hexp := Nat.pow_right_injective (by decide : 2 ≤ 2) hsize
    have hnfits := n.fits
    have hmfits := m.fits
    rw [hfamily] at hexp hnfits
    omega
  obtain ⟨⟨_, _, _⟩, _, _⟩ := n
  obtain ⟨⟨_, _, _⟩, _, _⟩ := m
  cases hfamily
  cases hvalue
  cases hlen
  rfl

theorem addresses_injective {s t : Set IpAddr} (h : addresses s = addresses t) : s = t := by
  ext a
  have hiff : Destination.address a ∈ addresses s ↔ Destination.address a ∈ addresses t := by rw [h]
  have hmem (u : Set IpAddr) : Destination.address a ∈ addresses u ↔ a ∈ u := by
    constructor
    · rintro ⟨b, hb, heq⟩
      cases heq
      exact hb
    · intro ha
      exact ⟨a, ha, rfl⟩
  rwa [hmem, hmem] at hiff

theorem below_length {n m : List Char} (h : ∀ d ∈ below n, d ∈ below m) : m.length ≤ n.length := by
  obtain ⟨label, hlabel, heq⟩ := h (.name (['a'] ++ '.' :: n)) ⟨['a'], by decide, rfl⟩
  have hlength := congrArg List.length (Destination.name.inj heq)
  have hpos := List.length_pos_iff.mpr hlabel
  simp only [List.length_append, List.length_cons, List.length_nil] at hlength
  omega

theorem below_injective {n m : List Char} (h : below n = below m) : n = m := by
  have hle := below_length fun d hd => h ▸ hd
  have hge := below_length fun d hd => h.symm ▸ hd
  have hmem : Destination.name (['a'] ++ '.' :: n) ∈ below m := h ▸ ⟨['a'], by decide, rfl⟩
  obtain ⟨label, -, heq⟩ := hmem
  have hsplit := List.append_inj' (Destination.name.inj heq) (by simp only [List.length_cons]; omega)
  exact (List.cons.inj hsplit.2).2

/-- A host part has a destination. -/
theorem destinations_nonempty {h : HostPart} (hcanonical : Canonical outside h) : h.destinations.Nonempty := by
  cases hcanonical with
  | @name n _ => exact ⟨.name n, rfl⟩
  | @wildcard n _ => exact ⟨_, ['a'], by decide, rfl⟩
  | net htrunc _ =>
      rw [destinations_fromNet]
      exact ⟨_, _, IpNet.offset_mem htrunc (IpNet.size_pos _), rfl⟩

theorem name_ne_below (n m : List Char) : ({.name n} : Set Destination) ≠ below m := by
  intro h
  have hone : Destination.name (['a'] ++ '.' :: m) ∈ ({.name n} : Set Destination) := h ▸ ⟨['a'], by decide, rfl⟩
  have htwo : Destination.name (['a', 'a'] ++ '.' :: m) ∈ ({.name n} : Set Destination) :=
    h ▸ ⟨['a', 'a'], by decide, rfl⟩
  have hlength := congrArg List.length (Destination.name.inj (hone.trans htwo.symm))
  simp at hlength

/-- No name is an address. -/
theorem no_name {h : HostPart} {s : Set IpAddr} {n : List Char} (hname : Destination.name n ∈ h.destinations)
    (heq : h.destinations = addresses s) : False := by
  rw [heq] at hname
  obtain ⟨_, -, hcontra⟩ := hname
  cases hcontra

theorem destinations_injective {h h' : HostPart} (hc : Canonical outside h) (hc' : Canonical outside h')
    (heq : h.destinations = h'.destinations) : h = h' := by
  cases hc with
  | @name n _ =>
      cases hc' with
      | @name m _ =>
          have hmem : Destination.name n ∈ (HostPart.name m).destinations := heq ▸ rfl
          rw [Destination.name.inj hmem]
      | @wildcard m _ => exact absurd heq (name_ne_below n m)
      | net _ _ => exact (no_name (h := .name n) rfl (heq.trans (destinations_fromNet _))).elim
  | @wildcard n _ =>
      cases hc' with
      | @name m _ => exact absurd heq.symm (name_ne_below m n)
      | @wildcard m _ => rw [below_injective heq]
      | net _ _ =>
          have hmem : Destination.name (['a'] ++ '.' :: n) ∈ (HostPart.wildcard n).destinations :=
            ⟨['a'], by decide, rfl⟩
          exact (no_name hmem (heq.trans (destinations_fromNet _))).elim
  | @net n htrunc _ =>
      cases hc' with
      | @name m _ => exact (no_name (h := .name m) rfl (heq.symm.trans (destinations_fromNet _))).elim
      | @wildcard m _ =>
          have hmem : Destination.name (['a'] ++ '.' :: m) ∈ (HostPart.wildcard m).destinations :=
            ⟨['a'], by decide, rfl⟩
          exact (no_name hmem (heq.symm.trans (destinations_fromNet _))).elim
      | @net m htrunc' _ =>
          rw [destinations_fromNet, destinations_fromNet] at heq
          rw [IpNet.eq_of_covers htrunc htrunc' (addresses_injective heq)]

/-- **Network entries are canonical.** What an accepted entry is shown as is accepted and gives the same entry;
and two accepted texts that write the same destinations and ports give the same entry. -/
theorem entries_canonical (outside : Outside) (hlawful : outside.Lawful) :
    (∀ raw e, Entry.parse outside raw = .ok e → Entry.parse outside (e.show outside) = .ok e) ∧
    ∀ raw raw' e e', Entry.parse outside raw = .ok e → Entry.parse outside raw' = .ok e' →
      writes outside raw = writes outside raw' → e = e' := by
  refine ⟨fun raw e h => parse_show hlawful h, fun raw raw' e e' h h' heq => ?_⟩
  obtain ⟨_, _, -, -, hhost⟩ := parse_ok h
  obtain ⟨_, _, -, -, hhost'⟩ := parse_ok h'
  have hc := canonical_of_parseHost hlawful hhost
  have hc' := canonical_of_parseHost hlawful hhost'
  rw [writes_eq h, writes_eq h'] at heq
  have hiff (d : Destination) (p : Nat) : (d ∈ e.host.destinations ∧ e.ports.lo ≤ p ∧ p ≤ e.ports.hi) ↔
      (d ∈ e'.host.destinations ∧ e'.ports.lo ≤ p ∧ p ≤ e'.ports.hi) := by
    exact Set.ext_iff.mp heq (d, p)
  obtain ⟨host, lo, hi, hpos, hordered, hfits⟩ := e
  obtain ⟨host', lo', hi', hpos', hordered', hfits'⟩ := e'
  simp only at hiff hc hc'
  have hhosts : host = host' := by
    refine destinations_injective hc hc' (Set.ext fun d => ⟨fun hd => ?_, fun hd => ?_⟩)
    · exact ((hiff d lo).mp ⟨hd, Nat.le_refl _, hordered⟩).1
    · exact ((hiff d lo').mpr ⟨hd, Nat.le_refl _, hordered'⟩).1
  obtain ⟨d, hd⟩ := destinations_nonempty hc
  have hlo := (hiff d lo).mp ⟨hd, Nat.le_refl _, hordered⟩
  have hhi := (hiff d hi).mp ⟨hd, hordered, Nat.le_refl _⟩
  have hlo' := (hiff d lo').mpr ⟨hlo.1, Nat.le_refl _, hordered'⟩
  have hhi' := (hiff d hi').mpr ⟨hlo.1, hordered', Nat.le_refl _⟩
  obtain rfl : lo = lo' := by omega
  obtain rfl : hi = hi' := by omega
  subst hhosts
  rfl

/-- Host names that are in ASCII already, and addresses written as numbers. -/
def plain : Outside where
  toAscii s := if s.all nameChar then some s else none
  parseIpv6 s := if h : numberOf s < 2 ^ 128 then some ⟨numberOf s, h⟩ else none
  showIpv6 v := digits v.1
  debug s := String.ofList s

theorem plain_lawful : plain.Lawful where
  fixed s a h := by
    simp only [plain, Option.ite_none_right_eq_some, Option.some.injEq] at h ⊢
    obtain ⟨hall, rfl⟩ := h
    exact ⟨hall, trivial⟩
  root s a h _ := by
    simp only [plain, Option.ite_none_right_eq_some, Option.some.injEq] at h ⊢
    obtain ⟨hall, rfl⟩ := h
    rw [List.all_append, Bool.and_eq_true] at hall
    exact ⟨hall.1, trivial⟩
  names s a h := by
    simp only [plain, Option.ite_none_right_eq_some, Option.some.injEq] at h
    obtain ⟨hall, rfl⟩ := h
    exact List.all_eq_true.mp hall
  address v := by
    simp only [plain, numberOf_digits]
    exact dif_pos v.2
  addresses v c hc := by
    rw [addressChar, isDigit_of_mem hc]
    rfl

/-- A name with its root dot and every port written out. -/
def written : List Char := "a.example.:1-65535".toList

theorem entries_canonical_written :
    ∃ e, Entry.parse plain written = .ok e ∧ e.show plain = "a.example:*".toList ∧
      Entry.parse plain "a.example:*".toList = .ok e := by
  have hparse : Entry.parse plain written = .ok ⟨.name "a.example".toList, .all⟩ := by rfl
  have hshow : Entry.show plain ⟨.name "a.example".toList, .all⟩ = "a.example:*".toList := by rfl
  refine ⟨_, hparse, hshow, ?_⟩
  have hagain := (entries_canonical plain plain_lawful).1 _ _ hparse
  rwa [hshow] at hagain

end Network
end AgentBeacon
