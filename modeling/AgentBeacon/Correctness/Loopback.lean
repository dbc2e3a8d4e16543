import AgentBeacon.Network.Prefixes

/-!
# `Correctness.Loopback` — authored entries and the loopback of the sandbox

A sandbox must not be given its own loopback by an authored entry, and no address of IPv4 by an address of
IPv6 that maps it. Both rules are about the addresses that an entry covers; the code looks at the parsed
prefix, of which the parser lets through none with host bits.
-/

namespace AgentBeacon
namespace Network

variable {outside : Outside}

/-! ## What the parser lets through -/

theorem of_bind_ok {ε α β : Type} {x : Except ε α} {f : α → Except ε β} {b : β}
    (h : (x >>= f) = .ok b) : ∃ a, x = .ok a ∧ f a = .ok b := by
  cases x with
  | error e => cases h
  | ok a => exact ⟨a, rfl, h⟩

theorem of_map_ok {ε α β : Type} {x : Except ε α} {f : α → β} {b : β} (h : x.map f = .ok b) :
    ∃ a, x = .ok a ∧ f a = b := by
  cases x with
  | error e => cases h
  | ok a => exact ⟨a, rfl, Except.ok.inj h⟩

theorem makeNet_ok {addr : IpAddr} {len : Option Nat} {net : IpNet} (h : makeNet outside addr len = .ok net) :
    net.trunc = net ∧ net.addr = addr ∧ net.prefixLen = len.getD addr.family.bits := by
  unfold makeNet at h
  dsimp only at h
  split at h
  · split at h
    · cases h
    · next htrunc =>
        cases h
        exact ⟨not_not.mp htrunc, rfl, rfl⟩
  · cases h

@[simp] theorem toNet_fromNet (n : IpNet) : (HostPart.fromNet n).toNet = some n := by
  unfold HostPart.fromNet
  split
  · next hfull =>
      obtain ⟨addr, len, fits⟩ := n
      obtain rfl : len = addr.family.bits := hfull
      rfl
  · rfl

theorem parseOctet_ok {o : List Char} {a : Fin 256} (h : parseOctet o = .ok a) : numberOf o = a.1 := by
  unfold parseOctet at h
  split at h
  · cases h
  · split at h
    · cases h
    · split at h
      · cases h
        rfl
      · cases h

/-- The octets that a text writes. -/
def WritesOctets (s : List Char) (a b c d : Fin 256) : Prop :=
  ∃ ta tb tc td, s.splitOn '.' = [ta, tb, tc, td] ∧ numberOf ta = a.1 ∧ numberOf tb = b.1 ∧
    numberOf tc = c.1 ∧ numberOf td = d.1

theorem parseIpv4_ok {s : List Char} {h : HostPart} (hparse : parseIpv4 outside s = .ok h) :
    ∃ text len a b c d n, splitPrefix outside s = .ok (text, len) ∧ WritesOctets text a b c d ∧
      h = .fromNet n ∧ n.trunc = n ∧ n.addr = ipv4Of a b c d ∧ n.prefixLen = len.getD 32 := by
  unfold parseIpv4 at hparse
  obtain ⟨⟨text, len⟩, hsplit, hrest⟩ := of_bind_ok hparse
  dsimp only at hrest
  split at hrest
  · next ta tb tc td hoctets =>
      obtain ⟨a, ha, hrest⟩ := of_bind_ok hrest
      obtain ⟨b, hb, hrest⟩ := of_bind_ok hrest
      obtain ⟨c, hc, hrest⟩ := of_bind_ok hrest
      obtain ⟨d, hd, hrest⟩ := of_bind_ok hrest
      obtain ⟨net, hnet, hrest⟩ := of_bind_ok hrest
      obtain ⟨htrunc, haddr, hlen⟩ := makeNet_ok hnet
      cases hrest
      exact ⟨text, len, a, b, c, d, net, hsplit, ⟨ta, tb, tc, td, hoctets, parseOctet_ok ha, parseOctet_ok hb,
        parseOctet_ok hc, parseOctet_ok hd⟩, rfl, htrunc, haddr, hlen⟩
  · cases hrest

theorem not_mapped_ipv4 {n : IpNet} {a b c d : Fin 256} (h : n.addr = ipv4Of a b c d) :
    mapped.contains n = false := by
  have hfamily : n.addr.family = .v4 := by rw [h]; rfl
  simp [IpNet.contains, hfamily, mapped]

theorem parseIpv6_ok {s : List Char} {h : HostPart} (hparse : parseIpv6 outside s = .ok h) :
    ∃ addr len value n, splitPrefix outside s = .ok (addr, len) ∧ outside.parseIpv6 addr = some value ∧
      h = .fromNet n ∧ n.trunc = n ∧ n.addr = ipv6Of value ∧ n.prefixLen = len.getD 128 ∧
      mapped.contains n = false := by
  unfold parseIpv6 at hparse
  split at hparse
  · cases hparse
  · obtain ⟨⟨addr, len⟩, hsplit, hrest⟩ := of_bind_ok hparse
    dsimp only at hrest
    split at hrest
    · cases hrest
    · next value hvalue =>
        obtain ⟨net, hnet, hrest⟩ := of_bind_ok hrest
        obtain ⟨htrunc, haddr, hlen⟩ := makeNet_ok hnet
        split at hrest
        · cases hrest
        · next hmapped =>
            cases hrest
            exact ⟨addr, len, value, net, hsplit, hvalue, rfl, htrunc, haddr, hlen,
              Bool.eq_false_iff.mpr hmapped⟩

/-- **A prefix that is let through has no host bits and is no mapped IPv4.** -/
theorem parseHost_net {s : List Char} {h : HostPart} {n : IpNet} (hparse : parseHost outside s = .ok h)
    (hnet : h.toNet = some n) : n.trunc = n ∧ mapped.contains n = false := by
  unfold parseHost at hparse
  split at hparse
  · obtain ⟨_, _, _, n', -, -, rfl, htrunc, -, -, hmapped⟩ := parseIpv6_ok hparse
    rw [toNet_fromNet] at hnet
    cases hnet
    exact ⟨htrunc, hmapped⟩
  · split at hparse
    · obtain ⟨_, _, _, _, _, _, n', -, -, rfl, htrunc, haddr, -⟩ := parseIpv4_ok hparse
      rw [toNet_fromNet] at hnet
      cases hnet
      exact ⟨htrunc, not_mapped_ipv4 haddr⟩
    · split at hparse
      · split at hparse
        · cases hparse
        · split at hparse
          · cases hparse
          · obtain ⟨_, -, rfl⟩ := of_map_ok hparse
            cases hnet
      · split at hparse
        · cases hparse
        · obtain ⟨_, -, rfl⟩ := of_map_ok hparse
          cases hnet

theorem parse_ok {raw : List Char} {e : Entry} (h : Entry.parse outside raw = .ok e) :
    ∃ host ports, splitHostPorts raw = .ok (host, ports) ∧ parsePorts outside ports = .ok e.ports ∧
      parseHost outside host = .ok e.host := by
  unfold Entry.parse at h
  split at h
  · cases h
  · next host ports hsplit =>
      split at h
      · cases h
      · next p hports =>
          split at h
          · cases h
          · next hp hhost =>
              cases h
              exact ⟨host, ports, hsplit, hports, hhost⟩

theorem covers_of_toNet {h : HostPart} {n : IpNet} (hnet : h.toNet = some n) : h.covers = n.covers := by
  ext a
  constructor
  · rintro ⟨m, hm, ha⟩
    rw [hnet] at hm
    cases hm
    exact ha
  · intro ha
    exact ⟨n, hnet, ha⟩

theorem covers_of_none {h : HostPart} (hnet : h.toNet = none) : h.covers = ∅ := by
  ext a
  constructor
  · rintro ⟨m, hm, -⟩
    rw [hnet] at hm
    cases hm
  · intro ha
    cases ha

/-- The check compares prefixes, the rule addresses. -/
theorem isGuestLoopback_iff {n : IpNet} (h : n.trunc = n) :
    isGuestLoopback n = true ↔ n.covers ⊆ guestLoopback ∨ n.covers = {localhost} := by
  unfold isGuestLoopback
  cases hfamily : n.addr.family with
  | v4 =>
      have hnot : n.covers ≠ {localhost} := by
        intro heq
        have hmem := IpNet.offset_mem h n.size_pos
        rw [heq] at hmem
        have hsame : n.addr.family = .v6 := congrArg IpAddr.family hmem
        rw [hfamily] at hsame
        cases hsame
      rw [or_iff_left hnot, ← loopback_v4 h hfamily]
      simp
  | v6 =>
      have hnot : ¬ n.covers ⊆ guestLoopback := by
        intro hsub
        have hsame : n.addr.family = .v4 := (hsub (IpNet.offset_mem h n.size_pos)).1
        rw [hfamily] at hsame
        cases hsame
      rw [or_iff_right hnot, ← loopback_v6 h hfamily]
      simp

/-- **Authored loopback is refused in every spelling.** An entry that is accepted, from whatever text, is
refused as loopback exactly when it covers addresses and all of them are in `127.0.0.0/8`, or the only one is
`::1`. What it covers is never inside `::ffff:0:0/96`; and a text in brackets whose address and length write a
prefix inside of it is rejected. -/
theorem loopback_refused (outside : Outside) (raw : List Char) :
    (∀ e, Entry.parse outside raw = .ok e →
      ((∃ reason, checkAuthorable e = .error reason) ↔ e.host.covers.Nonempty ∧
        (e.host.covers ⊆ guestLoopback ∨ e.host.covers = {localhost})) ∧
      (e.host.covers.Nonempty → ¬ e.host.covers ⊆ mapped.covers)) ∧
    ∀ (inner addr ports : List Char) (len : Option Nat) (value : Fin (2 ^ 128)) (hlen : len.getD 128 ≤ 128),
      splitHostPorts raw = .ok ('[' :: (inner ++ [']']), ports) → splitPrefix outside inner = .ok (addr, len) →
      outside.parseIpv6 addr = some value →
      IpNet.covers ⟨ipv6Of value, len.getD 128, hlen⟩ ⊆ mapped.covers →
        ∃ error, Entry.parse outside raw = .error error := by
  have hmapped : mapped.trunc = mapped := by decide
  refine ⟨fun e hparse => ?_, ?_⟩
  · obtain ⟨host, ports, -, -, hhost⟩ := parse_ok hparse
    cases hnet : e.host.toNet with
    | none =>
        rw [covers_of_none hnet]
        refine ⟨?_, fun hsome => absurd hsome Set.not_nonempty_empty⟩
        unfold checkAuthorable
        rw [hnet]
        constructor
        · rintro ⟨_, herror⟩
          cases herror
        · rintro ⟨hsome, -⟩
          exact absurd hsome Set.not_nonempty_empty
    | some n =>
        obtain ⟨htrunc, hoff⟩ := parseHost_net hhost hnet
        rw [covers_of_toNet hnet]
        refine ⟨?_, fun _ hsub => ?_⟩
        · rw [← isGuestLoopback_iff htrunc]
          unfold checkAuthorable
          rw [hnet]
          dsimp only
          constructor
          · rintro ⟨_, herror⟩
            split at herror
            · next hloop => exact ⟨IpNet.covers_nonempty htrunc, hloop⟩
            · cases herror
          · rintro ⟨-, hloop⟩
            rw [if_pos hloop]
            exact ⟨_, rfl⟩
        · have hcontains := IpNet.contains_of_subset hmapped htrunc hsub
          rw [hoff] at hcontains
          cases hcontains
  · intro inner addr ports len value hlen hraw hsplit hvalue hsub
    cases hparse : Entry.parse outside raw with
    | error error => exact ⟨error, rfl⟩
    | ok e =>
        obtain ⟨host, _, hhosts, -, hhost⟩ := parse_ok hparse
        rw [hraw] at hhosts
        cases hhosts
        have hinner : bracketsOf ('[' :: (inner ++ [']'])) = some inner := by simp [bracketsOf]
        unfold parseHost at hhost
        rw [hinner] at hhost
        obtain ⟨addr', len', value', n, hsplit', hvalue', -, htrunc, haddr, hlength, hoff⟩ :=
          parseIpv6_ok hhost
        rw [hsplit] at hsplit'
        cases hsplit'
        rw [hvalue] at hvalue'
        cases hvalue'
        obtain ⟨naddr, nlen, nfits⟩ := n
        cases haddr
        obtain rfl : nlen = len.getD 128 := hlength
        have hcontains := IpNet.contains_of_subset hmapped htrunc hsub
        rw [hoff] at hcontains
        cases hcontains

end Network
end AgentBeacon
