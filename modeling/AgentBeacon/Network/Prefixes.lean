import AgentBeacon.Network.Entry
import Mathlib.Algebra.Order.Ring.Nat

/-!
# `Network.Prefixes` — the addresses of a prefix

A prefix without host bits covers the interval that begins with its address. Its first and its last address
decide whether it lies inside another prefix.
-/

namespace AgentBeacon
namespace Network
namespace IpNet

variable {n m : IpNet}

theorem size_pos (n : IpNet) : 0 < n.size := Nat.pow_pos (by decide)

/-- The prefix has no host bits: its address is a multiple of its size. -/
theorem value_eq_of_trunc (h : n.trunc = n) : n.addr.value / n.size * n.size = n.addr.value :=
  congrArg (fun m => m.addr.value) h

theorem mem_covers (h : n.trunc = n) (a : IpAddr) : a ∈ n.covers ↔
    a.family = n.addr.family ∧ n.addr.value ≤ a.value ∧ a.value < n.addr.value + n.size := by
  have hpos := n.size_pos
  have hvalue := value_eq_of_trunc h
  have hiff : a.value / n.size = n.addr.value / n.size ↔
      n.addr.value ≤ a.value ∧ a.value < n.addr.value + n.size := by
    constructor
    · intro heq
      have hle := Nat.div_mul_le_self a.value n.size
      have hlt := Nat.lt_div_mul_add (a := a.value) hpos
      rw [heq, hvalue] at hle hlt
      exact ⟨hle, hlt⟩
    · rintro ⟨hle, hlt⟩
      refine Nat.div_eq_of_lt_le ?_ ?_
      · rw [hvalue]
        exact hle
      · rw [Nat.add_mul, Nat.one_mul, hvalue]
        exact hlt
  exact and_congr_right fun _ => hiff

/-- The interval of a prefix stays among the addresses. -/
theorem fits_of_trunc (h : n.trunc = n) : n.addr.value + n.size ≤ 2 ^ n.addr.family.bits := by
  have hvalue := value_eq_of_trunc h
  have hsplit : 2 ^ n.addr.family.bits = 2 ^ n.prefixLen * n.size := by
    rw [size, ← Nat.pow_add, Nat.add_sub_of_le n.fits]
  have hlt : n.addr.value / n.size < 2 ^ n.prefixLen := by
    rw [Nat.div_lt_iff_lt_mul n.size_pos, ← hsplit]
    exact n.addr.fits
  have hmul := Nat.mul_le_mul_right n.size (Nat.succ_le_of_lt hlt)
  rw [Nat.succ_mul, hvalue, ← hsplit] at hmul
  exact hmul

/-- The address at an offset. -/
def offset (n : IpNet) (h : n.trunc = n) (k : Nat) (hk : k < n.size) : IpAddr where
  family := n.addr.family
  value := n.addr.value + k
  fits := by
    have hfits := fits_of_trunc h
    omega

theorem offset_mem (h : n.trunc = n) {k : Nat} (hk : k < n.size) : n.offset h k hk ∈ n.covers :=
  (mem_covers h _).mpr ⟨rfl, Nat.le_add_right _ _, Nat.add_lt_add_left hk _⟩

theorem covers_nonempty (h : n.trunc = n) : n.covers.Nonempty := ⟨_, offset_mem h n.size_pos⟩

theorem networkValue_of_trunc (h : n.trunc = n) : n.networkValue = n.addr.value := value_eq_of_trunc h

/-- **`contains` is containment of the addresses.** -/
theorem contains_of_subset (hn : n.trunc = n) (hm : m.trunc = m) (h : m.covers ⊆ n.covers) :
    n.contains m = true := by
  have hpos := m.size_pos
  have hlast : m.size - 1 < m.size := by omega
  have hfirst := (mem_covers hn _).mp (h (offset_mem hm m.size_pos))
  have hend := (mem_covers hn _).mp (h (offset_mem hm hlast))
  obtain ⟨hfamily, hlow, -⟩ := hfirst
  obtain ⟨-, -, hhigh⟩ := hend
  have hfamilies : n.addr.family = m.addr.family := hfamily.symm
  have hstart : n.networkValue ≤ m.networkValue := by
    rw [networkValue_of_trunc hn, networkValue_of_trunc hm]
    simpa [offset] using hlow
  have hstop : m.broadcastValue ≤ n.broadcastValue := by
    unfold broadcastValue
    rw [networkValue_of_trunc hn, networkValue_of_trunc hm]
    have hhigh' : m.addr.value + (m.size - 1) < n.addr.value + n.size := hhigh
    omega
  simp [contains, hfamilies, hstart, hstop]

end IpNet

/-! ## Loopback -/

/-- `127.0.0.0/8`. -/
def guestLoopback : Set IpAddr := { a | a.family = .v4 ∧ a.value / 2 ^ 24 = 127 }

/-- `::1`. -/
def localhost : IpAddr := ⟨.v6, 1, by decide⟩

/-- A prefix of IPv4 lies in the loopback exactly when its first octet says so and no address leaves it. -/
theorem loopback_v4 {n : IpNet} (h : n.trunc = n) (hfamily : n.addr.family = .v4) :
    8 ≤ n.prefixLen ∧ n.addr.value / 2 ^ 24 = 127 ↔ n.covers ⊆ guestLoopback := by
  have hbits : n.addr.family.bits = 32 := by rw [hfamily]; rfl
  constructor
  · rintro ⟨hlen, hvalue⟩ a ⟨hsame, heq⟩
    -- 2 ^ 24 is a multiple of the size, so the first octet is that of the prefix
    have hpow : n.size * 2 ^ (n.prefixLen - 8) = 2 ^ 24 := by
      have hfits := n.fits
      rw [IpNet.size, hbits, ← Nat.pow_add]
      congr 1
      omega
    refine ⟨hsame.trans hfamily, ?_⟩
    rw [← hvalue, ← hpow, ← Nat.div_div_eq_div_mul, ← Nat.div_div_eq_div_mul, heq]
  · intro hsub
    have hfirst := (hsub (IpNet.offset_mem h n.size_pos)).2
    have hvalue : n.addr.value / 2 ^ 24 = 127 := by simpa [IpNet.offset] using hfirst
    refine ⟨?_, hvalue⟩
    by_contra hlen
    -- a shorter prefix has the address 2 ^ 24 further on
    have hlarge : 2 ^ 24 < n.size := by
      rw [IpNet.size, hbits]
      exact Nat.pow_lt_pow_right (by decide) (by omega)
    have hnext : (n.addr.value + 2 ^ 24) / 2 ^ 24 = 127 := (hsub (IpNet.offset_mem h hlarge)).2
    rw [Nat.add_div_right _ (by decide), hvalue] at hnext
    omega

/-- A prefix of IPv6 is the loopback exactly when it is the single address. -/
theorem loopback_v6 {n : IpNet} (h : n.trunc = n) (hfamily : n.addr.family = .v6) :
    n.prefixLen = 128 ∧ n.addr.value = 1 ↔ n.covers = {localhost} := by
  have hbits : n.addr.family.bits = 128 := by rw [hfamily]; rfl
  have hfits := n.fits
  constructor
  · rintro ⟨hlen, hvalue⟩
    have hone : n.size = 1 := by
      rw [IpNet.size, hbits, hlen]
      rfl
    ext a
    rw [IpNet.mem_covers h, Set.mem_singleton_iff, hvalue, hone, hfamily]
    constructor
    · rintro ⟨hsame, hlow, hhigh⟩
      obtain ⟨family, value, fits⟩ := a
      obtain rfl : family = .v6 := hsame
      obtain rfl : value = 1 := by
        simp only at hlow hhigh
        omega
      rfl
    · rintro rfl
      exact ⟨rfl, Nat.le_refl _, by decide⟩
  · intro heq
    have hfirst : n.offset h 0 n.size_pos = localhost := by
      have hmem := IpNet.offset_mem h n.size_pos
      rwa [heq] at hmem
    refine ⟨?_, congrArg IpAddr.value hfirst⟩
    by_contra hlen
    -- a shorter prefix has a second address
    have htwo : 1 < n.size := by
      rw [IpNet.size, hbits]
      exact Nat.one_lt_two_pow (by omega)
    have hsecond : n.offset h 1 htwo = localhost := by
      have hmem := IpNet.offset_mem h htwo
      rwa [heq] at hmem
    have hvalues := congrArg IpAddr.value (hfirst.trans hsecond.symm)
    simp [IpNet.offset] at hvalues

end Network
end AgentBeacon
