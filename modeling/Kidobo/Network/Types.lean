import Mathlib

/-!
# Canonical, family-aware CIDR value types

An address of a family is a machine word: 32 bits for IPv4 and 128 bits for
IPv6. The masks and networks of the two families are one definition over the
width. A network carries the proof that its prefix length is in range and that
its host bits are clear, so a non-canonical network cannot be built.

## Main definitions

* `hostMask`, `networkMask`: `ipv4_host_mask`, `ipv4_mask` and their IPv6 twins
* `Cidr`, `Ipv4Cidr`, `Ipv6Cidr`, `CanonicalCidr`
* `Cidr.fromParts`, `Cidr.new`
* `splitByFamily`
-/

namespace Kidobo

/-- IP address family used to keep IPv4 and IPv6 processing separate. -/
inductive AddressFamily where
  | ipv4
  | ipv6
  deriving DecidableEq, Repr

/-- `MAX >> prefix`, or zero once the shift reaches the word width. -/
def hostMask (width prefixLen : ℕ) : BitVec width :=
  if prefixLen < width then BitVec.allOnes width >>> prefixLen else BitVec.ofNat width 0

/-- The complement of the host mask. -/
def networkMask (width prefixLen : ℕ) : BitVec width := ~~~hostMask width prefixLen

theorem toNat_hostMask {width prefixLen : ℕ} (small : prefixLen ≤ width) :
    (hostMask width prefixLen).toNat = 2 ^ (width - prefixLen) - 1 := by
  unfold hostMask
  split_ifs with inside
  · rw [BitVec.toNat_ushiftRight, BitVec.toNat_allOnes, Nat.shiftRight_eq_div_pow]
    have split : 2 ^ width = 2 ^ (width - prefixLen) * 2 ^ prefixLen := by
      rw [← pow_add, Nat.sub_add_cancel small]
    have positive : 0 < 2 ^ prefixLen := Nat.two_pow_pos prefixLen
    have onePositive : 1 ≤ 2 ^ (width - prefixLen) := Nat.one_le_two_pow
    rw [split, Nat.div_eq_of_lt_le]
    · rw [Nat.sub_mul, one_mul]
      exact Nat.sub_le_sub_left positive _
    · rw [Nat.sub_add_cancel onePositive]
      exact Nat.sub_lt (by positivity) Nat.one_pos
  · obtain rfl : prefixLen = width := by omega
    simp

/-- The host part of an address is its remainder by the block size. -/
theorem toNat_and_hostMask {width prefixLen : ℕ} (small : prefixLen ≤ width)
    (address : BitVec width) :
    (address &&& hostMask width prefixLen).toNat = address.toNat % 2 ^ (width - prefixLen) := by
  rw [BitVec.toNat_and, toNat_hostMask small, Nat.and_two_pow_sub_one_eq_mod]

/-- Canonical network of a family with `width`-bit addresses. -/
structure Cidr (width : ℕ) where
  network : BitVec width
  prefixLen : ℕ
  inRange : prefixLen ≤ width
  canonical : network &&& hostMask width prefixLen = BitVec.ofNat width 0

/-- Canonical IPv4 network and prefix length. -/
abbrev Ipv4Cidr := Cidr 32

/-- Canonical IPv6 network and prefix length. -/
abbrev Ipv6Cidr := Cidr 128

namespace Cidr

variable {width : ℕ}

@[ext] theorem ext {left right : Cidr width} (network : left.network = right.network)
    (prefixLen : left.prefixLen = right.prefixLen) : left = right := by
  cases left
  cases right
  simp_all

/-- Clear the host bits of an address. -/
def fromParts (network : BitVec width) (prefixLen : ℕ) (inRange : prefixLen ≤ width) :
    Cidr width where
  network := network &&& networkMask width prefixLen
  prefixLen := prefixLen
  inRange := inRange
  canonical := by
    rw [networkMask, BitVec.and_assoc, BitVec.and_comm (~~~_)]
    ext i
    simp

/-- Construct a canonical network, rejecting a prefix length beyond the width. -/
def new (address : BitVec width) (prefixLen : ℕ) : Option (Cidr width) :=
  if inRange : prefixLen ≤ width then some (fromParts address prefixLen inRange) else none

@[simp] theorem prefixLen_fromParts (network : BitVec width) (prefixLen : ℕ)
    (inRange : prefixLen ≤ width) : (fromParts network prefixLen inRange).prefixLen = prefixLen :=
  rfl

/-- An aligned address is its own network. -/
theorem network_fromParts_of_aligned {network : BitVec width} {prefixLen : ℕ}
    (inRange : prefixLen ≤ width)
    (aligned : network &&& hostMask width prefixLen = BitVec.ofNat width 0) :
    (fromParts network prefixLen inRange).network = network := by
  change network &&& ~~~hostMask width prefixLen = network
  ext i bound
  have bit := congrArg (fun word => word.getLsbD i) aligned
  simp only [BitVec.getLsbD_and, BitVec.getLsbD_zero] at bit
  simp only [BitVec.getElem_and, BitVec.getElem_not]
  rw [BitVec.getLsbD_eq_getElem bound, BitVec.getLsbD_eq_getElem bound] at bit
  revert bit
  cases network[i] <;> cases (hostMask width prefixLen)[i] <;> simp

/-- A network is a multiple of its block size. -/
theorem blockSize_dvd (cidr : Cidr width) : 2 ^ (width - cidr.prefixLen) ∣ cidr.network.toNat := by
  have clear := congrArg BitVec.toNat cidr.canonical
  rw [toNat_and_hostMask cidr.inRange] at clear
  exact Nat.dvd_of_mod_eq_zero (by simpa using clear)

/-- The order of networks: by address, then by prefix length. -/
def orderKey (cidr : Cidr width) : ℕ ×ₗ ℕ := toLex (cidr.network.toNat, cidr.prefixLen)

theorem orderKey_injective : Function.Injective (@orderKey width) := by
  intro left right same
  simp only [orderKey, EmbeddingLike.apply_eq_iff_eq, Prod.mk.injEq] at same
  exact Cidr.ext (BitVec.eq_of_toNat_eq same.1) same.2

instance : LinearOrder (Cidr width) := LinearOrder.lift' orderKey orderKey_injective

theorem lt_of_network_lt {left right : Cidr width}
    (before : left.network.toNat < right.network.toNat) : left < right :=
  Prod.Lex.toLex_lt_toLex.mpr (Or.inl before)

end Cidr

/-- Canonical IPv4 or IPv6 network. -/
inductive CanonicalCidr where
  | v4 (cidr : Ipv4Cidr)
  | v6 (cidr : Ipv6Cidr)

namespace CanonicalCidr

/-- The CIDR's address family. -/
def family : CanonicalCidr → AddressFamily
  | v4 _ => .ipv4
  | v6 _ => .ipv6

/-- The order of networks: IPv4 before IPv6, then by network. -/
def orderKey : CanonicalCidr → ℕ ×ₗ (ℕ ×ₗ ℕ)
  | v4 cidr => toLex (0, cidr.orderKey)
  | v6 cidr => toLex (1, cidr.orderKey)

theorem orderKey_injective : Function.Injective orderKey := by
  rintro (left | left) (right | right) same <;>
    simp only [orderKey, EmbeddingLike.apply_eq_iff_eq, Prod.mk.injEq] at same
  · rw [Cidr.orderKey_injective same.2]
  · exact absurd same.1 (by decide)
  · exact absurd same.1 (by decide)
  · rw [Cidr.orderKey_injective same.2]

instance : LinearOrder CanonicalCidr := LinearOrder.lift' orderKey orderKey_injective

instance : LawfulBEq CanonicalCidr := inferInstance

@[simp] theorem v4_lt_v4 {left right : Ipv4Cidr} : v4 left < v4 right ↔ left < right := by
  change toLex (0, left.orderKey) < toLex (0, right.orderKey) ↔ left.orderKey < right.orderKey
  simp [Prod.Lex.toLex_lt_toLex]

@[simp] theorem v6_lt_v6 {left right : Ipv6Cidr} : v6 left < v6 right ↔ left < right := by
  change toLex (1, left.orderKey) < toLex (1, right.orderKey) ↔ left.orderKey < right.orderKey
  simp [Prod.Lex.toLex_lt_toLex]

theorem v4_lt_v6 (left : Ipv4Cidr) (right : Ipv6Cidr) : v4 left < v6 right :=
  Prod.Lex.toLex_lt_toLex.mpr (Or.inl Nat.zero_lt_one)

end CanonicalCidr

/-- CIDR vectors separated by address family. -/
structure FamilyCidrs where
  ipv4 : List Ipv4Cidr
  ipv6 : List Ipv6Cidr

/-- Separate canonical CIDRs into independent families, keeping their order. -/
def splitByFamily : List CanonicalCidr → FamilyCidrs
  | [] => ⟨[], []⟩
  | .v4 cidr :: rest => { splitByFamily rest with ipv4 := cidr :: (splitByFamily rest).ipv4 }
  | .v6 cidr :: rest => { splitByFamily rest with ipv6 := cidr :: (splitByFamily rest).ipv6 }

theorem splitByFamily_append (ipv4 : List Ipv4Cidr) (ipv6 : List Ipv6Cidr) :
    splitByFamily (ipv4.map CanonicalCidr.v4 ++ ipv6.map CanonicalCidr.v6) = ⟨ipv4, ipv6⟩ := by
  have sixes : splitByFamily (ipv6.map CanonicalCidr.v6) = ⟨[], ipv6⟩ := by
    induction ipv6 with
    | nil => rfl
    | cons cidr rest ih => rw [List.map_cons, splitByFamily, ih]
  induction ipv4 with
  | nil => exact sixes
  | cons cidr rest ih => rw [List.map_cons, List.cons_append, splitByFamily, ih]

@[simp] theorem mem_splitByFamily_ipv4 {cidr : Ipv4Cidr} {cidrs : List CanonicalCidr} :
    cidr ∈ (splitByFamily cidrs).ipv4 ↔ CanonicalCidr.v4 cidr ∈ cidrs := by
  induction cidrs with
  | nil => simp [splitByFamily]
  | cons head rest ih => cases head <;> simp [splitByFamily, ih]

@[simp] theorem mem_splitByFamily_ipv6 {cidr : Ipv6Cidr} {cidrs : List CanonicalCidr} :
    cidr ∈ (splitByFamily cidrs).ipv6 ↔ CanonicalCidr.v6 cidr ∈ cidrs := by
  induction cidrs with
  | nil => simp [splitByFamily]
  | cons head rest ih => cases head <;> simp [splitByFamily, ih]

end Kidobo
