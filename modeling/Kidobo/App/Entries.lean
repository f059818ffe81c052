import Kidobo.App.Ports
import Kidobo.Network.Effective

/-!
# Kernel entries

The minimal effective networks become kernel entries: a whole-family network is
split into its two halves, because the kernel sets cannot represent it. The
same entries are counted against the capacity and handed to the replacement.

## Main definitions

* `prepareEnforcementEntries`, `ensureWithinCapacity`, `prepareSyncEntries`

## Main results

* `prepareSyncEntries_eq_ok_iff`: preparation succeeds exactly within capacity
-/

namespace Kidobo

open Foundation

/-- Kernel entries and network counts after the capacity preflight. -/
structure PreparedSyncEntries where
  ipv4 : List CanonicalCidr
  ipv6 : List CanonicalCidr
  ipv4Networks : ℕ
  ipv6Networks : ℕ

/-- The two halves of a whole address family. -/
def familyHalves (width : ℕ) (positive : 1 ≤ width) : List (Cidr width) :=
  [Cidr.fromParts (BitVec.ofNat width 0) 1 positive,
    Cidr.fromParts (BitVec.ofNat width 1 <<< (width - 1)) 1 positive]

/-- The kernel entries of one network. -/
def kernelEntries : CanonicalCidr → List CanonicalCidr
  | .v4 cidr =>
    if cidr.prefixLen = 0 then (familyHalves 32 (by decide)).map .v4 else [.v4 cidr]
  | .v6 cidr =>
    if cidr.prefixLen = 0 then (familyHalves 128 (by decide)).map .v6 else [.v6 cidr]

/-- `prepare_enforcement_entries`. -/
def prepareEnforcementEntries (entries : List CanonicalCidr) : List CanonicalCidr :=
  entries.flatMap kernelEntries

/-- The operator-visible label of a family. -/
def AddressFamily.label : AddressFamily → String
  | ipv4 => "ipv4"
  | ipv6 => "ipv6"

/-- `ensure_within_capacity`. -/
def ensureWithinCapacity (spec : ManagedSetSpec) (entries : ℕ) : Except AppError Unit :=
  if entries ≤ spec.maxelem then .ok ()
  else .error (.ipsetCapacityExceeded spec.family.label spec.setName entries spec.maxelem)

/-- The IPv4 kernel entries of effective blocklists. -/
def ipv4KernelEntries (effective : EffectiveBlocklists) : List CanonicalCidr :=
  prepareEnforcementEntries (effective.ipv4.map .v4)

/-- The IPv6 kernel entries of effective blocklists. -/
def ipv6KernelEntries (effective : EffectiveBlocklists) : List CanonicalCidr :=
  prepareEnforcementEntries (effective.ipv6.map .v6)

/-- `prepare_sync_entries`. The IPv6 count is checked first. -/
def prepareSyncEntries (effective : EffectiveBlocklists) (plan : EnforcementPlan) :
    Except AppError PreparedSyncEntries := do
  let ipv4 := ipv4KernelEntries effective
  let ipv6 := ipv6KernelEntries effective
  if plan.enableIpv6 then ensureWithinCapacity plan.ipv6 ipv6.length
  ensureWithinCapacity plan.ipv4 ipv4.length
  return ⟨ipv4, ipv6, effective.ipv4.length, effective.ipv6.length⟩

@[simp] theorem ensureWithinCapacity_eq_ok_iff {spec : ManagedSetSpec} {entries : ℕ} {done : Unit} :
    ensureWithinCapacity spec entries = .ok done ↔ entries ≤ spec.maxelem := by
  unfold ensureWithinCapacity
  split_ifs with fits <;> simp [fits]

/-- Preparation succeeds exactly when every enabled family fits its set, and
then returns the kernel entries that were counted. -/
theorem prepareSyncEntries_eq_ok_iff {effective : EffectiveBlocklists} {plan : EnforcementPlan}
    {entries : PreparedSyncEntries} :
    prepareSyncEntries effective plan = .ok entries ↔
      (plan.enableIpv6 = true → (ipv6KernelEntries effective).length ≤ plan.ipv6.maxelem) ∧
        (ipv4KernelEntries effective).length ≤ plan.ipv4.maxelem ∧
        entries = ⟨ipv4KernelEntries effective, ipv6KernelEntries effective,
          effective.ipv4.length, effective.ipv6.length⟩ := by
  unfold prepareSyncEntries ensureWithinCapacity
  by_cases enabled : plan.enableIpv6 = true <;>
    by_cases ipv6Fits : (ipv6KernelEntries effective).length ≤ plan.ipv6.maxelem <;>
      by_cases ipv4Fits : (ipv4KernelEntries effective).length ≤ plan.ipv4.maxelem <;>
        simp [enabled, ipv6Fits, ipv4Fits, bind, Except.bind, pure, Except.pure, eq_comm]

end Kidobo
