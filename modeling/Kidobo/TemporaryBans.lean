import Kidobo.Foundation.SortedMap
import Kidobo.Network.Types

/-!
# Temporary bans

Operator-managed ban records with absolute Unix deadlines, kept in key order.

## Main definitions

* `TemporaryBans`: canonical networks and ASNs with their deadlines
* `TemporaryBans.activeIps`, `TemporaryBans.activeAsns`, `TemporaryBans.pruneExpired`
* `BanDuration.expiresAt`: checked deadline arithmetic
-/

namespace Kidobo

open Foundation

/-- The largest deadline of the persistent format. -/
def maxExpiry : ℕ := 2 ^ 63 - 1

/-- A validated positive duration expressed in whole hours or days. -/
structure BanDuration where
  seconds : ℕ
  positive : 0 < seconds
  bounded : seconds ≤ maxExpiry

/-- `expires_at`: the deadline, when the persistent format can represent it. -/
def BanDuration.expiresAt (duration : BanDuration) (now : ℕ) : Except String ℕ :=
  let deadline := now + duration.seconds
  if deadline ≤ maxExpiry ∧ 0 < deadline then .ok deadline
  else .error
    "temporary ban expiry must be a positive Unix timestamp within the signed 64-bit range"

/-- Persistent identities and absolute Unix deadlines, without network collapse. -/
@[ext] structure TemporaryBans where
  ips : SortedMap CanonicalCidr ℕ
  asns : SortedMap ℕ ℕ

namespace TemporaryBans

/-- No records at all. -/
def empty : TemporaryBans := ⟨.empty, .empty⟩

/-- Networks whose deadlines are strictly later than the cutoff. -/
def activeIps (bans : TemporaryBans) (cutoff : ℕ) : List CanonicalCidr :=
  bans.ips.entries.filterMap fun entry => if cutoff < entry.2 then some entry.1 else none

/-- ASNs whose deadlines are strictly later than the cutoff. -/
def activeAsns (bans : TemporaryBans) (cutoff : ℕ) : List ℕ :=
  bans.asns.entries.filterMap fun entry => if cutoff < entry.2 then some entry.1 else none

/-- Remove expired entries. -/
def pruned (bans : TemporaryBans) (cutoff : ℕ) : TemporaryBans where
  ips := bans.ips.retain fun _ expiry => cutoff < expiry
  asns := bans.asns.retain fun _ expiry => cutoff < expiry

/-- Remove expired entries and tell whether any record was removed. -/
def pruneExpired (bans : TemporaryBans) (cutoff : ℕ) : TemporaryBans × Bool :=
  let after := bans.pruned cutoff
  (after, (bans.ips.entries.length, bans.asns.entries.length) !=
    (after.ips.entries.length, after.asns.entries.length))

end TemporaryBans

end Kidobo
