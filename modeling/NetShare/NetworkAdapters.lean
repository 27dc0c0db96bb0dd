import NetShare.UdpSockets
import Mathlib.Data.List.Count
import Mathlib.Data.List.Range

/-!
# The network adapters

`NetworkAdapterList` from `NetworkAdapterList.h`: which adapters are activated, and a sender and a
receiver with a common socket for each of them.
-/

namespace NetShare

/-- `NetworkAdapter` without its description; a name is its bytes, without the terminator. -/
structure NetworkAdapter where
  Name : List UInt8
  IpAdress : NsIpAddress
deriving DecidableEq

/-- The adapters with their flags. -/
abbrev NetworkAdapterList : Type := List (Bool × NetworkAdapter)

namespace NetworkAdapterList

/-! ## 1. Which adapters are activated -/

def isViable (adapter : NetworkAdapter) : Bool := adapter.IpAdress != ⟨0, 0, 0, 0⟩

/-- `init`, where the system lists these adapters. -/
def init (adapters : List NetworkAdapter) : NetworkAdapterList :=
  adapters.map fun adapter => (isViable adapter, adapter)

/-- `deactiveEverythingBut`.  It sets the flag of an adapter to whether its name is one of these. -/
def deactiveEverythingBut (names : List (List UInt8)) (adapterList : NetworkAdapterList) :
    NetworkAdapterList :=
  adapterList.map fun (_, adapter) => (names.any fun name => name == adapter.Name, adapter)

def hasActivatedNetworkAdapters (adapterList : NetworkAdapterList) : Bool :=
  adapterList.any Prod.fst

def activated (adapterList : NetworkAdapterList) : Nat := adapterList.countP Prod.fst

theorem hasActivatedNetworkAdapters_eq (adapterList : NetworkAdapterList) :
    hasActivatedNetworkAdapters adapterList = !decide (activated adapterList = 0) := by
  rw [Bool.eq_iff_iff, hasActivatedNetworkAdapters, List.any_eq_true, Bool.not_eq_true',
    decide_eq_false_iff_not, activated, List.countP_eq_zero]
  simp

/-! ## 2. The configurations of the workers -/

/-- The loop of `generateUDPConfigs`; `outcomes` are those of the `initSocket` calls to come. -/
def generateUDPConfigsFrom (port uid : Nat) (outcomes : Nat → InitSocketOutcome) :
    NetworkAdapterList → Winsock → List UDPWorkerConfig × Winsock
  | [], w => ([], w)
  | (activated, adapter) :: rest, w =>
    if activated then
      let sconf : UDPWorkerConfig := {
        reciever := false
        socketIpv4Adress := adapter.IpAdress
        socketPort := .ofNat port
        uid := .ofNat uid }
      let rconf : UDPWorkerConfig := {
        reciever := true
        socketIpv4Adress := adapter.IpAdress
        socketPort := .ofNat port
        uid := .ofNat (uid + 1) }
      let (sconf, w) := initSocket (outcomes 0) sconf w
      let rconf := { rconf with socket := sconf.socket }
      let (configs, w) :=
        generateUDPConfigsFrom (port + 1) (uid + 2) (fun k => outcomes (k + 1)) rest w
      (sconf :: rconf :: configs, w)
    else generateUDPConfigsFrom port uid outcomes rest w

def generateUDPConfigs (outcomes : Nat → InitSocketOutcome) (adapterList : NetworkAdapterList)
    (w : Winsock) : List UDPWorkerConfig × Winsock :=
  generateUDPConfigsFrom 65530 0 outcomes adapterList w

/-- How many of the first `n` calls succeed. -/
def succeeding (outcomes : Nat → InitSocketOutcome) (n : Nat) : Nat :=
  (List.range n).countP fun k => outcomes k = .succeeds

theorem succeeding_succ (outcomes : Nat → InitSocketOutcome) (n : Nat) :
    succeeding outcomes (n + 1) =
      (if outcomes 0 = .succeeds then 1 else 0) + succeeding (fun k => outcomes (k + 1)) n := by
  rw [succeeding, List.range_succ_eq_map, List.countP_cons, List.countP_map, Nat.add_comm]
  simp only [decide_eq_true_eq]
  rfl

/-- **`generateUDPConfigs` leaves one socket and one start-up for each call that succeeds**, and two
configurations for each activated adapter in any case. -/
theorem generateUDPConfigsFrom_opens (port uid : Nat) (outcomes : Nat → InitSocketOutcome)
    (adapterList : NetworkAdapterList) (w : Winsock) :
    (generateUDPConfigsFrom port uid outcomes adapterList w).1.length =
        2 * activated adapterList ∧
      Opens (succeeding outcomes (activated adapterList)) w
        (generateUDPConfigsFrom port uid outcomes adapterList w).2 := by
  induction adapterList generalizing port uid outcomes w with
  | nil => exact ⟨rfl, .refl w⟩
  | cons entry rest ih =>
    obtain ⟨flag, adapter⟩ := entry
    rw [generateUDPConfigsFrom]
    cases flag with
    | false =>
      have hskip : activated ((false, adapter) :: rest) = activated rest :=
        List.countP_cons_of_neg Bool.false_ne_true
      rw [hskip]
      exact ih port uid outcomes w
    | true =>
      have hone : activated ((true, adapter) :: rest) = activated rest + 1 :=
        List.countP_cons_of_pos rfl
      obtain ⟨hlength, hrest⟩ := ih (port + 1) (uid + 2) (fun k => outcomes (k + 1)) _
      rw [hone, succeeding_succ]
      refine ⟨?_, (initSocket_opens (outcomes 0) _ w).trans hrest⟩
      simp only [if_true, List.length_cons, hlength]
      omega

end NetworkAdapterList

end NetShare
