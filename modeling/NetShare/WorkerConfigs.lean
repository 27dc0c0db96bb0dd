import NetShare.NetworkAdapters
import Mathlib.Data.List.Nodup

/-!
# Which adapters the workers use, and with which ports

What `deactiveEverythingBut` leaves of the viability found by `init`, and what `generateUDPConfigs`
makes of the `int` counters when it narrows them to a port and an id.
-/

namespace NetShare

namespace NetworkAdapterList

/-! ## 1. Pairs of workers -/

/-- A sender and a receiver for the adapter, with a common port and socket. -/
structure WorkerPair (adapter : NetworkAdapter) (sender receiver : UDPWorkerConfig) : Prop where
  sends : sender.reciever = false
  receives : receiver.reciever = true
  senderAddress : sender.socketIpv4Adress = adapter.IpAdress
  receiverAddress : receiver.socketIpv4Adress = adapter.IpAdress
  port : receiver.socketPort = sender.socketPort
  socket : receiver.socket = sender.socket

/-- The configurations are one pair for each adapter, in this order. -/
def InPairs : List NetworkAdapter → List UDPWorkerConfig → Prop
  | [], [] => True
  | adapter :: adapters, sender :: receiver :: configs =>
    WorkerPair adapter sender receiver ∧ InPairs adapters configs
  | _, _ => False

/-- The adapters whose flag is set. -/
def activeAdapters (adapterList : NetworkAdapterList) : List NetworkAdapter :=
  (adapterList.filter Prod.fst).map Prod.snd

/-- The ports of the senders. -/
def senderPorts (configs : List UDPWorkerConfig) : List UInt16 :=
  (configs.filter (!·.reciever)).map (·.socketPort)

theorem initSocket_fst (outcome : InitSocketOutcome) (conf : UDPWorkerConfig) (w : Winsock) :
    ∃ socket, (initSocket outcome conf w).1 = { conf with socket } := by
  cases outcome
  case WSAStartupFails => exact ⟨conf.socket, rfl⟩
  all_goals exact ⟨_, rfl⟩

/-- What one run of the loop appends: a pair, its port twice and two ids. -/
theorem generateUDPConfigsFrom_spec (port uid : Nat) (outcomes : Nat → InitSocketOutcome)
    (adapterList : NetworkAdapterList) (w : Winsock) :
    InPairs (activeAdapters adapterList)
        (generateUDPConfigsFrom port uid outcomes adapterList w).1 ∧
      senderPorts (generateUDPConfigsFrom port uid outcomes adapterList w).1 =
        (List.range' port (activated adapterList)).map UInt16.ofNat ∧
      (generateUDPConfigsFrom port uid outcomes adapterList w).1.map (·.uid) =
        (List.range' uid (2 * activated adapterList)).map UInt8.ofNat := by
  induction adapterList generalizing port uid outcomes w with
  | nil => exact ⟨trivial, rfl, rfl⟩
  | cons entry rest ih =>
    obtain ⟨flag, adapter⟩ := entry
    rw [generateUDPConfigsFrom]
    cases flag with
    | false =>
      have hskip : activated ((false, adapter) :: rest) = activated rest :=
        List.countP_cons_of_neg Bool.false_ne_true
      rw [hskip]
      exact ih port uid outcomes w
    | true =>
      have hone : activated ((true, adapter) :: rest) = activated rest + 1 :=
        List.countP_cons_of_pos rfl
      have hactive : activeAdapters ((true, adapter) :: rest) = adapter :: activeAdapters rest :=
        rfl
      have htwice : 2 * (activated rest + 1) = 2 * activated rest + 1 + 1 := by omega
      obtain ⟨hpairs, hports, huids⟩ :=
        ih (port + 1) (uid + 2) (fun k => outcomes (k + 1)) _
      simp only [if_true]
      obtain ⟨socket, hsocket⟩ := initSocket_fst (outcomes 0)
        { reciever := false
          socketIpv4Adress := adapter.IpAdress
          socketPort := .ofNat port
          uid := .ofNat uid } w
      rw [hone, hactive, htwice, hsocket]
      refine ⟨⟨⟨rfl, rfl, rfl, rfl, rfl, rfl⟩, hpairs⟩, ?_, ?_⟩
      · rw [List.range'_succ]
        exact congrArg (UInt16.ofNat port :: ·) hports
      · rw [List.range'_succ, List.range'_succ]
        exact congrArg (UInt8.ofNat uid :: UInt8.ofNat (uid + 1) :: ·) huids

/-! ## 2. Ports and ids -/

-- Narrowing is one-to-one on numbers that fit.
theorem nodup_map_range' {α : Type} {ofNat : Nat → α} {toNat : α → Nat} {bound start n : Nat}
    (hback : ∀ {z}, z < bound → toNat (ofNat z) = z) (h : start + n ≤ bound) :
    ((List.range' start n).map ofNat).Nodup := by
  apply List.Nodup.map_on ?_ List.nodup_range'
  intro x hx y hy hxy
  have hlt (z : Nat) (hz : z ∈ List.range' start n) : toNat (ofNat z) = z := by
    have := List.mem_range'_1.mp hz
    exact hback (by omega)
  rw [← hlt x hx, ← hlt y hy, hxy]

/-- No port among `n` from 65530 on wraps to 0 exactly if there are at most six. -/
theorem zero_mem_ports (n : Nat) : 0 ∈ (List.range' 65530 n).map UInt16.ofNat ↔ 6 < n := by
  constructor
  · intro h
    obtain ⟨z, hz, hzero⟩ := List.mem_map.mp h
    have hrange := List.mem_range'_1.mp hz
    by_contra hn
    have hsame : (UInt16.ofNat z).toNat = z :=
      UInt16.toNat_ofNat_of_lt' (by show z < 2 ^ 16; omega)
    rw [hzero] at hsame
    have hz0 : z = 0 := hsame.symm
    omega
  · intro h
    apply List.mem_map.mpr
    refine ⟨65536, List.mem_range'_1.mpr ⟨by omega, by omega⟩, rfl⟩

/-- One sender and one receiver for each activated adapter, with ports other than 0, all ports and
all ids different. -/
structure ProperConfigs (adapterList : NetworkAdapterList) (configs : List UDPWorkerConfig) :
    Prop where
  length : configs.length = 2 * activated adapterList
  pairs : InPairs (activeAdapters adapterList) configs
  portsNonzero : 0 ∉ senderPorts configs
  portsDistinct : (senderPorts configs).Nodup
  uidsDistinct : (configs.map (·.uid)).Nodup

/-- **The configurations are proper exactly if at most six adapters are activated**: the port of the
seventh is 0. -/
theorem generateUDPConfigs_proper_iff (outcomes : Nat → InitSocketOutcome)
    (adapterList : NetworkAdapterList) (w : Winsock) :
    ProperConfigs adapterList (generateUDPConfigs outcomes adapterList w).1 ↔
      activated adapterList ≤ 6 := by
  obtain ⟨hpairs, hports, huids⟩ := generateUDPConfigsFrom_spec 65530 0 outcomes adapterList w
  have hlength := (generateUDPConfigsFrom_opens 65530 0 outcomes adapterList w).1
  constructor
  · intro h
    have hnonzero := h.portsNonzero
    rw [generateUDPConfigs, hports, zero_mem_ports] at hnonzero
    omega
  · intro h
    constructor
    case length => exact hlength
    case pairs => exact hpairs
    case portsNonzero =>
      rw [generateUDPConfigs, hports, zero_mem_ports]
      omega
    case portsDistinct =>
      rw [generateUDPConfigs, hports]
      have hfit : 65530 + activated adapterList ≤ 2 ^ 16 := by omega
      exact nodup_map_range' UInt16.toNat_ofNat_of_lt' hfit
    case uidsDistinct =>
      rw [generateUDPConfigs, huids]
      have hfit : 0 + 2 * activated adapterList ≤ 2 ^ 8 := by omega
      exact nodup_map_range' UInt8.toNat_ofNat_of_lt' hfit

/-- Seven adapters that are all activated. -/
def sevenAdapters : NetworkAdapterList :=
  [1, 2, 3, 4, 5, 6, 7].map fun n => (true, ⟨[n], ⟨10, 0, 0, n⟩⟩)

theorem sevenAdapters_notProper :
    ¬ ∀ (outcomes : Nat → InitSocketOutcome) (adapterList : NetworkAdapterList) (w : Winsock),
      ProperConfigs adapterList (generateUDPConfigs outcomes adapterList w).1 := by
  intro hclaim
  let w : Winsock := ⟨0, 0, 0, 0, [], fun _ hs => absurd hs List.not_mem_nil⟩
  have hnonzero := (hclaim (fun _ => .succeeds) sevenAdapters w).portsNonzero
  have hports := (generateUDPConfigsFrom_spec 65530 0 (fun _ => .succeeds) sevenAdapters w).2.1
  rw [generateUDPConfigs, hports] at hnonzero
  exact hnonzero (by decide)

/-! ## 3. The adapters in use -/

/-- The adapters that are both configured and up. -/
def configuredAndUp (names : List (List UInt8)) (adapters : List NetworkAdapter) :
    List NetworkAdapter :=
  adapters.filter fun adapter => decide (adapter.Name ∈ names) && isViable adapter

/-- After `init` and `deactiveEverythingBut(names)`, the activated adapters are those that are both
configured and up, and both readers of the flags see exactly these. -/
structure UsesConfiguredAndUp (names : List (List UInt8)) (adapters : List NetworkAdapter) :
    Prop where
  flags : ∀ entry ∈ deactiveEverythingBut names (init adapters),
    entry.1 = true ↔ entry.2.Name ∈ names ∧ isViable entry.2 = true
  activates : hasActivatedNetworkAdapters (deactiveEverythingBut names (init adapters)) = true ↔
    configuredAndUp names adapters ≠ []
  generates : ∀ outcomes w, InPairs (configuredAndUp names adapters)
    (generateUDPConfigs outcomes (deactiveEverythingBut names (init adapters)) w).1

-- The second pass keeps nothing of the first.
theorem deactiveEverythingBut_init (names : List (List UInt8)) (adapters : List NetworkAdapter) :
    deactiveEverythingBut names (init adapters) =
      adapters.map fun adapter => (decide (adapter.Name ∈ names), adapter) := by
  rw [deactiveEverythingBut, init, List.map_map]
  apply List.map_congr_left
  intro adapter _
  show (names.any fun name => name == adapter.Name, adapter) = _
  rw [Prod.mk.injEq]
  refine ⟨?_, rfl⟩
  rw [Bool.eq_iff_iff, List.any_eq_true, decide_eq_true_eq]
  simp only [beq_iff_eq, exists_eq_right]

theorem activeAdapters_map (flag : NetworkAdapter → Bool) (adapters : List NetworkAdapter) :
    activeAdapters (adapters.map fun adapter => (flag adapter, adapter)) =
      adapters.filter flag := by
  rw [activeAdapters, List.filter_map, List.map_map]
  exact List.map_id _

/-- **Exactly the adapters that are both configured and up are used if and only if all configured
ones are up.** -/
theorem usesConfiguredAndUp_iff (names : List (List UInt8)) (adapters : List NetworkAdapter) :
    UsesConfiguredAndUp names adapters ↔
      ∀ adapter ∈ adapters, adapter.Name ∈ names → isViable adapter = true := by
  constructor
  · intro h adapter hmem hname
    have hentry : (decide (adapter.Name ∈ names), adapter) ∈
        deactiveEverythingBut names (init adapters) := by
      rw [deactiveEverythingBut_init]
      exact List.mem_map.mpr ⟨adapter, hmem, rfl⟩
    exact ((h.flags _ hentry).mp (decide_eq_true hname)).2
  · intro h
    have hlist : configuredAndUp names adapters =
        activeAdapters (deactiveEverythingBut names (init adapters)) := by
      rw [deactiveEverythingBut_init, activeAdapters_map, configuredAndUp]
      apply List.filter_congr
      intro adapter hmem
      by_cases hname : adapter.Name ∈ names
      · rw [h adapter hmem hname, Bool.and_true]
      · rw [decide_eq_false hname, Bool.false_and]
    constructor
    case flags =>
      intro entry hentry
      rw [deactiveEverythingBut_init] at hentry
      obtain ⟨adapter, hmem, rfl⟩ := List.mem_map.mp hentry
      rw [decide_eq_true_eq]
      exact ⟨fun hname => ⟨hname, h adapter hmem hname⟩, And.left⟩
    case activates =>
      rw [hlist, activeAdapters, hasActivatedNetworkAdapters, List.any_eq_true, Ne,
        List.map_eq_nil_iff, List.filter_eq_nil_iff]
      push Not
      rfl
    case generates =>
      intro outcomes w
      rw [hlist]
      exact (generateUDPConfigsFrom_spec 65530 0 outcomes _ w).1

/-- An adapter that is configured but has no address. -/
def downAdapter : NetworkAdapter := ⟨[65], ⟨0, 0, 0, 0⟩⟩

theorem downAdapter_activated : ¬ UsesConfiguredAndUp [[65]] [downAdapter] := by
  intro h
  have hentry : (true, downAdapter) ∈ deactiveEverythingBut [[65]] (init [downAdapter]) := by
    decide
  exact absurd ((h.flags _ hentry).mp rfl).2 (by decide)

end NetworkAdapterList

end NetShare
