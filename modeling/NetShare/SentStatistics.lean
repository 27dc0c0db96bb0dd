import NetShare.SessionBatches
import NetShare.Statistics

/-!
# What the senders count

A sender reports every packet to the statistics right after its `sendto`, before it looks at the
result.  So the counters of a session have the refused and the failed calls in them.
-/

namespace NetShare

open Reasoning

variable {α : Type} {n : Nat}

/-! ## 1. Sent, reported and failed -/

/-- The packet that has been handed to `sendto` and not reported yet, by its size. -/
def SenderPc.unreported (packetSize : α → Nat) : SenderPc α → Multiset Nat
  | .sent packet _ idx _ => (packet.element idx).elim 0 fun p => {packetSize p}
  | _ => 0

namespace OutgoingPath

/-- The statistics after the calls of `udpPacketSent` so far. -/
def stats (o : OutgoingPath α n) : Statistics :=
  o.statsSent.foldl (fun stats (bits : Nat) => stats.udpPacketSent bits) {}

def unreported (packetSize : α → Nat) (o : OutgoingPath α n) : Multiset Nat :=
  ∑ i, (o.senders i).unreported packetSize

/-- Between the two, what was reported or is about to be is what was sent and these failures. -/
def Reports (packetSize : α → Nat) (o o' : OutgoingPath α n) (failed : Multiset Nat) : Prop :=
  (o'.statsSent : Multiset Nat) + o'.unreported packetSize + ↑(o.sent.map packetSize) =
    (o.statsSent : Multiset Nat) + o.unreported packetSize + ↑(o'.sent.map packetSize) + failed

theorem Reports.trans {packetSize : α → Nat} {o o₁ o₂ : OutgoingPath α n}
    {failed failed' : Multiset Nat} (h : Reports packetSize o o₁ failed)
    (h' : Reports packetSize o₁ o₂ failed') : Reports packetSize o o₂ (failed + failed') := by
  unfold Reports at h h' ⊢
  generalize (o.statsSent : Multiset Nat) + o.unreported packetSize = reported at h ⊢
  generalize (o₁.statsSent : Multiset Nat) + o₁.unreported packetSize = reported₁ at h h'
  generalize (o₂.statsSent : Multiset Nat) + o₂.unreported packetSize = reported₂ at h' ⊢
  generalize (↑(o₁.sent.map packetSize) : Multiset Nat) = sent₁ at h h'
  apply add_right_cancel (b := reported₁ + sent₁)
  calc reported₂ + ↑(o.sent.map packetSize) + (reported₁ + sent₁)
      = reported₂ + sent₁ + (reported₁ + ↑(o.sent.map packetSize)) := by abel
    _ = reported₁ + ↑(o₂.sent.map packetSize) + failed' + (reported + sent₁ + failed) := by
        rw [h, h']
    _ = reported + ↑(o₂.sent.map packetSize) + (failed + failed') + (reported₁ + sent₁) := by abel

-- A thread that moves changes what is unreported by its own share.
theorem unreported_setSender (packetSize : α → Nat) (o : OutgoingPath α n) (i : Fin n)
    (pc : SenderPc α) :
    (o.setSender i pc).unreported packetSize + (o.senders i).unreported packetSize =
      o.unreported packetSize + pc.unreported packetSize :=
  sum_update_add (SenderPc.unreported packetSize) o.senders i pc

theorem Reports.refl (packetSize : α → Nat) {o o' : OutgoingPath α n}
    (hsenders : o'.senders = o.senders) (hsent : o'.sent = o.sent)
    (hstats : o'.statsSent = o.statsSent) : Reports packetSize o o' 0 := by
  unfold Reports unreported
  rw [hsenders, hsent, hstats, add_zero]

-- A sender that moves between two control points at which it owes no report.
theorem Reports.moved {packetSize : α → Nat} {o o' : OutgoingPath α n} {i : Fin n}
    {pc pc' : SenderPc α} (hpc : o.senders i = pc) (hbefore : pc.unreported packetSize = 0)
    (hafter : pc'.unreported packetSize = 0)
    (hsenders : o'.senders = (o.setSender i pc').senders) (hsent : o'.sent = o.sent)
    (hstats : o'.statsSent = o.statsSent) : Reports packetSize o o' 0 := by
  have hsum := unreported_setSender packetSize o i pc'
  rw [hpc, hbefore, hafter, add_zero, add_zero] at hsum
  unfold Reports
  rw [hsent, hstats, add_zero, ← hsum, unreported, hsenders]
  rfl

-- The report of a packet that was handed over.
theorem unreported_sent (packetSize : α → Nat) {packet : PacketList α} {elements idx : Nat} {p : α}
    (iResult : SendtoResult) (hp : packet.element idx = some p) :
    (SenderPc.sent packet elements idx iResult).unreported packetSize = {packetSize p} := by
  rw [SenderPc.unreported, hp]
  rfl

theorem Reports.sendto {packetSize : α → Nat} {o : OutgoingPath α n} {i : Fin n}
    {packet : PacketList α} {elements idx : Nat} {p : α} (iResult : SendtoResult)
    (hpc : o.senders i = .loop packet elements idx) (hp : packet.element idx = some p) :
    Reports packetSize o
      { o.setSender i (.sent packet elements idx iResult) with
        sent := if iResult = .success then o.sent ++ [p] else o.sent }
      (if iResult = .success then 0 else {packetSize p}) := by
  have hsum := unreported_setSender packetSize o i (.sent packet elements idx iResult)
  have hloop : (SenderPc.loop packet elements idx).unreported packetSize = 0 := rfl
  rw [hpc, hloop, unreported_sent packetSize iResult hp, add_zero] at hsum
  show (o.statsSent : Multiset Nat) +
    (o.setSender i (.sent packet elements idx iResult)).unreported packetSize + _ = _
  rw [hsum]
  cases iResult
  case success =>
    show _ = _ + (↑((o.sent ++ [p]).map packetSize) : Multiset Nat) + 0
    rw [List.map_append, ← Multiset.coe_add]
    show _ = _ + (_ + {packetSize p}) + 0
    abel
  all_goals
    show _ = _ + (↑(o.sent.map packetSize) : Multiset Nat) + {packetSize p}
    abel

theorem Reports.evaluate {packetSize : α → Nat} {o : OutgoingPath α n} {i : Fin n}
    {packet : PacketList α} {elements idx : Nat} {p : α} {iResult : SendtoResult}
    (hpc : o.senders i = .sent packet elements idx iResult) (hp : packet.element idx = some p) :
    Reports packetSize o
      { o.setSender i (afterSendto packet elements idx iResult) with
        statsSent := o.statsSent ++ [packetSize p] } 0 := by
  have hsum := unreported_setSender packetSize o i (afterSendto packet elements idx iResult)
  have hafter : (afterSendto packet elements idx iResult).unreported packetSize = 0 := by
    cases iResult <;> rfl
  rw [hpc, hafter, unreported_sent packetSize iResult hp, add_zero] at hsum
  show (↑(o.statsSent ++ [packetSize p]) : Multiset Nat) +
    (o.setSender i (afterSendto packet elements idx iResult)).unreported packetSize + _ = _
  rw [← hsum, ← Multiset.coe_add]
  show _ + {packetSize p} + _ + (↑(o.sent.map packetSize) : Multiset Nat) =
    _ + (_ + {packetSize p}) + (↑(o.sent.map packetSize) : Multiset Nat) + 0
  abel

/-- A sender reports each attempt once, the failed ones with the others. -/
theorem stepSender_reports {packetSize : α → Nat} {isRunning : Bool} {o o' : OutgoingPath α n}
    (h : o.Valid isRunning) {i : Fin n} {a : SenderAct}
    (hstep : o.stepSender packetSize isRunning i a = some o') :
    ∃ failed, Reports packetSize o o' failed ∧
      (failed = 0 ↔ ∀ iResult, a = .sendto iResult → iResult = .success) := by
  have hnone {a : SenderAct} (ha : ∀ iResult, a ≠ .sendto iResult) :
      (0 : Multiset Nat) = 0 ↔ ∀ iResult, a = .sendto iResult → iResult = .success :=
    iff_of_true rfl fun iResult hsendto => absurd hsendto (ha iResult)
  have hrun := hnone (a := .run) fun _ hsendto => by cases hsendto
  have hsafe := h.safe i
  cases stepSender_cases hstep with
  | test hpc =>
    refine ⟨0, .moved hpc rfl ?_ rfl rfl rfl, hrun⟩
    cases isRunning <;> rfl
  | enterReleased uninitialised hpc hreleased =>
    exact ⟨0, .moved hpc rfl rfl rfl rfl rfl, hnone fun _ hsendto => by cases hsendto⟩
  | enterWait uninitialised hpc hreleased =>
    exact ⟨0, .moved hpc rfl rfl rfl rfl rfl, hnone fun _ hsendto => by cases hsendto⟩
  | pop elements hpc hdone => exact ⟨0, .moved hpc rfl rfl rfl rfl rfl, hrun⟩
  | recheck packet elements hpc =>
    refine ⟨0, .moved hpc rfl ?_ rfl rfl rfl, hrun⟩
    cases isRunning <;> rfl
  | batchDone packet elements idx hpc hidx => exact ⟨0, .moved hpc rfl rfl rfl rfl rfl, hrun⟩
  | sendto iResult packet elements idx p hpc hidx hp =>
    refine ⟨_, .sendto iResult hpc hp, ?_⟩
    constructor
    · intro hzero iResult' hsame
      rw [← SenderAct.sendto.inj hsame]
      by_contra hfailed
      rw [if_neg hfailed] at hzero
      exact Multiset.singleton_ne_zero _ hzero
    · intro hsuccess
      rw [if_pos (hsuccess iResult rfl)]
  | sendtoFault iResult packet elements idx hpc hidx hp =>
    -- the index of a sender lies in its batch
    rw [hpc] at hsafe
    obtain ⟨batch, hbatch, -⟩ := hsafe
    exact absurd hp (hbatch.element_ne_none (hbatch.elements_eq ▸ hidx))
  | evaluate packet elements idx iResult p hpc hp => exact ⟨0, .evaluate hpc hp, hrun⟩
  | evaluateFault packet elements idx iResult hpc hp =>
    rw [hpc] at hsafe
    obtain ⟨batch, hbatch, hidx⟩ := hsafe
    exact absurd hp (hbatch.element_ne_none hidx)

theorem stepReceive_reports (packetSize : α → Nat) {isRunning : Bool} {o o' : OutgoingPath α n}
    {a : ReceiveAct α} (hstep : o.stepReceive isRunning a = some o') :
    Reports packetSize o o' 0 := by
  obtain ⟨p, rfl⟩ | ⟨receivePackets, rfl⟩ := stepReceive_cases hstep
  · exact .refl packetSize rfl rfl rfl
  · exact .refl packetSize rfl rfl rfl

end OutgoingPath

namespace Session

/-- A step of any thread of a session. -/
theorem next_reports {packetSize : α → Nat} {s t : Session α n} {a : SessionLabel α n}
    (h : s.Valid) (hn : s.next packetSize a = some t) :
    ∃ failed, OutgoingPath.Reports packetSize s.outgoing t.outgoing failed ∧
      (failed = 0 ↔ ∀ i iResult, a = .sender i (.sendto iResult) → iResult = .success) := by
  have hother (ha : ∀ i iResult, a ≠ .sender i (.sendto iResult)) :
      (0 : Multiset Nat) = 0 ↔ ∀ i iResult, a = .sender i (.sendto iResult) → iResult = .success :=
    iff_of_true rfl fun i iResult hsendto => absurd hsendto (ha i iResult)
  cases a with
  | receivePackets b =>
    obtain ⟨o, ho, rfl⟩ := Option.map_eq_some_iff.mp hn
    exact ⟨0, OutgoingPath.stepReceive_reports packetSize ho, hother fun _ _ ha => by cases ha⟩
  | sender i b =>
    obtain ⟨o, ho, rfl⟩ := Option.map_eq_some_iff.mp hn
    obtain ⟨failed, hreports, hfailed⟩ := OutgoingPath.stepSender_reports h.outgoing ho
    refine ⟨failed, hreports, hfailed.trans ?_⟩
    constructor
    · intro hsuccess j iResult ha
      exact hsuccess iResult (SessionLabel.sender.inj ha).2
    · intro hsuccess iResult hb
      exact hsuccess i iResult (congrArg (SessionLabel.sender i) hb)
  | sendPackets b =>
    obtain ⟨c, hc, rfl⟩ := Option.map_eq_some_iff.mp hn
    exact ⟨0, .refl packetSize rfl rfl rfl, hother fun _ _ ha => by cases ha⟩
  | receiver i b =>
    obtain ⟨c, hc, rfl⟩ := Option.map_eq_some_iff.mp hn
    exact ⟨0, .refl packetSize rfl rfl rfl, hother fun _ _ ha => by cases ha⟩
  | shutdown =>
    refine ⟨0, ?_, hother fun _ _ ha => by cases ha⟩
    simp only [next, stepShutdown] at hn
    split at hn
    all_goals
      first
        | contradiction
        | (obtain rfl := Option.some.inj hn; exact .refl packetSize rfl rfl rfl)

/-- A whole run: the failures are those of its `sendto` calls. -/
theorem run_reports {packetSize : α → Nat} {s t : Session α n} {as : List (SessionLabel α n)}
    (h : (sessionMachine packetSize n).Reach s)
    (hrun : (sessionMachine packetSize n).run s as = some t) :
    ∃ failed, OutgoingPath.Reports packetSize s.outgoing t.outgoing failed ∧
      (failed = 0 ↔ ∀ i iResult, .sender i (.sendto iResult) ∈ as → iResult = .success) := by
  induction as generalizing s with
  | nil =>
    obtain rfl := Option.some.inj hrun
    exact ⟨0, .refl packetSize rfl rfl rfl,
      iff_of_true rfl fun _ _ hmem => absurd hmem List.not_mem_nil⟩
  | cons a as ih =>
    obtain ⟨u, hu, hrest⟩ := Option.bind_eq_some_iff.mp hrun
    obtain ⟨failed, hreports, hfailed⟩ := next_reports (valid_of_reach h) hu
    obtain ⟨failed', hreports', hfailed'⟩ := ih (h.next trivial hu) hrest
    have hzero : failed + failed' = 0 ↔ failed = 0 ∧ failed' = 0 := by
      rw [← Multiset.card_eq_zero, Multiset.card_add, Nat.add_eq_zero_iff, Multiset.card_eq_zero,
        Multiset.card_eq_zero]
    refine ⟨failed + failed', hreports.trans hreports', ?_⟩
    rw [hzero, hfailed, hfailed']
    constructor
    · rintro ⟨hfirst, hothers⟩ i iResult hmem
      obtain hmem | hmem := List.mem_cons.mp hmem
      · exact hfirst i iResult hmem.symm
      · exact hothers i iResult hmem
    · intro hall
      refine ⟨?_, ?_⟩
      · intro i iResult ha
        exact hall i iResult (List.mem_cons.mpr (.inl ha.symm))
      · intro i iResult hmem
        exact hall i iResult (List.mem_cons.mpr (.inr hmem))

end Session

/-! ## 2. The counters -/

theorem Statistics.foldl_udpPacketSent (amounts : List Nat) (stats : Statistics) :
    (amounts.foldl (fun stats (bits : Nat) => stats.udpPacketSent bits) stats).sent.udpPackets =
      stats.sent.udpPackets + amounts.length := by
  induction amounts generalizing stats with
  | nil => exact (Int.add_zero _).symm
  | cons bits amounts ih =>
    rw [List.foldl_cons, ih]
    show stats.sent.udpPackets + 1 + amounts.length =
      stats.sent.udpPackets + (amounts.length + 1 : Nat)
    omega

/-- The counter of packets is the number of successful `sendto` calls, and the amounts reported add
up to the sizes of their packets. -/
structure CountsSent (packetSize : α → Nat) (o : OutgoingPath α n) : Prop where
  packets : o.stats.sent.udpPackets = o.sent.length
  amounts : o.statsSent.sum = (o.sent.map packetSize).sum

/-- The worker is between its `sendto` and its report. -/
def SenderPc.isSent : SenderPc α → Bool
  | .sent _ _ _ _ => true
  | _ => false

-- With every packet reported, the reports are the packets sent and the failures.
theorem statsSent_of_run {packetSize : α → Nat} {s t : Session α n} {as : List (SessionLabel α n)}
    (hinit : (sessionMachine packetSize n).init s)
    (hrun : (sessionMachine packetSize n).run s as = some t)
    (hreported : ∀ i, (t.outgoing.senders i).isSent = false) :
    ∃ failed, (t.outgoing.statsSent : Multiset Nat) =
        ↑(t.outgoing.sent.map packetSize) + failed ∧
      (failed = 0 ↔ ∀ i iResult, .sender i (.sendto iResult) ∈ as → iResult = .success) := by
  have hreach : (sessionMachine packetSize n).Reach s := ⟨s, hinit, .refl⟩
  obtain ⟨failed, hreports, hfailed⟩ := Session.run_reports hreach hrun
  refine ⟨failed, ?_, hfailed⟩
  obtain ⟨capacity, server, -, rfl⟩ := hinit
  have hstart : (Session.start capacity server : Session α n).outgoing.unreported packetSize = 0 :=
    Finset.sum_eq_zero fun _ _ => rfl
  have hend : t.outgoing.unreported packetSize = 0 := by
    apply Finset.sum_eq_zero
    intro i _
    have hi := hreported i
    cases hpc : t.outgoing.senders i
    case sent => rw [hpc] at hi; contradiction
    all_goals rfl
  unfold OutgoingPath.Reports at hreports
  rw [hstart, hend] at hreports
  simpa only [Session.start, List.map_nil, Multiset.coe_nil, add_zero, zero_add] using hreports

/-- **Once no worker is between the two, the statistics count what was sent exactly if no `sendto`
of the run was refused or failed.** -/
theorem countsSent_iff {packetSize : α → Nat} {s t : Session α n} {as : List (SessionLabel α n)}
    (hinit : (sessionMachine packetSize n).init s)
    (hrun : (sessionMachine packetSize n).run s as = some t)
    (hreported : ∀ i, (t.outgoing.senders i).isSent = false) :
    CountsSent packetSize t.outgoing ↔
      ∀ i iResult, .sender i (.sendto iResult) ∈ as → iResult = .success := by
  obtain ⟨failed, hstats, hfailed⟩ := statsSent_of_run hinit hrun hreported
  have hcounter : t.outgoing.stats.sent.udpPackets = t.outgoing.statsSent.length := by
    rw [OutgoingPath.stats, Statistics.foldl_udpPacketSent]
    exact Int.zero_add _
  have hlength := congrArg Multiset.card hstats
  rw [Multiset.card_add, Multiset.coe_card, Multiset.coe_card, List.length_map] at hlength
  rw [← hfailed]
  constructor
  · intro hcounts
    have hpackets := hcounts.packets
    rw [hcounter] at hpackets
    apply Multiset.card_eq_zero.mp
    omega
  · intro hnone
    rw [hnone, Multiset.card_zero, Nat.add_zero] at hlength
    rw [hnone, add_zero] at hstats
    refine ⟨?_, ?_⟩
    · rw [hcounter, hlength]
    · have hsum := congrArg Multiset.sum hstats
      rwa [Multiset.sum_coe, Multiset.sum_coe] at hsum

/-- One packet on its way to a socket, where `sendto` answers like this. -/
def sentOnce (iResults : List SendtoResult) : List (SessionLabel Nat 1) :=
  [.receivePackets .run, .receivePackets (.read (.packet 7)), .receivePackets .run,
    .sender 0 .run, .sender 0 (.enter 0), .sender 0 .run, .sender 0 .run] ++
    iResults.flatMap fun iResult => [.sender 0 (.sendto iResult), .sender 0 .run]

theorem countsSent_iff_success :
    let t := ((sessionMachine id 1).run (.start 4 ⟨⟨10, 0, 0, 1⟩, 5555⟩)
      (sentOnce [.success])).get (by decide)
    CountsSent id t.outgoing ↔
      ∀ i iResult, .sender i (.sendto iResult) ∈ sentOnce [.success] → iResult = .success :=
  countsSent_iff ⟨4, _, by decide, rfl⟩ (Option.some_get (by decide)).symm (by decide)

/-- A packet that is refused once and then sent is counted twice. -/
theorem refused_counted :
    ¬ ∀ (as : List (SessionLabel Nat 1)) (s t : Session Nat 1), (sessionMachine id 1).init s →
      (sessionMachine id 1).run s as = some t →
      (∀ i, (t.outgoing.senders i).isSent = false) → CountsSent id t.outgoing := by
  intro hclaim
  have hcounts := hclaim (sentOnce [.wouldBlock, .success]) (.start 4 ⟨⟨10, 0, 0, 1⟩, 5555⟩)
    (((sessionMachine id 1).run (.start 4 ⟨⟨10, 0, 0, 1⟩, 5555⟩)
      (sentOnce [.wouldBlock, .success])).get (by decide))
    ⟨4, _, by decide, rfl⟩ (Option.some_get (by decide)).symm (by decide)
  exact absurd hcounts.packets (by decide)

end NetShare
