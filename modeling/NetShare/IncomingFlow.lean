import NetShare.PacketOwnership

/-!
# The way into the tunnel is a queue

What comes in is a relay with a single worker.  A log kept beside a session records what the
receivers push and what `SendPackets` does with it.  At any time of a session the packets that were
kept are those that have been handed to Wintun, those of a batch given up at the end, those of the
current batch and those in the queue, in this order.
-/

namespace NetShare

open Reasoning Finset

variable {α : Type} {n : Nat}

/-! ## 1. The log -/

/-- `offered` are the packets pushed, with whether they were kept; `handled` those for which
`SendPackets` asked Wintun for a buffer, with the answer; `abandoned` the rest of the batch with
which it returned. -/
structure IncomingLog (α : Type) where
  offered : List (α × Bool) := []
  handled : List (α × AllocateResult) := []
  abandoned : List α := []

namespace IncomingLog

def kept (log : IncomingLog α) : List α := (log.offered.filter Prod.snd).map Prod.fst

/-- What got into the tunnel. -/
def injected (log : IncomingLog α) : List α :=
  (log.handled.filter fun h => h.2 = .allocated).map Prod.fst

/-- The log after a step that is taken on this path. -/
def record (log : IncomingLog α) (isRunning : Bool) (c : IncomingPath α n) :
    SessionLabel α n → IncomingLog α
  | .receiver i .run =>
    match (c.receivers i).pc with
    | .copy p => { log with offered := log.offered ++ [(p, (c.queue.push p).accepted)] }
    | _ => log
  | .sendPackets (.allocate result) =>
    match c.sendPackets with
    | .send internalPacket _ i =>
      match internalPacket.element i with
      | some p => { log with handled := log.handled ++ [(p, result)] }
      | none => log
    | _ => log
  | .sendPackets .run =>
    match c.sendPackets with
    | .loop _ size i =>
      if i < size ∧ isRunning = false then { log with abandoned := c.sendPackets.unsent } else log
    | _ => log
  | .sendPackets .throws =>
    match c.sendPackets with
    | .send _ _ _ => { log with abandoned := c.sendPackets.unsent }
    | _ => log
  | _ => log

end IncomingLog

/-- A session and what has come in during it. -/
structure RecordedSession (α : Type) (n : Nat) where
  session : Session α n
  log : IncomingLog α := {}

/-- A queue's capacity is a `size_t`. -/
def recordedMachine {α : Type} (packetSize : α → Nat) (n : Nat) :
    Machine (RecordedSession α n) (SessionLabel α n) where
  init r := ∃ capacity server, 1 ≤ capacity ∧ capacity < 2 ^ 64 ∧
    r = { session := .start capacity server }
  next r a := (r.session.next packetSize a).map fun s =>
    { session := s, log := r.log.record r.session.isRunning r.session.incoming a }

/-! ## 2. The relay of a path -/

/-- The packets of the batch that `SendPackets` is in can be counted by a `size_t`. -/
def SendPacketsPc.Fits : SendPacketsPc α → Prop
  | .loop internalPacket _ _ => internalPacket.packets.length < 2 ^ 64
  | .send internalPacket _ _ => internalPacket.packets.length < 2 ^ 64
  | _ => True

namespace IncomingPath

/-- A batch that was given up counts as still held. -/
def relay (c : IncomingPath α n) (log : IncomingLog α) : Relay α Unit where
  accepted := log.kept
  queued := c.queue.packets
  held _ := log.abandoned ++ c.sendPackets.unsent
  sent := log.handled.map Prod.fst

/-- The path and its log at any time of a session. -/
structure Ordered (c : IncomingPath α n) (log : IncomingLog α) : Prop where
  inOrder : (c.relay log).InOrder
  capacity : c.queue.capacity < 2 ^ 64
  fits : c.sendPackets.Fits
  abandoned : c.sendPackets.inLoop = true → log.abandoned = []

/-! ## 3. Every step is a move -/

theorem stepReceiver_record {packetSize : α → Nat} {isRunning : Bool} {c c' : IncomingPath α n}
    {i : Fin n} {a : SocketReceiverAct α} (log : IncomingLog α)
    (h : c.stepReceiver packetSize isRunning i a = some c') :
    (∃ p, (c.receivers i).pc = .copy p ∧ a = .run ∧
        c' = (c.pushPacket p).setReceiver i (.pushed p)) ∨
      (log.record isRunning c (.receiver i a) = log ∧ c'.queue = c.queue ∧
        c'.sendPackets = c.sendPackets) := by
  cases hpc : (c.receivers i).pc with
  | copy p =>
    cases a with
    | run =>
      simp only [stepReceiver, hpc] at h
      exact .inl ⟨p, rfl, rfl, (Option.some.inj h).symm⟩
    | _ => simp only [stepReceiver, hpc, reduceCtorEq] at h
  | select =>
    cases a with
    | select total =>
      cases total <;> simp only [stepReceiver, hpc] at h <;> obtain rfl := Option.some.inj h <;>
        exact .inr ⟨rfl, rfl, rfl⟩
    | _ => simp only [stepReceiver, hpc, reduceCtorEq] at h
  | recvfrom =>
    cases a with
    | recvfrom iResult =>
      cases iResult <;> simp only [stepReceiver, hpc] at h <;> obtain rfl := Option.some.inj h <;>
        exact .inr ⟨rfl, rfl, rfl⟩
    | _ => simp only [stepReceiver, hpc, reduceCtorEq] at h
  | returned cause => cases a <;> simp only [stepReceiver, hpc, reduceCtorEq] at h
  | _ =>
    cases a with
    | run =>
      simp only [stepReceiver, hpc] at h
      obtain rfl := Option.some.inj h
      exact .inr ⟨by simp only [IncomingLog.record, hpc], rfl, rfl⟩
    | _ => simp only [stepReceiver, hpc, reduceCtorEq] at h

-- A datagram that a full queue refuses is in the log, but not among the packets kept.
theorem pushPacket_relay {c : IncomingPath α n} (hq : c.queue.Holds c.queue.packets)
    (log : IncomingLog α) (p : α) (i : Fin n) :
    (c.relay log).Move (((c.pushPacket p).setReceiver i (.pushed p)).relay
      { log with offered := log.offered ++ [(p, (c.queue.push p).accepted)] }) := by
  obtain ⟨-, ⟨hacc, hpackets⟩ | ⟨hacc, hpackets⟩⟩ := Workqueue.push_cases hq p
  · have hrelay : ((c.pushPacket p).setReceiver i (.pushed p)).relay
        { log with offered := log.offered ++ [(p, (c.queue.push p).accepted)] } =
        { c.relay log with
          accepted := (c.relay log).accepted ++ [p]
          queued := (c.relay log).queued ++ [p] } := by
      simp [relay, setReceiver, pushPacket, IncomingLog.kept, hacc, hpackets]
    rw [hrelay]
    exact .accept _ p
  · have hrelay : ((c.pushPacket p).setReceiver i (.pushed p)).relay
        { log with offered := log.offered ++ [(p, (c.queue.push p).accepted)] } =
        c.relay log := by
      simp [relay, setReceiver, pushPacket, IncomingLog.kept, hacc, hpackets]
    rw [hrelay]
    exact .stay _

theorem Ordered.stepReceiver {packetSize : α → Nat} {isRunning : Bool} {c c' : IncomingPath α n}
    {log : IncomingLog α} (h : c.Ordered log) (hq : c.queue.Holds c.queue.packets) {i : Fin n}
    {a : SocketReceiverAct α} (hstep : c.stepReceiver packetSize isRunning i a = some c') :
    c'.Ordered (log.record isRunning c (.receiver i a)) := by
  obtain ⟨p, hpc, rfl, rfl⟩ | ⟨hlog, hqueue, hsend⟩ := stepReceiver_record log hstep
  · simp only [IncomingLog.record, hpc]
    refine ⟨(pushPacket_relay hq log p i).inOrder h.inOrder, ?_, h.fits, h.abandoned⟩
    show (c.queue.push p).queue.capacity < 2 ^ 64
    rw [Workqueue.push_capacity]
    exact h.capacity
  · rw [hlog]
    have hrelay : c'.relay log = c.relay log := by rw [relay, relay, hqueue, hsend]
    exact ⟨hrelay ▸ h.inOrder, hqueue ▸ h.capacity, hsend ▸ h.fits, hsend ▸ h.abandoned⟩

-- `SendPackets` moves without touching its batch.
theorem Ordered.setSend {c : IncomingPath α n} {log : IncomingLog α} (h : c.Ordered log)
    (hin : c.sendPackets.inLoop = true) {pc : SendPacketsPc α}
    (hunsent : pc.unsent = c.sendPackets.unsent) (hfits : pc.Fits) :
    (c.setSend pc).Ordered log := by
  have hrelay : (c.setSend pc).relay log = c.relay log := by
    simp only [relay, IncomingPath.setSend, hunsent]
  exact ⟨hrelay ▸ h.inOrder, h.capacity, hfits, fun _ => h.abandoned hin⟩

/-- It returns with the rest of its batch. -/
theorem Ordered.abandon {c : IncomingPath α n} {log : IncomingLog α} (h : c.Ordered log)
    (hin : c.sendPackets.inLoop = true) (cause : ExitCause) :
    (c.setSend (.returned cause)).Ordered { log with abandoned := c.sendPackets.unsent } := by
  have hrelay : (c.setSend (.returned cause)).relay
      { log with abandoned := c.sendPackets.unsent } = c.relay log := by
    simp only [relay, IncomingPath.setSend, SendPacketsPc.unsent, h.abandoned hin,
      List.append_nil, List.nil_append]
    rfl
  exact ⟨hrelay ▸ h.inOrder, h.capacity, trivial,
    fun hfalse => absurd hfalse Bool.false_ne_true⟩

/-- The locked part of `popAll`: everything that is queued becomes the batch. -/
theorem Ordered.popAll {c : IncomingPath α n} {log : IncomingLog α} (h : c.Ordered log)
    (hq : c.queue.Holds c.queue.packets) {size : Nat} (hpc : c.sendPackets = .wait size) :
    ({ c.setSend (.loop c.queue.popAllLocked.list (c.queue.popAllLocked.actualSize.getD size) 0)
        with queue := c.queue.popAllLocked.queue } : IncomingPath α n).Ordered log := by
  have hnone : log.abandoned = [] := h.abandoned (by rw [hpc]; rfl)
  have hcapacity : c.queue.popAllLocked.queue.capacity < 2 ^ 64 := by
    rw [Workqueue.popAllLocked_queue_capacity]
    exact h.capacity
  have hlength := Session.packets_length_le hq
  have hcap := h.capacity
  obtain ⟨-, ⟨-, hbatch, hrest⟩ | ⟨-, hnull, hsame⟩⟩ := Workqueue.popAllLocked_cases hq size
  · have hidle : (c.relay log).held () = [] := by
      simp only [relay, hnone, hpc, SendPacketsPc.unsent, List.append_nil]
    have hmove := Relay.Move.take (c.relay log) () c.queue.packets.length hidle
    refine ⟨?_, hcapacity, ?_, fun _ => hnone⟩
    · convert hmove.inOrder h.inOrder using 1
      simp [relay, IncomingPath.setSend, hnone, SendPacketsPc.unsent, hbatch.packets_eq, hrest]
      rfl
    · show (PacketList.packets c.queue.popAllLocked.list).length < 2 ^ 64
      rw [hbatch.packets_eq]
      omega
  · refine ⟨?_, hcapacity, ?_, fun _ => hnone⟩
    · convert h.inOrder using 1
      simp [relay, IncomingPath.setSend, hnone, hpc, SendPacketsPc.unsent, hnull, hsame,
        PacketList.packets]
    · show (PacketList.packets c.queue.popAllLocked.list).length < 2 ^ 64
      rw [hnull]
      exact Nat.two_pow_pos 64

/-- Element `i` of the batch is handed over, or there is no room for it. -/
theorem Ordered.allocate {c : IncomingPath α n} {log : IncomingLog α} (h : c.Ordered log)
    {internalPacket : PacketList α} {size idx : Nat} {batch : List α} {p : α}
    (hbatch : IsBatch internalPacket size batch) (result : AllocateResult)
    (hpc : c.sendPackets = .send internalPacket size idx)
    (hp : internalPacket.element idx = some p) :
    (c.setSend (.loop internalPacket size (sizeTInc idx))).Ordered
      { log with handled := log.handled ++ [(p, result)] } := by
  have hnone : log.abandoned = [] := h.abandoned (by rw [hpc]; rfl)
  have hfits := h.fits
  rw [hpc, SendPacketsPc.Fits] at hfits
  rw [hbatch.element_eq, List.getElem?_eq_some_iff] at hp
  obtain ⟨hlt, hget⟩ := hp
  have hnext : sizeTInc idx = idx + 1 := by
    rw [hbatch.packets_eq] at hfits
    exact sizeTInc_of_lt (by omega)
  have hheld : (c.relay log).held () = p :: batch.drop (idx + 1) := by
    simp only [relay, hnone, hpc, SendPacketsPc.unsent, List.nil_append, hbatch.packets_eq]
    rw [List.drop_eq_getElem_cons hlt, hget]
  refine ⟨?_, h.capacity, hfits, fun _ => hnone⟩
  convert (Relay.Move.send (c.relay log) () p _ hheld).inOrder h.inOrder using 1
  simp [relay, IncomingPath.setSend, hnone, SendPacketsPc.unsent, hbatch.packets_eq, hnext,
    IncomingLog.kept]
  rfl

theorem Ordered.stepSend {isRunning : Bool} {c c' : IncomingPath α n} {log : IncomingLog α}
    (h : c.Ordered log) (hvalid : c.Valid isRunning) {a : SendPacketsAct}
    (hstep : c.stepSend isRunning a = some c') :
    c'.Ordered (log.record isRunning c (.sendPackets a)) := by
  have hsafe := hvalid.safe
  cases stepSend_cases hstep with
  | test hpc =>
    simp only [IncomingLog.record, hpc]
    refine h.setSend (by rw [hpc]; rfl) ?_ ?_
    · rw [hpc]
      cases isRunning <;> rfl
    · cases isRunning <;> trivial
  | enterReleased u hpc hreleased =>
    refine h.setSend (by rw [hpc]; rfl) (by rw [hpc]; rfl) ?_
    show (PacketList.packets none : List α).length < 2 ^ 64
    exact Nat.two_pow_pos 64
  | enterWait u hpc hreleased => exact h.setSend (by rw [hpc]; rfl) (by rw [hpc]; rfl) trivial
  | pop size hpc hdone =>
    simp only [IncomingLog.record, hpc]
    exact h.popAll hvalid.holds hpc
  | next internalPacket size idx hpc hidx =>
    have hin : c.sendPackets.inLoop = true := by rw [hpc]; rfl
    simp only [IncomingLog.record, hpc, hidx, true_and]
    cases isRunning with
    | true =>
      refine h.setSend hin (by rw [hpc]; rfl) ?_
      have hfits := h.fits
      rwa [hpc] at hfits
    | false =>
      have hgone := h.abandon hin .stopped
      rwa [hpc] at hgone
  | batchDone internalPacket size idx hpc hidx =>
    simp only [IncomingLog.record, hpc, hidx, false_and, if_false]
    refine h.setSend (by rw [hpc]; rfl) ?_ trivial
    rw [hpc] at hsafe ⊢
    show [] = internalPacket.packets.drop idx
    obtain ⟨batch, hbatch⟩ | ⟨hnull, -⟩ := hsafe
    · have hlen := hbatch.elements_eq
      rw [hbatch.packets_eq, List.drop_eq_nil_of_le (by omega)]
    · rw [hnull]
      exact List.drop_nil.symm
  | allocate result internalPacket size idx p hpc hp =>
    rw [hpc] at hsafe
    obtain ⟨batch, hbatch, -⟩ := hsafe
    simp only [IncomingLog.record, hpc, hp]
    exact h.allocate hbatch result hpc hp
  | allocateFault result internalPacket size idx hpc hp =>
    rw [hpc] at hsafe
    obtain ⟨batch, hbatch, hidx⟩ := hsafe
    exact absurd hp (hbatch.element_ne_none hidx)
  | throwsPop size hpc =>
    simp only [IncomingLog.record, hpc]
    exact h.setSend (by rw [hpc]; rfl) (by rw [hpc]; rfl) trivial
  | throwsSend internalPacket size idx hpc =>
    have hgone := h.abandon (by rw [hpc]; rfl) .exception
    simp only [IncomingLog.record, hpc]
    rwa [hpc] at hgone

end IncomingPath

/-! ## 4. Whole sessions -/

namespace RecordedSession

-- Taken back to the session alone.
theorem reach_session {packetSize : α → Nat} {r : RecordedSession α n}
    (h : (recordedMachine packetSize n).Reach r) :
    (sessionMachine packetSize n).Reach r.session := by
  refine h.invariant (I := fun r => (sessionMachine packetSize n).Reach r.session) ?_ ?_
  · rintro r ⟨capacity, server, hcap, -, rfl⟩
    exact ⟨_, ⟨capacity, server, hcap, rfl⟩, .refl⟩
  · intro r a r' hr hn
    obtain ⟨s, hs, rfl⟩ := Option.map_eq_some_iff.mp hn
    exact hr.next trivial hs

theorem ordered_next {packetSize : α → Nat} {r r' : RecordedSession α n} {a : SessionLabel α n}
    (h : r.session.incoming.Ordered r.log) (hvalid : r.session.Valid)
    (hn : (recordedMachine packetSize n).next r a = some r') :
    r'.session.incoming.Ordered r'.log := by
  obtain ⟨s, hs, rfl⟩ := Option.map_eq_some_iff.mp hn
  cases a with
  | receivePackets b =>
    obtain ⟨o, -, rfl⟩ := Option.map_eq_some_iff.mp hs
    exact h
  | sender i b =>
    obtain ⟨o, -, rfl⟩ := Option.map_eq_some_iff.mp hs
    exact h
  | sendPackets b =>
    obtain ⟨c, hc, rfl⟩ := Option.map_eq_some_iff.mp hs
    exact h.stepSend hvalid.incoming hc
  | receiver i b =>
    obtain ⟨c, hc, rfl⟩ := Option.map_eq_some_iff.mp hs
    exact h.stepReceiver hvalid.incoming.holds hc
  | shutdown =>
    simp only [Session.next, Session.stepShutdown] at hs
    split at hs
    case h_5 => contradiction
    all_goals
      obtain rfl := Option.some.inj hs
      exact ⟨h.inOrder, h.capacity, h.fits, h.abandoned⟩

theorem ordered_of_reach {packetSize : α → Nat} {r : RecordedSession α n}
    (h : (recordedMachine packetSize n).Reach r) : r.session.incoming.Ordered r.log := by
  refine h.invariant_of (I := fun r => r.session.incoming.Ordered r.log)
    (fun _ hr => Session.valid_of_reach (reach_session hr)) ?_ ?_
  · rintro r ⟨capacity, server, hcap, hlt, rfl⟩
    have hnew : (Workqueue.new capacity : Workqueue α).packets = [] :=
      (Workqueue.new_holds hcap).packets_eq
    refine ⟨fun i _ => ?_, hlt, trivial, fun _ => rfl⟩
    show ([] : List α) = [] ++ ([] ++ []) ++ (Workqueue.new capacity : Workqueue α).packets
    rw [hnew]
    rfl
  · intro r a r' hr hvalid _ _ hn
    exact ordered_next hr hvalid hn

end RecordedSession

/-- **Nothing that the queue has kept is lost, doubled or overtaken on its way into the tunnel**,
and only a `SendPackets` that has returned has given up packets.  This holds at any time of a
session, also after the driver has been stopped. -/
theorem incoming_inOrder (packetSize : α → Nat) {r : RecordedSession α n}
    (h : (recordedMachine packetSize n).Reach r) :
    r.log.kept = r.log.handled.map Prod.fst ++ r.log.abandoned ++
        r.session.incoming.sendPackets.unsent ++ r.session.incoming.queue.packets ∧
      (r.session.inLoop .sendPackets = true → r.log.abandoned = []) ∧
      r.log.injected.Sublist r.log.kept := by
  have hordered := RecordedSession.ordered_of_reach h
  have hkept : r.log.kept = r.log.handled.map Prod.fst ++
      (r.log.abandoned ++ r.session.incoming.sendPackets.unsent) ++
        r.session.incoming.queue.packets := hordered.inOrder () fun _ => rfl
  rw [← List.append_assoc] at hkept
  refine ⟨hkept, hordered.abandoned, ?_⟩
  have hinjected : r.log.injected.Sublist (r.log.handled.map Prod.fst) :=
    List.filter_sublist.map Prod.fst
  rw [hkept, List.append_assoc, List.append_assoc]
  exact hinjected.trans (List.sublist_append_left _ _)

/-- A datagram comes in, is queued and handed to Wintun, which has no room for it. -/
def overflowed (i : Fin n) : List (SessionLabel Nat n) :=
  [.receiver i .run, .receiver i (.select .ready),
    .receiver i (.recvfrom (.datagram ⟨⟨10, 0, 0, 1⟩, 5555⟩ 7)), .receiver i .run,
    .sendPackets .run, .sendPackets (.enter 0), .sendPackets .run, .sendPackets .run,
    .sendPackets (.allocate .overflow)]

theorem incoming_inOrder_overflowed :
    let r := ((recordedMachine id 1).run { session := .start 4 ⟨⟨10, 0, 0, 1⟩, 5555⟩ }
      (overflowed 0)).get (by decide)
    r.log.kept = r.log.handled.map Prod.fst ++ r.log.abandoned ++
        r.session.incoming.sendPackets.unsent ++ r.session.incoming.queue.packets ∧
      (r.session.inLoop .sendPackets = true → r.log.abandoned = []) ∧
      r.log.injected.Sublist r.log.kept :=
  incoming_inOrder id
    (Machine.reach_of_run ⟨4, _, by decide, by decide, rfl⟩ (Option.some_get (by decide)).symm)

/-! ## 5. What is counted -/

/-- The datagram that a receiver has pushed and not reported. -/
def SocketReceiverPc.unreported (packetSize : α → Nat) : SocketReceiverPc α → Multiset Nat
  | .pushed p => {packetSize p}
  | _ => 0

namespace IncomingPath

def unreported (packetSize : α → Nat) (c : IncomingPath α n) : Multiset Nat :=
  ∑ i, (c.receivers i).pc.unreported packetSize

/-- What the receivers have reported and what has been made and destroyed, against the log. -/
structure Counted (packetSize : α → Nat) (c : IncomingPath α n) (log : IncomingLog α) : Prop where
  reported : (c.statsReceived : Multiset Nat) + c.unreported packetSize =
    ↑(log.offered.map fun offer => packetSize offer.1)
  created : c.created = log.offered.length
  deleted : c.deleted = log.offered.countP fun offer => !offer.2

theorem unreported_update (packetSize : α → Nat) {c c' : IncomingPath α n} {i : Fin n}
    {r : SocketReceiver α} (h : c'.receivers = Function.update c.receivers i r) :
    c'.unreported packetSize + (c.receivers i).pc.unreported packetSize =
      c.unreported packetSize + r.pc.unreported packetSize := by
  rw [unreported, h]
  exact sum_update_add (fun r => r.pc.unreported packetSize) c.receivers i r

theorem unreported_setReceiver (packetSize : α → Nat) {c d : IncomingPath α n}
    (h : d.receivers = c.receivers) (i : Fin n) (pc : SocketReceiverPc α) :
    (d.setReceiver i pc).unreported packetSize + (c.receivers i).pc.unreported packetSize =
      c.unreported packetSize + pc.unreported packetSize := by
  have hreceivers : (d.setReceiver i pc).receivers =
      Function.update c.receivers i { c.receivers i with pc } := by
    rw [← h]
    rfl
  exact unreported_update packetSize hreceivers

/-- A receiver that has nothing to report before and after. -/
theorem Counted.move {packetSize : α → Nat} {c c' : IncomingPath α n} {log : IncomingLog α}
    (h : c.Counted packetSize log) {i : Fin n} {r : SocketReceiver α}
    (hreceivers : c'.receivers = Function.update c.receivers i r)
    (hbefore : (c.receivers i).pc.unreported packetSize = 0)
    (hafter : r.pc.unreported packetSize = 0) (hstats : c'.statsReceived = c.statsReceived)
    (hcreated : c'.created = c.created) (hdeleted : c'.deleted = c.deleted) :
    c'.Counted packetSize log := by
  have hsame := unreported_update packetSize hreceivers
  rw [hbefore, hafter, add_zero, add_zero] at hsame
  exact ⟨hstats ▸ hsame ▸ h.reported, hcreated.trans h.created, hdeleted.trans h.deleted⟩

theorem Counted.pushed {packetSize : α → Nat} {c : IncomingPath α n} {log : IncomingLog α}
    (h : c.Counted packetSize log) {i : Fin n} {p : α} (hpc : (c.receivers i).pc = .copy p) :
    ((c.pushPacket p).setReceiver i (.pushed p)).Counted packetSize
      { log with offered := log.offered ++ [(p, (c.queue.push p).accepted)] } := by
  have hreceivers : (c.pushPacket p).receivers = c.receivers := rfl
  have hmore := unreported_setReceiver packetSize hreceivers i (.pushed p)
  rw [hpc] at hmore
  constructor
  case reported =>
    have hreported := h.reported
    rw [List.map_append, ← Multiset.coe_add, ← hreported]
    rw [show (SocketReceiverPc.copy p).unreported packetSize = 0 from rfl, add_zero] at hmore
    rw [hmore, ← add_assoc]
    rfl
  case created =>
    rw [List.length_append]
    exact congrArg (· + 1) h.created
  case deleted =>
    rw [List.countP_append, ← h.deleted]
    show (if (c.queue.push p).accepted then c.deleted else c.deleted + 1) = _
    cases (c.queue.push p).accepted <;> rfl

theorem Counted.stepReceiver {packetSize : α → Nat} {isRunning : Bool} {c c' : IncomingPath α n}
    {log : IncomingLog α} (h : c.Counted packetSize log) {i : Fin n} {a : SocketReceiverAct α}
    (hstep : c.stepReceiver packetSize isRunning i a = some c') :
    c'.Counted packetSize (log.record isRunning c (.receiver i a)) := by
  cases hpc : (c.receivers i).pc with
  | copy p =>
    cases a with
    | run =>
      simp only [IncomingPath.stepReceiver, hpc] at hstep
      obtain rfl := Option.some.inj hstep
      simp only [IncomingLog.record, hpc]
      exact h.pushed hpc
    | _ => simp only [IncomingPath.stepReceiver, hpc, reduceCtorEq] at hstep
  | pushed p =>
    cases a with
    | run =>
      simp only [IncomingPath.stepReceiver, hpc] at hstep
      obtain rfl := Option.some.inj hstep
      simp only [IncomingLog.record, hpc]
      refine ⟨?_, h.created, h.deleted⟩
      have hless := unreported_setReceiver packetSize (Eq.refl c.receivers) i
        (if isRunning then .test else .returned .stopped)
      have hnone : (if isRunning then SocketReceiverPc.test else .returned .stopped).unreported
          packetSize = 0 := by cases isRunning <;> rfl
      rw [hpc, hnone, add_zero] at hless
      rw [← h.reported, ← hless]
      show ((c.statsReceived ++ [packetSize p] : List Nat) : Multiset Nat) + _ = _
      rw [← Multiset.coe_add, add_assoc]
      exact congrArg _ (add_comm _ _)
    | _ => simp only [IncomingPath.stepReceiver, hpc, reduceCtorEq] at hstep
  | select =>
    cases a with
    | select total =>
      have hbefore : (c.receivers i).pc.unreported packetSize = 0 := by rw [hpc]; rfl
      cases total <;> simp only [IncomingPath.stepReceiver, hpc] at hstep <;>
        obtain rfl := Option.some.inj hstep <;> exact h.move rfl hbefore rfl rfl rfl rfl
    | _ => simp only [IncomingPath.stepReceiver, hpc, reduceCtorEq] at hstep
  | recvfrom =>
    cases a with
    | recvfrom iResult =>
      have hbefore : (c.receivers i).pc.unreported packetSize = 0 := by rw [hpc]; rfl
      cases iResult <;> simp only [IncomingPath.stepReceiver, hpc] at hstep <;>
        obtain rfl := Option.some.inj hstep <;> exact h.move rfl hbefore rfl rfl rfl rfl
    | _ => simp only [IncomingPath.stepReceiver, hpc, reduceCtorEq] at hstep
  | returned cause => cases a <;> simp only [IncomingPath.stepReceiver, hpc, reduceCtorEq] at hstep
  | _ =>
    cases a with
    | run =>
      simp only [IncomingPath.stepReceiver, hpc] at hstep
      obtain rfl := Option.some.inj hstep
      have hbefore : (c.receivers i).pc.unreported packetSize = 0 := by rw [hpc]; rfl
      have hafter (pc : SocketReceiverPc α) (hpc : pc.unreported packetSize = 0) :
          (if isRunning then pc else .returned .stopped).unreported packetSize = 0 := by
        cases isRunning
        · rfl
        · exact hpc
      simp only [IncomingLog.record, hpc]
      exact h.move rfl hbefore (hafter _ rfl) rfl rfl rfl
    | _ => simp only [IncomingPath.stepReceiver, hpc, reduceCtorEq] at hstep

-- `SendPackets` reports elsewhere, and makes and destroys no packet.
theorem Counted.stepSend {packetSize : α → Nat} {isRunning : Bool} {c c' : IncomingPath α n}
    {log : IncomingLog α} (h : c.Counted packetSize log) {a : SendPacketsAct}
    (hstep : c.stepSend isRunning a = some c') :
    c'.Counted packetSize (log.record isRunning c (.sendPackets a)) := by
  have hoffered : (log.record isRunning c (.sendPackets a)).offered = log.offered := by
    cases a <;> simp only [IncomingLog.record] <;> (repeat' split) <;> rfl
  have hsame : c'.statsReceived = c.statsReceived ∧ c'.receivers = c.receivers ∧
      c'.created = c.created ∧ c'.deleted = c.deleted := by
    cases stepSend_cases hstep <;> exact ⟨rfl, rfl, rfl, rfl⟩
  obtain ⟨hstats, hreceivers, hcreated, hdeleted⟩ := hsame
  refine ⟨?_, ?_, ?_⟩
  · rw [hoffered, unreported, hstats, hreceivers]
    exact h.reported
  · rw [hoffered, hcreated]
    exact h.created
  · rw [hoffered, hdeleted]
    exact h.deleted

end IncomingPath

/-- **Every datagram that is pushed is reported once**, whether the queue keeps it or not, and is
destroyed by `push` exactly if it does not. -/
theorem received_counted (packetSize : α → Nat) {r : RecordedSession α n}
    (h : (recordedMachine packetSize n).Reach r) :
    (r.session.incoming.statsReceived : Multiset Nat) +
        ∑ i, (r.session.incoming.receivers i).pc.unreported packetSize =
          ↑(r.log.offered.map fun offer => packetSize offer.1) ∧
      r.session.incoming.created = r.log.offered.length ∧
      r.session.incoming.deleted = r.log.offered.countP fun offer => !offer.2 := by
  have hcounted : r.session.incoming.Counted packetSize r.log := by
    refine h.invariant (I := fun r => r.session.incoming.Counted packetSize r.log) ?_ ?_
    · rintro r ⟨capacity, server, -, -, rfl⟩
      refine ⟨?_, rfl, rfl⟩
      show (0 : Multiset Nat) + ∑ _i : Fin n, 0 = 0
      rw [sum_const_zero, add_zero]
    · intro r a r' hr hn
      obtain ⟨s, hs, rfl⟩ := Option.map_eq_some_iff.mp hn
      cases a with
      | receivePackets b =>
        obtain ⟨o, -, rfl⟩ := Option.map_eq_some_iff.mp hs
        exact hr
      | sender i b =>
        obtain ⟨o, -, rfl⟩ := Option.map_eq_some_iff.mp hs
        exact hr
      | sendPackets b =>
        obtain ⟨c, hc, rfl⟩ := Option.map_eq_some_iff.mp hs
        exact hr.stepSend hc
      | receiver i b =>
        obtain ⟨c, hc, rfl⟩ := Option.map_eq_some_iff.mp hs
        exact hr.stepReceiver hc
      | shutdown =>
        simp only [Session.next, Session.stepShutdown] at hs
        split at hs
        case h_5 => contradiction
        all_goals
          obtain rfl := Option.some.inj hs
          exact ⟨hr.reported, hr.created, hr.deleted⟩
  exact ⟨hcounted.reported, hcounted.created, hcounted.deleted⟩

/-- One slot, so that no datagram fits. -/
theorem received_counted_refused :
    let r := ((recordedMachine id 1).run { session := .start 1 ⟨⟨10, 0, 0, 1⟩, 5555⟩ }
      ((overflowed 0).take 4)).get (by decide)
    (r.session.incoming.statsReceived : Multiset Nat) +
        ∑ i, (r.session.incoming.receivers i).pc.unreported id =
          ↑(r.log.offered.map fun offer => id offer.1) ∧
      r.session.incoming.created = r.log.offered.length ∧
      r.session.incoming.deleted = r.log.offered.countP fun offer => !offer.2 :=
  received_counted id
    (Machine.reach_of_run ⟨1, _, by decide, by decide, rfl⟩ (Option.some_get (by decide)).symm)

end NetShare
