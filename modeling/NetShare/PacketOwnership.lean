import NetShare.SessionWorkers

/-!
# Who owns a packet

Everything that comes in is copied into a `WorkPacket` on the heap, and `push` deletes one that it
refuses.  A worker that takes packets out of a queue becomes their owner, but sending one is the end
of its pointer and not of the packet, and so is every way to leave a batch early.
-/

namespace NetShare

open Reasoning Finset

variable {α : Type} {n : Nat}

/-! ## 1. Packets that someone still has -/

/-- The packets of its current batch that `SendPackets` has not handed over yet. -/
def SendPacketsPc.unsent : SendPacketsPc α → List α
  | .loop internalPacket _ i => internalPacket.packets.drop i
  | .send internalPacket _ i => internalPacket.packets.drop i
  | _ => []

/-- How many packets a sender gives up in this step without deleting them: the one that is sent, or
what is left of its batch when it returns. -/
def SenderPc.letsGo (isRunning : Bool) (pc : SenderPc α) (a : SenderAct) : Nat :=
  match a, pc with
  | .sendto .success, .loop _ _ _ => 1
  | .run, .recheck _ _ => if isRunning then 0 else pc.unsent.length
  | .run, .sent _ _ _ .error => pc.unsent.length
  | _, _ => 0

/-- As for the senders; a packet for which there is no room in the ring is given up as well. -/
def SendPacketsPc.letsGo (isRunning : Bool) (pc : SendPacketsPc α) (a : SendPacketsAct) : Nat :=
  match a, pc with
  | .allocate _, .send _ _ _ => 1
  | .throws, .send _ _ _ => pc.unsent.length
  | .run, .loop _ _ _ => if isRunning then 0 else pc.unsent.length
  | _, _ => 0

/-- The packets in the queue and in the batches of the senders. -/
def OutgoingPath.held (o : OutgoingPath α n) : Nat :=
  o.queue.packets.length + ∑ i, (o.senders i).unsent.length

def IncomingPath.held (c : IncomingPath α n) : Nat :=
  c.queue.packets.length + c.sendPackets.unsent.length

namespace Session

def created (s : Session α n) : Nat := s.outgoing.created + s.incoming.created

def deleted (s : Session α n) : Nat := s.outgoing.deleted + s.incoming.deleted

/-- The packets in the batches that workers have popped and not finished sending. -/
def inBatches (s : Session α n) : Nat :=
  ∑ i, (s.outgoing.senders i).unsent.length + s.incoming.sendPackets.unsent.length

def letsGo (s : Session α n) : SessionLabel α n → Nat
  | .sender i a => (s.outgoing.senders i).letsGo s.isRunning a
  | .sendPackets a => s.incoming.sendPackets.letsGo s.isRunning a
  | _ => 0

/-- Every packet that was created and not deleted is in a queue or in a batch, and so there are
never more of them than fit there. -/
structure Owned (s : Session α n) : Prop where
  eq : s.created = s.deleted +
    (s.outgoing.queue.packets.length + s.incoming.queue.packets.length + s.inBatches)
  le : s.created ≤ s.deleted +
    ((s.outgoing.queue.capacity - 1) + (s.incoming.queue.capacity - 1) + s.inBatches)

end Session

/-! ## 2. The way out -/

namespace OutgoingPath

-- Only the queue and the batch of this one sender change.
theorem held_of_update {o o' : OutgoingPath α n} {i : Fin n} {pc : SenderPc α}
    (h : o'.senders = Function.update o.senders i pc) :
    o'.held + (o.queue.packets.length + (o.senders i).unsent.length) =
      o.held + (o'.queue.packets.length + pc.unsent.length) := by
  have hsum := sum_update_add (fun pc : SenderPc α => pc.unsent.length) o.senders i pc
  rw [held, held, h]
  omega

theorem held_of_step {o o' : OutgoingPath α n} {i : Fin n} {pc : SenderPc α} {k : Nat}
    (hsenders : o'.senders = Function.update o.senders i pc) (hqueue : o'.queue = o.queue)
    (h : pc.unsent.length + k = (o.senders i).unsent.length) : o'.held + k = o.held := by
  have heq := held_of_update hsenders
  rw [hqueue] at heq
  omega

theorem pushPacket_ledger {o : OutgoingPath α n} (hq : o.queue.Holds o.queue.packets) (p : α) :
    (o.pushPacket p).created + (o.deleted + o.held) =
      o.created + ((o.pushPacket p).deleted + (o.pushPacket p).held) := by
  obtain ⟨-, ⟨hacc, hpackets⟩ | ⟨hacc, hpackets⟩⟩ := Workqueue.push_cases hq p
  · simp only [pushPacket, held, hacc, hpackets, if_true, List.length_append,
      List.length_singleton]
    omega
  · simp only [pushPacket, held, hacc, hpackets, Bool.false_eq_true, if_false]
    omega

theorem stepReceive_ledger {isRunning : Bool} {o o' : OutgoingPath α n}
    (hq : o.queue.Holds o.queue.packets) {a : ReceiveAct α}
    (hstep : o.stepReceive isRunning a = some o') :
    o'.created + (o.deleted + o.held) = o.created + (o'.deleted + o'.held) := by
  obtain ⟨p, rfl⟩ | ⟨receivePackets, rfl⟩ := stepReceive_cases hstep
  · exact pushPacket_ledger hq p
  · rfl

-- A batch leaves the queue for the sender, or a released queue gives none.
theorem popSize_held {isRunning : Bool} {o : OutgoingPath α n} (h : o.Valid isRunning) {i : Fin n}
    (elements : Nat) (hidle : (o.senders i).unsent = []) :
    let r := o.queue.popSizeLocked 3
    let o' := { o.setSender i (.recheck r.list (r.actualSize.getD elements)) with queue := r.queue }
    o'.held = o.held := by
  intro r o'
  have hmoved : r.queue.packets.length +
      (SenderPc.recheck r.list (r.actualSize.getD elements)).unsent.length =
        o.queue.packets.length := by
    obtain ⟨-, ⟨-, hbatch, hrest⟩ | ⟨-, hnull, hsame⟩⟩ :=
      Workqueue.popSizeLocked_cases h.holds elements
    · rw [SenderPc.unsent, hbatch.packets_eq, hrest, List.length_take, List.length_drop]
      omega
    · rw [SenderPc.unsent, hnull, hsame]
      rfl
  have heq : o'.held + (o.queue.packets.length + (o.senders i).unsent.length) = o.held +
      (r.queue.packets.length + (SenderPc.recheck r.list
        (r.actualSize.getD elements)).unsent.length) := held_of_update rfl
  rw [hidle, List.length_nil] at heq
  omega

/-- A sender neither creates nor deletes: what it lets go is all that is missing afterwards. -/
theorem stepSender_ledger {packetSize : α → Nat} {isRunning : Bool} {o o' : OutgoingPath α n}
    (h : o.Valid isRunning) {i : Fin n} {a : SenderAct}
    (hstep : o.stepSender packetSize isRunning i a = some o') :
    o'.created = o.created ∧ o'.deleted = o.deleted ∧
      o'.held + (o.senders i).letsGo isRunning a = o.held := by
  have hsafe := h.safe i
  cases stepSender_cases hstep with
  | test hpc =>
    refine ⟨rfl, rfl, held_of_step rfl rfl ?_⟩
    rw [hpc]
    cases isRunning <;> rfl
  | enterReleased u hpc hreleased =>
    refine ⟨rfl, rfl, held_of_step rfl rfl ?_⟩
    rw [hpc]
    rfl
  | enterWait u hpc hreleased =>
    refine ⟨rfl, rfl, held_of_step rfl rfl ?_⟩
    rw [hpc]
    rfl
  | pop elements hpc hdone =>
    refine ⟨rfl, rfl, ?_⟩
    rw [hpc]
    exact popSize_held h elements (by rw [hpc]; rfl)
  | recheck packet elements hpc =>
    refine ⟨rfl, rfl, held_of_step rfl rfl ?_⟩
    rw [hpc]
    cases isRunning with
    | true => rfl
    | false => exact Nat.zero_add _
  | batchDone packet elements idx hpc hidx =>
    refine ⟨rfl, rfl, held_of_step rfl rfl ?_⟩
    rw [hpc] at hsafe ⊢
    obtain ⟨batch, hbatch, -⟩ := hsafe
    have hlen := hbatch.elements_eq
    rw [SenderPc.unsent, hbatch.packets_eq, List.length_drop]
    show 0 + 0 = batch.length - idx
    omega
  | sendto iResult packet elements idx p hpc hidx hp =>
    refine ⟨rfl, rfl, held_of_step rfl rfl ?_⟩
    rw [hpc] at hsafe ⊢
    obtain ⟨batch, hbatch, -⟩ := hsafe
    have hlen := hbatch.elements_eq
    cases iResult with
    | success =>
      simp only [SenderPc.unsent, SenderPc.letsGo, hbatch.packets_eq, if_true, List.length_drop]
      omega
    | wouldBlock => rfl
    | error => rfl
  | sendtoFault iResult packet elements idx hpc hidx hp =>
    rw [hpc] at hsafe
    obtain ⟨batch, hbatch, -⟩ := hsafe
    exact absurd hp (hbatch.element_ne_none (hbatch.elements_eq ▸ hidx))
  | evaluate packet elements idx iResult p hpc hp =>
    refine ⟨rfl, rfl, held_of_step rfl rfl ?_⟩
    rw [hpc] at hsafe ⊢
    cases iResult with
    | error => exact Nat.zero_add _
    | _ =>
      rw [afterSendto_unsent hsafe (by decide)]
      rfl
  | evaluateFault packet elements idx iResult hpc hp =>
    rw [hpc] at hsafe
    obtain ⟨batch, hbatch, hidx⟩ := hsafe
    exact absurd hp (hbatch.element_ne_none hidx)

end OutgoingPath

/-! ## 3. The way in -/

/-- `SendPackets` is at the first packet of its batch, if it is in one. -/
def SendPacketsPc.AtFront : SendPacketsPc α → Prop
  | .loop _ _ i => i = 0
  | .send _ _ i => i = 0
  | _ => True

namespace IncomingPath

theorem pushPacket_ledger {c : IncomingPath α n} (hq : c.queue.Holds c.queue.packets) (p : α) :
    (c.pushPacket p).created + (c.deleted + c.held) =
      c.created + ((c.pushPacket p).deleted + (c.pushPacket p).held) := by
  obtain ⟨-, ⟨hacc, hpackets⟩ | ⟨hacc, hpackets⟩⟩ := Workqueue.push_cases hq p
  · simp only [pushPacket, held, hacc, hpackets, if_true, List.length_append,
      List.length_singleton]
    omega
  · simp only [pushPacket, held, hacc, hpackets, Bool.false_eq_true, if_false]
    omega

theorem stepReceiver_ledger {packetSize : α → Nat} {isRunning : Bool} {c c' : IncomingPath α n}
    (hq : c.queue.Holds c.queue.packets) {i : Fin n} {a : SocketReceiverAct α}
    (hstep : c.stepReceiver packetSize isRunning i a = some c') :
    c'.sendPackets = c.sendPackets ∧
      c'.created + (c.deleted + c.held) = c.created + (c'.deleted + c'.held) := by
  obtain ⟨p, rfl⟩ | ⟨receivers, statsReceived, rfl⟩ := stepReceiver_cases hstep
  · exact ⟨rfl, pushPacket_ledger hq p⟩
  · exact ⟨rfl, rfl⟩

-- Only the batch of `SendPackets` changes.
theorem held_setSend {c : IncomingPath α n} {pc : SendPacketsPc α} {k : Nat}
    (h : pc.unsent.length + k = c.sendPackets.unsent.length) :
    (c.setSend pc).held + k = c.held := by
  have hset : (c.setSend pc).held = c.queue.packets.length + pc.unsent.length := rfl
  rw [hset, held]
  omega

/-- As `stepSender_ledger`.  The loop over the batch is followed no further than its first packet,
since a batch as long as `size_t` can count would begin again. -/
theorem stepSend_ledger {isRunning : Bool} {c c' : IncomingPath α n} (h : c.Valid isRunning)
    (hfront : c.sendPackets.AtFront) {a : SendPacketsAct}
    (hstep : c.stepSend isRunning a = some c') :
    c'.created = c.created ∧ c'.deleted = c.deleted ∧
      c'.held + c.sendPackets.letsGo isRunning a = c.held ∧
      (c.sendPackets.letsGo isRunning a = 0 → c'.sendPackets.AtFront) := by
  have hsafe := h.safe
  cases stepSend_cases hstep with
  | test hpc =>
    refine ⟨rfl, rfl, held_setSend ?_, fun _ => ?_⟩
    · rw [hpc]
      cases isRunning <;> rfl
    · cases isRunning <;> trivial
  | enterReleased u hpc hreleased =>
    refine ⟨rfl, rfl, held_setSend ?_, fun _ => rfl⟩
    rw [hpc]
    rfl
  | enterWait u hpc hreleased =>
    refine ⟨rfl, rfl, held_setSend ?_, fun _ => trivial⟩
    rw [hpc]
    rfl
  | pop size hpc hdone =>
    refine ⟨rfl, rfl, ?_, fun _ => rfl⟩
    rw [hpc]
    show c.queue.popAllLocked.queue.packets.length +
      (PacketList.packets c.queue.popAllLocked.list).length + 0 =
        c.queue.packets.length + c.sendPackets.unsent.length
    rw [hpc]
    obtain ⟨-, ⟨-, hbatch, hrest⟩ | ⟨-, hnull, hsame⟩⟩ :=
      Workqueue.popAllLocked_cases h.holds size
    · rw [hbatch.packets_eq, hrest]
      exact Nat.zero_add _
    · rw [hnull, hsame]
      rfl
  | next internalPacket size idx hpc hidx =>
    refine ⟨rfl, rfl, held_setSend ?_, fun _ => ?_⟩
    · rw [hpc]
      cases isRunning with
      | true => rfl
      | false => exact Nat.zero_add _
    · rw [hpc] at hfront
      cases isRunning with
      | true => exact hfront
      | false => trivial
  | batchDone internalPacket size idx hpc hidx =>
    refine ⟨rfl, rfl, held_setSend ?_, fun _ => trivial⟩
    rw [hpc] at hsafe ⊢
    have hempty : (SendPacketsPc.loop internalPacket size idx).unsent.length = 0 := by
      obtain ⟨batch, hbatch⟩ | ⟨hnull, -⟩ := hsafe
      · have hlen := hbatch.elements_eq
        rw [SendPacketsPc.unsent, hbatch.packets_eq, List.length_drop]
        omega
      · rw [SendPacketsPc.unsent, hnull]
        exact congrArg List.length List.drop_nil
    rw [SendPacketsPc.letsGo, hempty]
    cases isRunning <;> rfl
  | allocate result internalPacket size idx p hpc hp =>
    rw [hpc] at hsafe hfront
    obtain ⟨batch, hbatch, hidx⟩ := hsafe
    obtain rfl : idx = 0 := hfront
    refine ⟨rfl, rfl, held_setSend ?_, fun hkept => ?_⟩
    · rw [hpc, sizeTInc_of_lt (by omega)]
      simp only [SendPacketsPc.unsent, SendPacketsPc.letsGo, hbatch.packets_eq, List.length_drop]
      omega
    · rw [hpc] at hkept
      exact absurd hkept Nat.one_ne_zero
  | allocateFault result internalPacket size idx hpc hp =>
    rw [hpc] at hsafe
    obtain ⟨batch, hbatch, hidx⟩ := hsafe
    exact absurd hp (hbatch.element_ne_none hidx)
  | throwsPop size hpc =>
    refine ⟨rfl, rfl, held_setSend ?_, fun _ => trivial⟩
    rw [hpc]
    rfl
  | throwsSend internalPacket size idx hpc =>
    refine ⟨rfl, rfl, held_setSend ?_, fun _ => trivial⟩
    rw [hpc]
    exact Nat.zero_add _

end IncomingPath

/-! ## 4. Whole sessions -/

namespace Session

-- What a path holds is what is in its queue and in the batches taken from it.
theorem held_eq (s : Session α n) : s.outgoing.held + s.incoming.held =
    s.outgoing.queue.packets.length + s.incoming.queue.packets.length + s.inBatches := by
  unfold OutgoingPath.held IncomingPath.held inBatches
  omega

/-- A queue has one slot less than its capacity. -/
theorem packets_length_le {q : Workqueue α} (h : q.Holds q.packets) :
    q.packets.length ≤ q.capacity - 1 := by
  have hsize := h.size_eq
  have hlt := h.wf.size_lt
  omega

theorem owned_iff {s : Session α n} (h : s.Valid) :
    s.Owned ↔ s.created = s.deleted + (s.outgoing.held + s.incoming.held) := by
  have hout := packets_length_le h.outgoing.holds
  have hin := packets_length_le h.incoming.holds
  rw [held_eq]
  constructor
  · exact fun howned => howned.eq
  · exact fun heq => ⟨heq, by omega⟩

/-- **The ledger.**  A step that creates a packet, deletes one or moves one on keeps the balance;
what it lets go is missing from it. -/
theorem next_ledger {packetSize : α → Nat} {s t : Session α n} {a : SessionLabel α n}
    (h : s.Valid) (hfront : s.incoming.sendPackets.AtFront) (hn : s.next packetSize a = some t) :
    t.created + (s.deleted + (s.outgoing.held + s.incoming.held)) =
        s.created + (t.deleted + (t.outgoing.held + t.incoming.held) + s.letsGo a) ∧
      (s.letsGo a = 0 → t.incoming.sendPackets.AtFront) := by
  unfold created deleted
  cases a with
  | receivePackets b =>
    obtain ⟨o, ho, rfl⟩ := Option.map_eq_some_iff.mp hn
    have hledger := OutgoingPath.stepReceive_ledger h.outgoing.holds ho
    refine ⟨?_, fun _ => hfront⟩
    simp only [letsGo]
    omega
  | sender i b =>
    obtain ⟨o, ho, rfl⟩ := Option.map_eq_some_iff.mp hn
    obtain ⟨hcreated, hdeleted, hheld⟩ := OutgoingPath.stepSender_ledger h.outgoing ho
    refine ⟨?_, fun _ => hfront⟩
    simp only [letsGo]
    omega
  | sendPackets b =>
    obtain ⟨c, hc, rfl⟩ := Option.map_eq_some_iff.mp hn
    obtain ⟨hcreated, hdeleted, hheld, hfront'⟩ :=
      IncomingPath.stepSend_ledger h.incoming hfront hc
    refine ⟨?_, hfront'⟩
    simp only [letsGo]
    omega
  | receiver i b =>
    obtain ⟨c, hc, rfl⟩ := Option.map_eq_some_iff.mp hn
    obtain ⟨hsend, hledger⟩ := IncomingPath.stepReceiver_ledger h.incoming.holds hc
    refine ⟨?_, fun _ => ?_⟩
    · simp only [letsGo]
      omega
    · show c.sendPackets.AtFront
      rw [hsend]
      exact hfront
  | shutdown =>
    simp only [Session.next, stepShutdown] at hn
    split at hn <;> first
      | contradiction
      | (rw [Option.some.injEq] at hn; subst hn; exact ⟨rfl, fun _ => hfront⟩)

theorem atFront_of_reachWhile {packetSize : α → Nat} {s : Session α n}
    (h : (sessionMachine packetSize n).ReachWhile (fun s a => s.letsGo a = 0) s) :
    s.incoming.sendPackets.AtFront ∧ s.Owned := by
  refine h.invariant_of (I := fun s => s.incoming.sendPackets.AtFront ∧ s.Owned)
    (fun _ hs => valid_of_reach hs.reach) ?_ ?_
  · rintro s ⟨capacity, server, hcap, rfl⟩
    refine ⟨trivial, (owned_iff (start_valid hcap server)).mpr ?_⟩
    have hnew : (Workqueue.new capacity : Workqueue α).packets = [] :=
      (Workqueue.new_holds hcap).packets_eq
    show 0 + 0 = 0 + 0 + ((Workqueue.new capacity : Workqueue α).packets.length +
      ∑ _i : Fin n, 0 + ((Workqueue.new capacity : Workqueue α).packets.length + 0))
    rw [hnew, sum_const_zero]
    rfl
  · intro s a t hs hvalid hvalid' hkept hn
    obtain ⟨hledger, hfront⟩ := next_ledger hvalid hs.1 hn
    have howned := (owned_iff hvalid).mp hs.2
    refine ⟨hfront hkept, (owned_iff hvalid').mpr ?_⟩
    omega

end Session

/-- **Every packet has an owner for as long as none is let go**, and the first step that lets one go
is the end of it: nobody has the packet any more and nobody deletes it. -/
theorem owned_while_kept (packetSize : α → Nat) {s : Session α n}
    (h : (sessionMachine packetSize n).ReachWhile (fun s a => s.letsGo a = 0) s) :
    s.Owned ∧ ∀ a t, s.next packetSize a = some t → (t.Owned ↔ s.letsGo a = 0) := by
  obtain ⟨hfront, howned⟩ := Session.atFront_of_reachWhile h
  refine ⟨howned, fun a t hn => ?_⟩
  have hvalid := Session.valid_of_reach h.reach
  have hreach : (sessionMachine packetSize n).Reach t := h.reach.next trivial hn
  obtain ⟨hledger, -⟩ := Session.next_ledger hvalid hfront hn
  rw [Session.owned_iff hvalid] at howned
  rw [Session.owned_iff (Session.valid_of_reach hreach)]
  omega

/-- A packet is received and a sender takes it. -/
def packetTaken (i : Fin n) : List (SessionLabel Nat n) :=
  [.receivePackets .run, .receivePackets (.read (.packet 7)), .receivePackets .run,
    .sender i .run, .sender i (.enter 0), .sender i .run, .sender i .run]

theorem owned_while_kept_taken :
    let s := ((sessionMachine id 1).runWhile (fun s a => s.letsGo a = 0)
      (.start 4 ⟨⟨10, 0, 0, 1⟩, 5555⟩) (packetTaken 0)).get (by decide)
    s.Owned ∧ ∀ a t, s.next id a = some t → (t.Owned ↔ s.letsGo a = 0) :=
  owned_while_kept id
    ⟨_, ⟨4, _, by decide, rfl⟩, Machine.leads_of_runWhile (Option.some_get (by decide)).symm⟩

/-- The packet is sent, and that is the last anyone knows of it. -/
theorem sentPacket_not_owned :
    ¬ ∀ (α : Type) (packetSize : α → Nat) (n : Nat) (s : Session α n),
      (sessionMachine packetSize n).Reach s → s.Owned := by
  intro hclaim
  have hrun : (sessionMachine id 1).run (.start 4 ⟨⟨10, 0, 0, 1⟩, 5555⟩)
      (packetTaken 0 ++ [.sender 0 (.sendto .success), .sender 0 .run, .sender 0 .run]) =
      some (((sessionMachine id 1).run (.start 4 ⟨⟨10, 0, 0, 1⟩, 5555⟩) (packetTaken 0 ++
        [.sender 0 (.sendto .success), .sender 0 .run, .sender 0 .run])).get (by decide)) :=
    (Option.some_get _).symm
  have howned := (hclaim Nat id 1 _ (Machine.reach_of_run ⟨4, _, by decide, rfl⟩ hrun)).eq
  revert howned
  decide

end NetShare
