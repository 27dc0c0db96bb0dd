import NetShare.SessionSteps
import Mathlib.Data.List.ReduceOption

/-!
# The lists a `popX` returns

A list and its count describe a batch, or the queue was released and the list is null.  `shutdown`
clears `isRunning` before it releases the queues, and both loops test the flag between a `popX` and
the first element they read.  So the null list is never read, whatever count goes with it.
-/

namespace NetShare

open Reasoning

variable {α : Type} {n : Nat}

/-! ## 1. Batches -/

/-- The packets whose pointers are in the queue. -/
def Workqueue.packets (q : Workqueue α) : List α := q.contents.reduceOption

/-- The packets whose pointers are in a list a `popX` returned. -/
def PacketList.packets (list : PacketList α) : List α := (list.getD []).reduceOption

@[simp] theorem reduceOption_map_some (l : List α) : (l.map some).reduceOption = l := by
  induction l with
  | nil => rfl
  | cons x l ih => rw [List.map_cons, List.reduceOption_cons_of_some, ih]

theorem Workqueue.Holds.packets_eq {q : Workqueue α} {items : List α} (h : q.Holds items) :
    q.packets = items := by
  rw [Workqueue.packets, h.contents_eq, reduceOption_map_some]

/-- A push appends its packet or drops it. -/
theorem Workqueue.push_cases {q : Workqueue α} (h : q.Holds q.packets) (p : α) :
    (q.push p).queue.Holds (q.push p).queue.packets ∧
      (((q.push p).accepted = true ∧ (q.push p).queue.packets = q.packets ++ [p]) ∨
        ((q.push p).accepted = false ∧ (q.push p).queue.packets = q.packets)) := by
  by_cases hfull : q.size = q.capacity - 1
  · rw [push_full hfull]
    exact ⟨h, .inr ⟨rfl, rfl⟩⟩
  · obtain ⟨hacc, hholds, -⟩ := push_room h hfull p
    rw [hholds.packets_eq]
    exact ⟨hholds, .inl ⟨hacc, rfl⟩⟩

/-- The list and the count a `popX` left behind describe this batch. -/
structure IsBatch (packet : PacketList α) (elements : Nat) (batch : List α) : Prop where
  packet_eq : packet = some (batch.map some)
  elements_eq : elements = batch.length

/-- A batch of `popSize(3)`. -/
structure IsSenderBatch (packet : PacketList α) (elements : Nat) (batch : List α) : Prop extends
    IsBatch packet elements batch where
  length_le : batch.length ≤ 3

namespace IsBatch

variable {packet : PacketList α} {elements : Nat} {batch : List α}

theorem packets_eq (h : IsBatch packet elements batch) : packet.packets = batch := by
  rw [PacketList.packets, h.packet_eq, Option.getD_some, reduceOption_map_some]

-- Inside the batch an access finds its packet, beyond it nothing.
theorem element_eq (h : IsBatch packet elements batch) (i : Nat) :
    packet.element i = batch[i]? := by
  rw [PacketList.element, h.packet_eq, Option.bind_some, List.getElem?_map]
  cases batch[i]? <;> rfl

theorem element_ne_none (h : IsBatch packet elements batch) {i : Nat} (hi : i < batch.length) :
    packet.element i ≠ none := by
  rw [h.element_eq, List.getElem?_eq_getElem hi]
  exact Option.some_ne_none _

end IsBatch

/-- The locked part of `popSize`: a batch off the front, or null from a released queue. -/
theorem Workqueue.popSizeLocked_cases {q : Workqueue α} (h : q.Holds q.packets) (elements : Nat) :
    (q.popSizeLocked 3).queue.Holds (q.popSizeLocked 3).queue.packets ∧
      ((q.released = false ∧ IsSenderBatch (q.popSizeLocked 3).list
          ((q.popSizeLocked 3).actualSize.getD elements) (q.packets.take 3) ∧
          (q.popSizeLocked 3).queue.packets = q.packets.drop 3) ∨
        (q.released = true ∧ (q.popSizeLocked 3).list = none ∧
          (q.popSizeLocked 3).queue = q)) := by
  cases hreleased : q.released with
  | false =>
    obtain ⟨hlist, hsize, hholds⟩ := popSizeLocked_holds h hreleased 3
    rw [hholds.packets_eq]
    refine ⟨hholds, .inl ⟨rfl, ⟨⟨hlist, ?_⟩, ?_⟩, rfl⟩⟩
    · rw [hsize, Option.getD_some, List.length_take]
      exact Nat.min_comm _ _
    · rw [List.length_take]
      exact Nat.min_le_left _ _
  | true =>
    have hpop : (q.popSizeLocked 3).list = none ∧ (q.popSizeLocked 3).queue = q := by
      simp only [popSizeLocked, hreleased, if_true, and_self]
    refine ⟨?_, .inr ⟨rfl, hpop⟩⟩
    rw [hpop.2]
    exact h

/-- The locked part of `popAll`. -/
theorem Workqueue.popAllLocked_cases {q : Workqueue α} (h : q.Holds q.packets) (size : Nat) :
    q.popAllLocked.queue.Holds q.popAllLocked.queue.packets ∧
      ((q.released = false ∧ IsBatch q.popAllLocked.list (q.popAllLocked.actualSize.getD size)
          q.packets ∧ q.popAllLocked.queue.packets = []) ∨
        (q.released = true ∧ q.popAllLocked.list = none ∧ q.popAllLocked.queue = q)) := by
  cases hreleased : q.released with
  | false =>
    obtain ⟨hlist, hsize, hholds⟩ := popAllLocked_holds h hreleased
    rw [hholds.packets_eq]
    refine ⟨hholds, .inl ⟨rfl, ⟨hlist, ?_⟩, rfl⟩⟩
    rw [hsize, Option.getD_some]
  | true =>
    have hpop : q.popAllLocked.list = none ∧ q.popAllLocked.queue = q := by
      simp only [popAllLocked, hreleased, if_true, and_self]
    refine ⟨?_, .inr ⟨rfl, hpop⟩⟩
    rw [hpop.2]
    exact h

/-! ## 2. Lists on the way down -/

/-- The list and the count of a sender describe a batch and its index lies in it; if the driver has
been stopped, the list of the last `popSize` may be null. -/
def SenderPc.Safe (isRunning : Bool) : SenderPc α → Prop
  | .recheck packet elements =>
    (∃ batch, IsSenderBatch packet elements batch) ∨ packet = none ∧ isRunning = false
  | .loop packet elements i => ∃ batch, IsSenderBatch packet elements batch ∧ i ≤ batch.length
  | .sent packet elements i _ => ∃ batch, IsSenderBatch packet elements batch ∧ i < batch.length
  | .fault => False
  | _ => True

/-- `SendPackets` makes the test inside its `for` loop. -/
def SendPacketsPc.Safe (isRunning : Bool) : SendPacketsPc α → Prop
  | .loop internalPacket size _ =>
    (∃ batch, IsBatch internalPacket size batch) ∨ internalPacket = none ∧ isRunning = false
  | .send internalPacket size i => ∃ batch, IsBatch internalPacket size batch ∧ i < batch.length
  | .fault => False
  | _ => True

-- Stopping the driver only weakens what is asked.
theorem SenderPc.Safe.stop {isRunning : Bool} {pc : SenderPc α} (h : pc.Safe isRunning) :
    pc.Safe false := by
  cases pc with
  | recheck packet elements => exact h.imp_right fun hnull => ⟨hnull.1, rfl⟩
  | _ => exact h

theorem SendPacketsPc.Safe.stop {isRunning : Bool} {pc : SendPacketsPc α} (h : pc.Safe isRunning) :
    pc.Safe false := by
  cases pc with
  | loop internalPacket size i => exact h.imp_right fun hnull => ⟨hnull.1, rfl⟩
  | _ => exact h

namespace OutgoingPath

/-- The path at any time of a session. -/
structure Valid (isRunning : Bool) (o : OutgoingPath α n) : Prop where
  holds : o.queue.Holds o.queue.packets
  stopped : o.queue.released = true → isRunning = false
  safe : ∀ i, (o.senders i).Safe isRunning

theorem Valid.setSender {isRunning : Bool} {o : OutgoingPath α n} (h : o.Valid isRunning)
    {i : Fin n} {pc : SenderPc α} (hpc : pc.Safe isRunning) :
    (o.setSender i pc).Valid isRunning := by
  refine ⟨h.holds, h.stopped, fun j => ?_⟩
  by_cases hj : j = i
  · subst hj
    simpa only [OutgoingPath.setSender, Function.update_self] using hpc
  · simpa only [OutgoingPath.setSender, Function.update_of_ne hj] using h.safe j

theorem Valid.pushPacket {isRunning : Bool} {o : OutgoingPath α n} (h : o.Valid isRunning) (p : α) :
    (o.pushPacket p).Valid isRunning := by
  refine ⟨?_, ?_, h.safe⟩
  · show (o.queue.push p).queue.Holds (o.queue.push p).queue.packets
    exact (Workqueue.push_cases h.holds p).1
  · show (o.queue.push p).queue.released = true → isRunning = false
    rw [Workqueue.push_released]
    exact h.stopped

theorem Valid.stepReceive {isRunning : Bool} {o o' : OutgoingPath α n} (h : o.Valid isRunning)
    {a : ReceiveAct α} (hstep : o.stepReceive isRunning a = some o') : o'.Valid isRunning := by
  obtain ⟨p, rfl⟩ | ⟨receivePackets, rfl⟩ := stepReceive_cases hstep
  · have hpush := h.pushPacket p
    exact ⟨hpush.holds, hpush.stopped, hpush.safe⟩
  · exact ⟨h.holds, h.stopped, h.safe⟩

/-- A sender that evaluates a result goes on inside its batch. -/
theorem afterSendto_safe {isRunning : Bool} {packet : PacketList α} {elements idx : Nat}
    {batch : List α} (hbatch : IsSenderBatch packet elements batch) (hidx : idx < batch.length)
    (iResult : SendtoResult) : (afterSendto packet elements idx iResult).Safe isRunning := by
  have hsmall := hbatch.length_le
  cases iResult with
  | success =>
    rw [afterSendto, sizeTInc_of_lt (by omega)]
    exact ⟨batch, hbatch, hidx⟩
  | wouldBlock =>
    rw [afterSendto, sizeTInc_sizeTDec (by omega)]
    exact ⟨batch, hbatch, Nat.le_of_lt hidx⟩
  | error => trivial

theorem Valid.stepSender {packetSize : α → Nat} {isRunning : Bool} {o o' : OutgoingPath α n}
    (h : o.Valid isRunning) {i : Fin n} {a : SenderAct}
    (hstep : o.stepSender packetSize isRunning i a = some o') : o'.Valid isRunning := by
  have hsafe := h.safe i
  cases stepSender_cases hstep with
  | test hpc =>
    apply h.setSender
    cases isRunning <;> trivial
  | enterReleased u hpc hreleased =>
    apply h.setSender
    exact .inr ⟨rfl, h.stopped hreleased⟩
  | enterWait u hpc hreleased => exact h.setSender trivial
  | pop elements hpc hdone =>
    obtain ⟨hholds, hcases⟩ := Workqueue.popSizeLocked_cases h.holds elements
    have hset : (SenderPc.recheck (o.queue.popSizeLocked 3).list
        ((o.queue.popSizeLocked 3).actualSize.getD elements)).Safe isRunning := by
      obtain ⟨-, hbatch, -⟩ | ⟨hreleased, hnull, -⟩ := hcases
      · exact .inl ⟨_, hbatch⟩
      · exact .inr ⟨hnull, h.stopped hreleased⟩
    refine ⟨hholds, ?_, (h.setSender hset).safe⟩
    show (o.queue.popSizeLocked 3).queue.released = true → isRunning = false
    rw [Workqueue.popSizeLocked_queue_released]
    exact h.stopped
  | recheck packet elements hpc =>
    rw [hpc] at hsafe
    apply h.setSender
    cases hrun : isRunning with
    | false => trivial
    | true =>
      obtain ⟨batch, hbatch⟩ | ⟨-, hstopped⟩ := hsafe
      · exact ⟨batch, hbatch, Nat.zero_le _⟩
      · exact absurd (hrun.symm.trans hstopped) (by decide)
  | batchDone packet elements idx hpc hidx => exact h.setSender trivial
  | sendto iResult packet elements idx p hpc hidx hp =>
    rw [hpc] at hsafe
    obtain ⟨batch, hbatch, -⟩ := hsafe
    have hset : (SenderPc.sent packet elements idx iResult).Safe isRunning :=
      ⟨batch, hbatch, hbatch.elements_eq ▸ hidx⟩
    exact ⟨h.holds, h.stopped, (h.setSender hset).safe⟩
  | sendtoFault iResult packet elements idx hpc hidx hp =>
    rw [hpc] at hsafe
    obtain ⟨batch, hbatch, -⟩ := hsafe
    exact absurd hp (hbatch.element_ne_none (hbatch.elements_eq ▸ hidx))
  | evaluate packet elements idx iResult p hpc hp =>
    rw [hpc] at hsafe
    obtain ⟨batch, hbatch, hidx⟩ := hsafe
    have hset := h.setSender (i := i) (afterSendto_safe hbatch hidx iResult)
    exact ⟨h.holds, h.stopped, hset.safe⟩
  | evaluateFault packet elements idx iResult hpc hp =>
    rw [hpc] at hsafe
    obtain ⟨batch, hbatch, hidx⟩ := hsafe
    exact absurd hp (hbatch.element_ne_none hidx)

end OutgoingPath

namespace IncomingPath

/-- As `OutgoingPath.Valid`. -/
structure Valid (isRunning : Bool) (c : IncomingPath α n) : Prop where
  holds : c.queue.Holds c.queue.packets
  stopped : c.queue.released = true → isRunning = false
  safe : c.sendPackets.Safe isRunning

theorem Valid.setSend {isRunning : Bool} {c : IncomingPath α n} (h : c.Valid isRunning)
    {pc : SendPacketsPc α} (hpc : pc.Safe isRunning) : (c.setSend pc).Valid isRunning :=
  ⟨h.holds, h.stopped, hpc⟩

theorem Valid.stepReceiver {packetSize : α → Nat} {isRunning : Bool} {c c' : IncomingPath α n}
    (h : c.Valid isRunning) {i : Fin n} {a : SocketReceiverAct α}
    (hstep : c.stepReceiver packetSize isRunning i a = some c') : c'.Valid isRunning := by
  obtain ⟨p, rfl⟩ | ⟨receivers, statsReceived, rfl⟩ := stepReceiver_cases hstep
  · refine ⟨?_, ?_, h.safe⟩
    · show (c.queue.push p).queue.Holds (c.queue.push p).queue.packets
      exact (Workqueue.push_cases h.holds p).1
    · show (c.queue.push p).queue.released = true → isRunning = false
      rw [Workqueue.push_released]
      exact h.stopped
  · exact ⟨h.holds, h.stopped, h.safe⟩

theorem Valid.stepSend {isRunning : Bool} {c c' : IncomingPath α n} (h : c.Valid isRunning)
    {a : SendPacketsAct} (hstep : c.stepSend isRunning a = some c') : c'.Valid isRunning := by
  have hsafe := h.safe
  cases stepSend_cases hstep with
  | test hpc =>
    apply h.setSend
    cases isRunning <;> trivial
  | enterReleased u hpc hreleased => exact h.setSend (.inr ⟨rfl, h.stopped hreleased⟩)
  | enterWait u hpc hreleased => exact h.setSend trivial
  | pop size hpc hdone =>
    obtain ⟨hholds, hcases⟩ := Workqueue.popAllLocked_cases h.holds size
    refine ⟨hholds, ?_, ?_⟩
    · show c.queue.popAllLocked.queue.released = true → isRunning = false
      rw [Workqueue.popAllLocked_queue_released]
      exact h.stopped
    · obtain ⟨-, hbatch, -⟩ | ⟨hreleased, hnull, -⟩ := hcases
      · exact .inl ⟨_, hbatch⟩
      · exact .inr ⟨hnull, h.stopped hreleased⟩
  | next internalPacket size idx hpc hidx =>
    rw [hpc] at hsafe
    apply h.setSend
    cases hrun : isRunning with
    | false => trivial
    | true =>
      obtain ⟨batch, hbatch⟩ | ⟨-, hstopped⟩ := hsafe
      · exact ⟨batch, hbatch, hbatch.elements_eq ▸ hidx⟩
      · exact absurd (hrun.symm.trans hstopped) (by decide)
  | batchDone internalPacket size idx hpc hidx => exact h.setSend trivial
  | allocate result internalPacket size idx p hpc hp =>
    rw [hpc] at hsafe
    obtain ⟨batch, hbatch, -⟩ := hsafe
    exact h.setSend (.inl ⟨batch, hbatch⟩)
  | allocateFault result internalPacket size idx hpc hp =>
    rw [hpc] at hsafe
    obtain ⟨batch, hbatch, hidx⟩ := hsafe
    exact absurd hp (hbatch.element_ne_none hidx)
  | throwsPop size hpc => exact h.setSend trivial
  | throwsSend internalPacket size idx hpc => exact h.setSend trivial

end IncomingPath

/-! ## 3. Whole sessions -/

namespace Session

/-- Both paths at any time of a session. -/
structure Valid (s : Session α n) : Prop where
  outgoing : s.outgoing.Valid s.isRunning
  incoming : s.incoming.Valid s.isRunning

theorem start_valid {capacity : Nat} (hcap : 1 ≤ capacity) (server : SockAddr) :
    (start capacity server : Session α n).Valid := by
  have hnew : (Workqueue.new capacity : Workqueue α).Holds (Workqueue.new capacity).packets := by
    rw [(Workqueue.new_holds hcap).packets_eq]
    exact Workqueue.new_holds hcap
  have hreleased : (Workqueue.new capacity : Workqueue α).released = true → true = false :=
    fun hfalse => absurd hfalse Bool.false_ne_true
  exact ⟨⟨hnew, hreleased, fun _ => trivial⟩, ⟨hnew, hreleased, trivial⟩⟩

-- A path stays valid when the driver is told to stop, and from then on its queue may be released.
theorem Valid.stop {s : Session α n} (h : s.Valid) :
    s.outgoing.Valid false ∧ s.incoming.Valid false :=
  ⟨⟨h.outgoing.holds, fun _ => rfl, fun i => (h.outgoing.safe i).stop⟩,
    ⟨h.incoming.holds, fun _ => rfl, h.incoming.safe.stop⟩⟩

/-- **Every step keeps both paths valid**, those of `shutdown` because `isRunning` has been cleared
before a queue is released. -/
theorem Valid.next {packetSize : α → Nat} {s t : Session α n} {a : SessionLabel α n}
    (h : s.Valid) (hord : s.ReleaseOrdered) (hn : s.next packetSize a = some t) : t.Valid := by
  cases a with
  | receivePackets b =>
    obtain ⟨o, ho, rfl⟩ := Option.map_eq_some_iff.mp hn
    exact ⟨h.outgoing.stepReceive ho, h.incoming⟩
  | sender i b =>
    obtain ⟨o, ho, rfl⟩ := Option.map_eq_some_iff.mp hn
    exact ⟨h.outgoing.stepSender ho, h.incoming⟩
  | sendPackets b =>
    obtain ⟨c, hc, rfl⟩ := Option.map_eq_some_iff.mp hn
    exact ⟨h.outgoing, h.incoming.stepSend hc⟩
  | receiver i b =>
    obtain ⟨c, hc, rfl⟩ := Option.map_eq_some_iff.mp hn
    exact ⟨h.outgoing, h.incoming.stepReceiver hc⟩
  | shutdown =>
    obtain ⟨hout, hin⟩ := h.stop
    -- what `ReleaseOrdered` says of the two stages in which the queues are released
    have hstopped (hpc : s.shutdown = .stopped ∨ s.shutdown = .sendingReleased) :
        s.isRunning = false := by
      rw [← Bool.not_eq_true]
      intro hrun
      have hearly := hord hrun
      obtain hpc | hpc := hpc <;> simp only [hpc, reduceCtorEq, or_self] at hearly
    simp only [Session.next, stepShutdown] at hn
    split at hn
    next =>
      rw [Option.some.injEq] at hn
      subst hn
      exact ⟨h.outgoing, h.incoming⟩
    next =>
      rw [Option.some.injEq] at hn
      subst hn
      exact ⟨hout, hin⟩
    next hpc =>
      rw [Option.some.injEq] at hn
      subst hn
      have hrun := hstopped (.inl hpc)
      exact ⟨⟨hout.holds.releaseAll, fun _ => hrun, h.outgoing.safe⟩, h.incoming⟩
    next hpc =>
      rw [Option.some.injEq] at hn
      subst hn
      have hrun := hstopped (.inr hpc)
      exact ⟨h.outgoing, ⟨hin.holds.releaseAll, fun _ => hrun, h.incoming.safe⟩⟩
    next => contradiction

theorem valid_of_reach {packetSize : α → Nat} {s : Session α n}
    (h : (sessionMachine packetSize n).Reach s) : s.Valid := by
  refine h.invariant_of (fun _ => releaseOrdered_of_reach) ?_ ?_
  · rintro s ⟨capacity, server, hcap, rfl⟩
    exact start_valid hcap server
  · intro s a t hs hord _ _ hn
    exact hs.next hord hn

end Session

/-! ## 4. What a worker reads -/

/-- The threads `run` starts. -/
inductive Worker (n : Nat) where
  | receivePackets
  | sendPackets
  | sender (i : Fin n)
  | receiver (i : Fin n)
deriving DecidableEq

/-- The list and the index of the element that a sender uses in its next step. -/
def SenderPc.reads : SenderPc α → Option (PacketList α × Nat)
  | .loop packet elements i => if i < elements then some (packet, i) else none
  | .sent packet _ i _ => some (packet, i)
  | _ => none

def SendPacketsPc.reads : SendPacketsPc α → Option (PacketList α × Nat)
  | .send internalPacket _ i => some (internalPacket, i)
  | _ => none

def Session.reads (s : Session α n) : Worker n → Option (PacketList α × Nat)
  | .sender i => (s.outgoing.senders i).reads
  | .sendPackets => s.incoming.sendPackets.reads
  | _ => none

/-- **No worker touches a null or short list.**  At any time of a session, whatever the order of its
steps, the element that a worker uses next lies in a list that `popSize` or `popAll` has filled. -/
theorem reads_within (packetSize : α → Nat) {s : Session α n}
    (h : (sessionMachine packetSize n).Reach s) :
    (∀ (w : Worker n) (list : PacketList α) (i : Nat), s.reads w = some (list, i) →
        ∃ packets : List α, list = some (packets.map some) ∧ i < packets.length) ∧
      (∀ i, s.outgoing.senders i ≠ .fault) ∧ s.incoming.sendPackets ≠ .fault := by
  have hvalid := Session.valid_of_reach h
  refine ⟨fun w list i hreads => ?_, fun i hfault => ?_, fun hfault => ?_⟩
  · cases w with
    | receivePackets => cases hreads
    | receiver j => cases hreads
    | sender j =>
      have hsafe := hvalid.outgoing.safe j
      have hreads' : (s.outgoing.senders j).reads = some (list, i) := hreads
      cases hpc : s.outgoing.senders j with
      | loop packet elements idx =>
        rw [hpc] at hsafe hreads'
        obtain ⟨batch, hbatch, -⟩ := hsafe
        simp only [SenderPc.reads, Option.ite_none_right_eq_some, Option.some.injEq,
          Prod.mk.injEq] at hreads'
        obtain ⟨hidx, rfl, rfl⟩ := hreads'
        exact ⟨batch, hbatch.packet_eq, hbatch.elements_eq ▸ hidx⟩
      | sent packet elements idx iResult =>
        rw [hpc] at hsafe hreads'
        obtain ⟨batch, hbatch, hidx⟩ := hsafe
        cases hreads'
        exact ⟨batch, hbatch.packet_eq, hidx⟩
      | _ => rw [hpc] at hreads'; cases hreads'
    | sendPackets =>
      have hsafe := hvalid.incoming.safe
      have hreads' : s.incoming.sendPackets.reads = some (list, i) := hreads
      cases hpc : s.incoming.sendPackets with
      | send internalPacket size idx =>
        rw [hpc] at hsafe hreads'
        obtain ⟨batch, hbatch, hidx⟩ := hsafe
        cases hreads'
        exact ⟨batch, hbatch.packet_eq, hidx⟩
      | _ => rw [hpc] at hreads'; cases hreads'
  · have hsafe := hvalid.outgoing.safe i
    rw [hfault] at hsafe
    exact hsafe
  · have hsafe := hvalid.incoming.safe
    rw [hfault] at hsafe
    exact hsafe

/-- The driver is stopped and the queue released while a sender holds a batch; `SendPackets` finds
its queue released and a count that nobody has written. -/
def stoppedInBatch (i : Fin n) : List (SessionLabel Nat n) :=
  [.receivePackets .run, .receivePackets (.read (.packet 7)), .receivePackets .run,
    .sender i .run, .sender i (.enter 0), .sender i .run, .sender i .run, .sendPackets .run,
    .shutdown, .shutdown, .shutdown, .shutdown, .sendPackets (.enter 99)]

theorem reads_within_stopped :
    let s := ((sessionMachine id 1).run (.start 4 ⟨⟨10, 0, 0, 1⟩, 5555⟩)
      (stoppedInBatch 0)).get (by decide)
    (s.isRunning = false ∧ s.reads (.sender 0) = some (some [some 7], 0) ∧
        s.incoming.sendPackets = .loop none 99 0) ∧
      (∀ (w : Worker 1) (list : PacketList Nat) (i : Nat), s.reads w = some (list, i) →
        ∃ packets : List Nat, list = some (packets.map some) ∧ i < packets.length) ∧
      (∀ i, s.outgoing.senders i ≠ .fault) ∧ s.incoming.sendPackets ≠ .fault :=
  ⟨by decide, reads_within id
    (Machine.reach_of_run ⟨4, _, by decide, rfl⟩ (Option.some_get (by decide)).symm)⟩

end NetShare
