import NetShare.SessionWorkers
import NetShare.Reasoning.Machine
import Mathlib.Algebra.Order.BigOperators.Group.Finset

/-!
# The end of a session

`clearWorkers` waits for every worker, without a limit.  Once `shutdown` has released the queues
each worker can move until it has returned, and has only a few steps left, those apart in which a
socket refuses a packet: a sender tries that packet again without looking at `isRunning`.
-/

namespace NetShare

open Reasoning

variable {α : Type} {n : Nat}

/-! ## 1. What a worker has left to do -/

/-- The number of steps a worker of a stopped driver may still take. -/
def ReceivePc.rank : ReceivePc α → Nat
  | .test => 1
  | .receive => 3
  | .copy _ | .wait => 2
  | .returned _ => 0

/-- A packet that is not refused takes two. -/
def SenderPc.rank : SenderPc α → Nat
  | .test | .recheck _ _ => 1
  | .enter | .wait _ => 2
  | .loop _ elements i => 2 * (elements - i) + 2
  | .sent _ elements i iResult => 2 * (elements - i) + if iResult = .wouldBlock then 3 else 1
  | .returned _ | .fault => 0

def SendPacketsPc.rank : SendPacketsPc α → Nat
  | .test => 1
  | .enter | .wait _ | .send _ _ _ => 3
  | .loop _ _ _ => 2
  | .returned _ | .fault => 0

def SocketReceiverPc.rank : SocketReceiverPc α → Nat
  | .test | .timedOut | .pushed _ => 1
  | .select => 4
  | .recvfrom => 3
  | .copy _ => 2
  | .returned _ => 0

namespace Session

open Finset in
def rank (s : Session α n) : Nat :=
  s.outgoing.receivePackets.pc.rank + ∑ i, (s.outgoing.senders i).rank +
    (s.incoming.sendPackets.rank + ∑ i, (s.incoming.receivers i).pc.rank)

/-- `shutdown` has come as far as `clearWorkers`. -/
structure Released (s : Session α n) : Prop where
  valid : s.Valid
  shutdown : s.shutdown = .released
  isRunning : s.isRunning = false
  outgoing : s.outgoing.queue.released = true
  incoming : s.incoming.queue.released = true

/-- The stages of `shutdown` at which a queue has been released. -/
structure ReleasedInOrder (s : Session α n) : Prop where
  outgoing : s.shutdown = .sendingReleased ∨ s.shutdown = .released →
    s.outgoing.queue.released = true
  incoming : s.shutdown = .released → s.incoming.queue.released = true

end Session

/-- A `sendto` that is refused. -/
def SenderAct.isRefusal : SenderAct → Bool
  | .sendto .wouldBlock => true
  | _ => false

def SessionLabel.isRefusal : SessionLabel α n → Bool
  | .sender _ a => a.isRefusal
  | _ => false

/-- A refused `sendto` and the evaluation of its result come on top. -/
def SessionLabel.gain (a : SessionLabel α n) : Nat := 2 * a.isRefusal.toNat

/-! ## 2. Every step leaves less to do -/

namespace OutgoingPath

theorem stepReceive_rank {o o' : OutgoingPath α n} {a : ReceiveAct α}
    (h : o.stepReceive false a = some o') :
    o'.receivePackets.pc.rank + 1 ≤ o.receivePackets.pc.rank ∧ o'.senders = o.senders ∧
      o'.queue.released = o.queue.released := by
  cases hpc : o.receivePackets.pc with
  | test =>
    cases a <;> simp only [stepReceive, hpc, reduceCtorEq] at h
    obtain rfl := Option.some.inj h
    exact ⟨Nat.le_refl _, rfl, rfl⟩
  | receive =>
    cases a with
    | read result =>
      simp only [stepReceive, hpc] at h
      repeat' split at h
      all_goals
        obtain rfl := Option.some.inj h
        exact ⟨by simp [ReceivePc.rank], rfl, rfl⟩
    | _ => simp only [stepReceive, hpc, reduceCtorEq] at h
  | copy p =>
    cases a with
    | run =>
      simp only [stepReceive, hpc] at h
      obtain rfl := Option.some.inj h
      exact ⟨Nat.le_refl _, rfl, Workqueue.push_released _ _⟩
    | throws =>
      simp only [stepReceive, hpc] at h
      obtain rfl := Option.some.inj h
      exact ⟨Nat.le_succ _, rfl, rfl⟩
    | _ => simp only [stepReceive, hpc, reduceCtorEq] at h
  | wait =>
    cases a <;> simp only [stepReceive, hpc, reduceCtorEq] at h
    obtain rfl := Option.some.inj h
    exact ⟨Nat.le_refl _, rfl, rfl⟩
  | returned cause => cases a <;> simp only [stepReceive, hpc, reduceCtorEq] at h

/-- The evaluation of a `sendto` goes on with the next packet or tries the same one again. -/
theorem afterSendto_rank {packet : PacketList α} {elements i : Nat} {iResult : SendtoResult}
    (hi : i < elements) (hle : elements ≤ 3) :
    (afterSendto packet elements i iResult).rank + 1 ≤
      (SenderPc.sent packet elements i iResult).rank := by
  cases iResult with
  | success =>
    rw [afterSendto, sizeTInc_of_lt (by omega)]
    show 2 * (elements - (i + 1)) + 2 + 1 ≤ 2 * (elements - i) + 1
    omega
  | wouldBlock =>
    rw [afterSendto, sizeTInc_sizeTDec (by omega)]
    exact Nat.le_refl _
  | error =>
    show 0 + 1 ≤ 2 * (elements - i) + 1
    omega

theorem stepSender_rank {packetSize : α → Nat} {o o' : OutgoingPath α n} {i : Fin n}
    {a : SenderAct} (hreleased : o.queue.released = true) (hsafe : (o.senders i).Safe false)
    (h : o.stepSender packetSize false i a = some o') :
    ∃ pc, o'.senders = Function.update o.senders i pc ∧
      pc.rank + 1 ≤ (o.senders i).rank + 2 * a.isRefusal.toNat ∧
      o'.receivePackets = o.receivePackets ∧ o'.queue.released = true := by
  cases stepSender_cases h with
  | test hpc => exact ⟨_, rfl, by rw [hpc]; exact Nat.le_refl _, rfl, hreleased⟩
  | enterReleased u hpc hrel => exact ⟨_, rfl, by rw [hpc]; exact Nat.le_refl _, rfl, hreleased⟩
  | enterWait u hpc hrel => exact absurd (hreleased.symm.trans hrel) (by decide)
  | pop elements hpc hdone =>
    refine ⟨_, rfl, by rw [hpc]; exact Nat.le_refl _, rfl, ?_⟩
    exact (Workqueue.popSizeLocked_queue_released _ _).trans hreleased
  | recheck packet elements hpc =>
    exact ⟨_, rfl, by rw [hpc]; exact Nat.le_refl _, rfl, hreleased⟩
  | batchDone packet elements idx hpc hidx =>
    refine ⟨_, rfl, ?_, rfl, hreleased⟩
    rw [hpc]
    show 1 + 1 ≤ 2 * (elements - idx) + 2 + 0
    omega
  | sendto iResult packet elements idx p hpc hidx hp =>
    refine ⟨_, rfl, ?_, rfl, hreleased⟩
    rw [hpc]
    cases iResult with
    | wouldBlock => exact Nat.le_refl _
    | _ => exact Nat.le_refl _
  | sendtoFault iResult packet elements idx hpc hidx hp =>
    refine ⟨_, rfl, ?_, rfl, hreleased⟩
    rw [hpc]
    show 0 + 1 ≤ 2 * (elements - idx) + 2 + _
    omega
  | evaluate packet elements idx iResult p hpc hp =>
    rw [hpc] at hsafe
    obtain ⟨batch, hbatch, hidx⟩ := hsafe
    rw [← hbatch.elements_eq] at hidx
    refine ⟨_, rfl, ?_, rfl, hreleased⟩
    rw [hpc]
    exact afterSendto_rank hidx (hbatch.elements_eq ▸ hbatch.length_le)
  | evaluateFault packet elements idx iResult hpc hp =>
    rw [hpc] at hsafe
    obtain ⟨batch, hbatch, hidx⟩ := hsafe
    exact absurd hp (hbatch.element_ne_none hidx)

end OutgoingPath

namespace IncomingPath

theorem stepSend_rank {c c' : IncomingPath α n} {a : SendPacketsAct}
    (hreleased : c.queue.released = true) (h : c.stepSend false a = some c') :
    c'.sendPackets.rank + 1 ≤ c.sendPackets.rank ∧ c'.receivers = c.receivers ∧
      c'.queue.released = true := by
  have hreceivers := stepSend_receivers h
  cases stepSend_cases h with
  | enterWait u hpc hrel => exact absurd (hreleased.symm.trans hrel) (by decide)
  | pop size hpc hdone =>
    refine ⟨by rw [hpc]; exact Nat.le_refl _, rfl, ?_⟩
    exact (Workqueue.popAllLocked_queue_released _).trans hreleased
  | test hpc => exact ⟨by rw [hpc]; exact Nat.le_refl _, hreceivers, hreleased⟩
  | enterReleased u hpc hrel => exact ⟨by rw [hpc]; exact Nat.le_refl _, hreceivers, hreleased⟩
  | next l size idx hpc hidx => exact ⟨by rw [hpc]; exact Nat.le_succ _, hreceivers, hreleased⟩
  | batchDone l size idx hpc hidx => exact ⟨by rw [hpc]; exact Nat.le_refl _, hreceivers, hreleased⟩
  | allocate r l size idx p hpc hp =>
    exact ⟨by rw [hpc]; exact Nat.le_refl _, hreceivers, hreleased⟩
  | allocateFault r l size idx hpc hp =>
    exact ⟨by rw [hpc]; exact Nat.succ_le_succ (Nat.zero_le 2), hreceivers, hreleased⟩
  | throwsPop size hpc =>
    exact ⟨by rw [hpc]; exact Nat.succ_le_succ (Nat.zero_le 2), hreceivers, hreleased⟩
  | throwsSend l size idx hpc =>
    exact ⟨by rw [hpc]; exact Nat.succ_le_succ (Nat.zero_le 2), hreceivers, hreleased⟩

theorem stepReceiver_rank {packetSize : α → Nat} {c c' : IncomingPath α n} {i : Fin n}
    {a : SocketReceiverAct α} (h : c.stepReceiver packetSize false i a = some c') :
    ∃ r, c'.receivers = Function.update c.receivers i r ∧
      r.pc.rank + 1 ≤ (c.receivers i).pc.rank ∧ c'.sendPackets = c.sendPackets ∧
      c'.queue.released = c.queue.released := by
  cases hpc : (c.receivers i).pc with
  | test =>
    cases a <;> simp only [stepReceiver, hpc, reduceCtorEq] at h
    obtain rfl := Option.some.inj h
    exact ⟨_, rfl, Nat.le_refl _, rfl, rfl⟩
  | select =>
    cases a with
    | select total =>
      cases total <;> simp only [stepReceiver, hpc] at h <;> obtain rfl := Option.some.inj h <;>
        exact ⟨_, rfl, by simp [SocketReceiverPc.rank], rfl, rfl⟩
    | _ => simp only [stepReceiver, hpc, reduceCtorEq] at h
  | timedOut =>
    cases a <;> simp only [stepReceiver, hpc, reduceCtorEq] at h
    obtain rfl := Option.some.inj h
    exact ⟨_, rfl, Nat.le_refl _, rfl, rfl⟩
  | recvfrom =>
    cases a with
    | recvfrom iResult =>
      cases iResult <;> simp only [stepReceiver, hpc] at h <;> obtain rfl := Option.some.inj h <;>
        exact ⟨_, rfl, by simp [SocketReceiverPc.rank], rfl, rfl⟩
    | _ => simp only [stepReceiver, hpc, reduceCtorEq] at h
  | copy p =>
    cases a <;> simp only [stepReceiver, hpc, reduceCtorEq] at h
    obtain rfl := Option.some.inj h
    exact ⟨_, rfl, Nat.le_refl _, rfl, Workqueue.push_released _ _⟩
  | pushed p =>
    cases a <;> simp only [stepReceiver, hpc, reduceCtorEq] at h
    obtain rfl := Option.some.inj h
    exact ⟨_, rfl, Nat.le_refl _, rfl, rfl⟩
  | returned cause => cases a <;> simp only [stepReceiver, hpc, reduceCtorEq] at h

end IncomingPath

/-! ## 3. A stopped session -/

namespace Session

theorem ReleasedInOrder.next {packetSize : α → Nat} {s t : Session α n} {a : SessionLabel α n}
    (h : s.ReleasedInOrder) (hn : s.next packetSize a = some t) : t.ReleasedInOrder := by
  cases a with
  | receivePackets b =>
    obtain ⟨o, ho, rfl⟩ := Option.map_eq_some_iff.mp hn
    refine ⟨fun hpc => ?_, h.incoming⟩
    obtain ⟨p, rfl⟩ | ⟨receivePackets, rfl⟩ := OutgoingPath.stepReceive_cases ho
    · exact (Workqueue.push_released _ _).trans (h.outgoing hpc)
    · exact h.outgoing hpc
  | sender i b =>
    obtain ⟨o, ho, rfl⟩ := Option.map_eq_some_iff.mp hn
    refine ⟨fun hpc => ?_, h.incoming⟩
    have hreleased := h.outgoing hpc
    cases OutgoingPath.stepSender_cases ho with
    | pop elements _ _ => exact (Workqueue.popSizeLocked_queue_released _ _).trans hreleased
    | _ => exact hreleased
  | sendPackets b =>
    obtain ⟨c, hc, rfl⟩ := Option.map_eq_some_iff.mp hn
    refine ⟨h.outgoing, fun hpc => ?_⟩
    have hreleased := h.incoming hpc
    cases IncomingPath.stepSend_cases hc with
    | pop size _ _ => exact (Workqueue.popAllLocked_queue_released _).trans hreleased
    | _ => exact hreleased
  | receiver i b =>
    obtain ⟨c, hc, rfl⟩ := Option.map_eq_some_iff.mp hn
    refine ⟨h.outgoing, fun hpc => ?_⟩
    obtain ⟨p, rfl⟩ | ⟨receivers, statsReceived, rfl⟩ := IncomingPath.stepReceiver_cases hc
    · exact (Workqueue.push_released _ _).trans (h.incoming hpc)
    · exact h.incoming hpc
  | shutdown =>
    simp only [Session.next, stepShutdown] at hn
    split at hn
    next =>
      obtain rfl := Option.some.inj hn
      exact ⟨fun hpc => by simp at hpc, fun hpc => by simp at hpc⟩
    next =>
      obtain rfl := Option.some.inj hn
      exact ⟨fun hpc => by simp at hpc, fun hpc => by simp at hpc⟩
    next =>
      obtain rfl := Option.some.inj hn
      exact ⟨fun _ => rfl, fun hpc => by simp at hpc⟩
    next hpc =>
      obtain rfl := Option.some.inj hn
      exact ⟨fun _ => h.outgoing (.inl hpc), fun _ => rfl⟩
    next => contradiction

theorem released_of_reach {packetSize : α → Nat} {s : Session α n}
    (h : (sessionMachine packetSize n).Reach s) (hshutdown : s.shutdown = .released) :
    s.Released := by
  have horder : s.ReleasedInOrder := by
    refine h.invariant ?_ fun s a t hs hn => hs.next hn
    rintro s ⟨capacity, server, -, rfl⟩
    exact ⟨fun hpc => by simp [start] at hpc, fun hpc => by simp [start] at hpc⟩
  have hrun : s.isRunning = false := by
    rw [← Bool.not_eq_true]
    intro hrun
    have hearly := releaseOrdered_of_reach h hrun
    simp only [hshutdown, reduceCtorEq, or_self] at hearly
  exact ⟨valid_of_reach h, hshutdown, hrun, horder.outgoing (.inr hshutdown),
    horder.incoming hshutdown⟩

/-- **A step of a stopped session leaves less to do**, a refusal apart. -/
theorem Released.next {packetSize : α → Nat} {s t : Session α n} {a : SessionLabel α n}
    (h : s.Released) (hn : s.next packetSize a = some t) :
    t.Released ∧ t.rank + 1 ≤ s.rank + a.gain := by
  have hrun := h.isRunning
  have hvalid : t.Valid :=
    h.valid.next (fun hfalse => absurd (hrun.symm.trans hfalse) (by decide)) hn
  cases a with
  | receivePackets b =>
    obtain ⟨o, ho, rfl⟩ := Option.map_eq_some_iff.mp hn
    rw [hrun] at ho
    obtain ⟨hrank, hsenders, hreleased⟩ := OutgoingPath.stepReceive_rank ho
    refine ⟨⟨hvalid, h.shutdown, hrun, hreleased.trans h.outgoing, h.incoming⟩, ?_⟩
    simp only [rank, hsenders]
    omega
  | sender i b =>
    obtain ⟨o, ho, rfl⟩ := Option.map_eq_some_iff.mp hn
    rw [hrun] at ho
    have hsafe := h.valid.outgoing.safe i
    rw [hrun] at hsafe
    obtain ⟨pc, hsenders, hrank, hreceive, hreleased⟩ :=
      OutgoingPath.stepSender_rank h.outgoing hsafe ho
    refine ⟨⟨hvalid, h.shutdown, hrun, hreleased, h.incoming⟩, ?_⟩
    have hsum := sum_update_add SenderPc.rank s.outgoing.senders i pc
    simp only [rank, hsenders, hreceive, SessionLabel.gain, SessionLabel.isRefusal]
    omega
  | sendPackets b =>
    obtain ⟨c, hc, rfl⟩ := Option.map_eq_some_iff.mp hn
    rw [hrun] at hc
    obtain ⟨hrank, hreceivers, hreleased⟩ := IncomingPath.stepSend_rank h.incoming hc
    refine ⟨⟨hvalid, h.shutdown, hrun, h.outgoing, hreleased⟩, ?_⟩
    simp only [rank, hreceivers]
    omega
  | receiver i b =>
    obtain ⟨c, hc, rfl⟩ := Option.map_eq_some_iff.mp hn
    rw [hrun] at hc
    obtain ⟨r, hreceivers, hrank, hsend, hreleased⟩ := IncomingPath.stepReceiver_rank hc
    refine ⟨⟨hvalid, h.shutdown, hrun, h.outgoing, hreleased.trans h.incoming⟩, ?_⟩
    have hsum := sum_update_add (fun r => r.pc.rank) s.incoming.receivers i r
    simp only [rank, hreceivers, hsend]
    omega
  | shutdown => simp only [Session.next, stepShutdown, h.shutdown, reduceCtorEq] at hn

end Session

/-! ## 4. Nobody is stuck -/

/-- A step that a worker can take, none of them a refusal. -/
def ReceivePc.nextAct : ReceivePc α → ReceiveAct α
  | .receive => .read (.failed ERROR_NO_MORE_ITEMS)
  | _ => .run

def SenderPc.nextAct : SenderPc α → SenderAct
  | .enter => .enter 0
  | .loop _ elements i => if i < elements then .sendto .success else .run
  | _ => .run

def SendPacketsPc.nextAct : SendPacketsPc α → SendPacketsAct
  | .enter => .enter 0
  | .send _ _ _ => .allocate .allocated
  | _ => .run

def SocketReceiverPc.nextAct : SocketReceiverPc α → SocketReceiverAct α
  | .select => .select .timeout
  | .recvfrom => .recvfrom .wouldBlock
  | _ => .run

-- The event that `WaitForMultipleObjects` waits for has been set.
theorem OutgoingPath.stepReceive_isSome {isRunning : Bool} {o : OutgoingPath α n}
    (h : o.receivePackets.pc.inLoop = true) :
    (o.stepReceive isRunning o.receivePackets.pc.nextAct).isSome = true := by
  cases hpc : o.receivePackets.pc with
  | receive =>
    simp only [ReceivePc.nextAct, stepReceive, hpc, if_true]
    split <;> rfl
  | returned cause =>
    rw [hpc] at h
    contradiction
  | _ => simp only [ReceivePc.nextAct, stepReceive, hpc, Option.isSome_some]

theorem OutgoingPath.stepSender_isSome {packetSize : α → Nat} {isRunning : Bool}
    {o : OutgoingPath α n} {i : Fin n}
    (hwait : ∀ elements, o.senders i = .wait elements → o.queue.waitDone = true)
    (h : (o.senders i).inLoop = true) :
    (o.stepSender packetSize isRunning i (o.senders i).nextAct).isSome = true := by
  cases hpc : o.senders i with
  | enter =>
    simp only [SenderPc.nextAct, stepSender, hpc]
    split <;> rfl
  | wait elements =>
    simp only [SenderPc.nextAct, stepSender, hpc, hwait elements hpc, if_true, Option.isSome_some]
  | loop packet elements idx =>
    rw [SenderPc.nextAct]
    split
    next hidx =>
      simp only [stepSender, hpc, if_pos hidx]
      split <;> rfl
    next hidx => simp only [stepSender, hpc, if_neg hidx, Option.isSome_some]
  | sent packet elements idx iResult =>
    simp only [SenderPc.nextAct, stepSender, hpc]
    split <;> rfl
  | returned cause =>
    rw [hpc] at h
    contradiction
  | fault =>
    rw [hpc] at h
    contradiction
  | _ => simp only [SenderPc.nextAct, stepSender, hpc, Option.isSome_some]

theorem IncomingPath.stepSend_isSome {isRunning : Bool} {c : IncomingPath α n}
    (hwait : ∀ size, c.sendPackets = .wait size → c.queue.waitDone = true)
    (h : c.sendPackets.inLoop = true) :
    (c.stepSend isRunning c.sendPackets.nextAct).isSome = true := by
  cases hpc : c.sendPackets with
  | test => simp only [SendPacketsPc.nextAct, stepSend, hpc, Option.isSome_some]
  | enter =>
    simp only [SendPacketsPc.nextAct, stepSend, hpc]
    split <;> rfl
  | wait size =>
    simp only [SendPacketsPc.nextAct, stepSend, hpc, hwait size hpc, if_true, Option.isSome_some]
  | loop internalPacket size idx =>
    simp only [SendPacketsPc.nextAct, stepSend, hpc]
    split <;> rfl
  | send internalPacket size idx =>
    simp only [SendPacketsPc.nextAct, stepSend, hpc]
    split <;> rfl
  | returned cause =>
    rw [hpc] at h
    contradiction
  | fault =>
    rw [hpc] at h
    contradiction

theorem IncomingPath.stepReceiver_isSome {packetSize : α → Nat} {isRunning : Bool}
    {c : IncomingPath α n} {i : Fin n} (h : (c.receivers i).pc.inLoop = true) :
    (c.stepReceiver packetSize isRunning i (c.receivers i).pc.nextAct).isSome = true := by
  cases hpc : (c.receivers i).pc with
  | returned cause =>
    rw [hpc] at h
    contradiction
  | _ => simp only [SocketReceiverPc.nextAct, stepReceiver, hpc, Option.isSome_some]

/-- The worker that takes a step. -/
def SessionLabel.worker : SessionLabel α n → Option (Worker n)
  | .receivePackets _ => some .receivePackets
  | .sender i _ => some (.sender i)
  | .sendPackets _ => some .sendPackets
  | .receiver i _ => some (.receiver i)
  | .shutdown => none

theorem SenderPc.nextAct_isRefusal (pc : SenderPc α) : pc.nextAct.isRefusal = false := by
  cases pc with
  | loop packet elements i =>
    rw [SenderPc.nextAct]
    split <;> rfl
  | _ => rfl

namespace Session

theorem Released.canMove (packetSize : α → Nat) {s : Session α n} (h : s.Released) {w : Worker n}
    (hw : s.inLoop w = true) :
    ∃ a t, a.worker = some w ∧ a.isRefusal = false ∧ s.next packetSize a = some t := by
  have hnext (a : SessionLabel α n) (hworker : a.worker = some w) (hno : a.isRefusal = false)
      (hsome : (s.next packetSize a).isSome = true) :
      ∃ a t, a.worker = some w ∧ a.isRefusal = false ∧ s.next packetSize a = some t := by
    obtain ⟨t, ht⟩ := Option.isSome_iff_exists.mp hsome
    exact ⟨a, t, hworker, hno, ht⟩
  cases w with
  | receivePackets =>
    refine hnext (.receivePackets s.outgoing.receivePackets.pc.nextAct) rfl rfl ?_
    rw [Session.next, Option.isSome_map]
    exact OutgoingPath.stepReceive_isSome hw
  | sender i =>
    refine hnext (.sender i (s.outgoing.senders i).nextAct) rfl (SenderPc.nextAct_isRefusal _) ?_
    rw [Session.next, Option.isSome_map]
    refine OutgoingPath.stepSender_isSome (fun _ _ => ?_) hw
    rw [Workqueue.waitDone, h.outgoing, Bool.or_true]
  | sendPackets =>
    refine hnext (.sendPackets s.incoming.sendPackets.nextAct) rfl rfl ?_
    rw [Session.next, Option.isSome_map]
    refine IncomingPath.stepSend_isSome (fun _ _ => ?_) hw
    rw [Workqueue.waitDone, h.incoming, Bool.or_true]
  | receiver i =>
    refine hnext (.receiver i (s.incoming.receivers i).pc.nextAct) rfl rfl ?_
    rw [Session.next, Option.isSome_map]
    exact IncomingPath.stepReceiver_isSome hw

/-! ## 5. The end -/

theorem rank_le {s : Session α n} (h : s.Valid) : s.rank ≤ 6 + 13 * n := by
  have hreceive : s.outgoing.receivePackets.pc.rank ≤ 3 := by
    cases s.outgoing.receivePackets.pc <;> simp [ReceivePc.rank]
  have hsend : s.incoming.sendPackets.rank ≤ 3 := by
    cases s.incoming.sendPackets <;> simp [SendPacketsPc.rank]
  have hsenders (i : Fin n) : (s.outgoing.senders i).rank ≤ 9 := by
    have hsafe := h.outgoing.safe i
    cases hpc : s.outgoing.senders i with
    | loop packet elements idx =>
      rw [hpc] at hsafe
      obtain ⟨batch, hbatch, -⟩ := hsafe
      have hlen := hbatch.elements_eq
      have hle := hbatch.length_le
      show 2 * (elements - idx) + 2 ≤ 9
      omega
    | sent packet elements idx iResult =>
      rw [hpc] at hsafe
      obtain ⟨batch, hbatch, -⟩ := hsafe
      have hlen := hbatch.elements_eq
      have hle := hbatch.length_le
      show 2 * (elements - idx) + _ ≤ 9
      split <;> omega
    | _ => simp [SenderPc.rank]
  have hreceivers (i : Fin n) : (s.incoming.receivers i).pc.rank ≤ 4 := by
    cases (s.incoming.receivers i).pc <;> simp [SocketReceiverPc.rank]
  have hsum : ∑ i, (s.outgoing.senders i).rank ≤ n * 9 := by
    simpa using Finset.sum_le_card_nsmul Finset.univ _ 9 fun i _ => hsenders i
  have hsum' : ∑ i, (s.incoming.receivers i).pc.rank ≤ n * 4 := by
    simpa using Finset.sum_le_card_nsmul Finset.univ _ 4 fun i _ => hreceivers i
  rw [rank]
  omega

theorem sum_gain (as : List (SessionLabel α n)) :
    (as.map SessionLabel.gain).sum = 2 * as.countP SessionLabel.isRefusal := by
  induction as with
  | nil => rfl
  | cons a as ih =>
    rw [List.map_cons, List.sum_cons, ih, List.countP_cons, SessionLabel.gain]
    cases a.isRefusal with
    | false => simp
    | true =>
      simp
      omega

end Session

/-- **A stopped session ends.**  Once the queues are released the workers take at most `6 + 13 n`
steps more, and two for every refusal; one that has not returned can move, and without refusals all
of them return, none in a fault. -/
theorem stopped_session_ends (packetSize : α → Nat) {s : Session α n}
    (h : (sessionMachine packetSize n).Reach s) (hshutdown : s.shutdown = .released) :
    (∀ as t, (sessionMachine packetSize n).run s as = some t →
        as.length ≤ 6 + 13 * n + 2 * as.countP SessionLabel.isRefusal ∧
          ∀ w, t.inLoop w = true → ∃ a u, a.worker = some w ∧ t.next packetSize a = some u) ∧
      ∃ t, (sessionMachine packetSize n).Leads (fun _ a => a.isRefusal = false) s t ∧
        (∀ w, t.inLoop w = false) ∧ (∀ i, t.outgoing.senders i ≠ .fault) ∧
          t.incoming.sendPackets ≠ .fault := by
  have hreleased := Session.released_of_reach h hshutdown
  refine ⟨fun as t hrun => ?_, ?_⟩
  · obtain ⟨ht, hlength⟩ := Machine.length_le_of_rank Session.rank
      (fun s a t hs _ hn => Session.Released.next hs hn) hreleased (fun _ _ => trivial) hrun
    rw [Session.sum_gain] at hlength
    have hrank := Session.rank_le hreleased.valid
    refine ⟨by omega, fun w hw => ?_⟩
    obtain ⟨a, u, hworker, -, hu⟩ := ht.canMove packetSize hw
    exact ⟨a, u, hworker, hu⟩
  · have hprogress (s : Session α n) (hs : s.Released) (hleft : ¬ ∀ w, s.inLoop w = false) :
        ∃ a t, a.isRefusal = false ∧ s.next packetSize a = some t ∧ t.Released ∧
          t.rank < s.rank := by
      simp only [not_forall, Bool.not_eq_false] at hleft
      obtain ⟨w, hw⟩ := hleft
      obtain ⟨a, t, -, hno, ht⟩ := hs.canMove packetSize hw
      obtain ⟨hreleased', hrank⟩ := hs.next ht
      rw [SessionLabel.gain, hno] at hrank
      exact ⟨a, t, hno, ht, hreleased', hrank⟩
    have hend : ∃ t, (sessionMachine packetSize n).Leads (fun _ a => a.isRefusal = false) s t ∧
        t.Released ∧ ∀ w, t.inLoop w = false :=
      Machine.leads_of_rank Session.rank _ hprogress hreleased
    obtain ⟨t, hleads, ht, hall⟩ := hend
    refine ⟨t, hleads, hall, fun i hfault => ?_, fun hfault => ?_⟩
    · have hsafe := ht.valid.outgoing.safe i
      rwa [hfault] at hsafe
    · have hsafe := ht.valid.incoming.safe
      rwa [hfault] at hsafe

/-- The sender goes on sending the batch it has taken before the driver was stopped. -/
theorem stopped_session_ends_inBatch :
    let s := ((sessionMachine id 1).run (.start 4 ⟨⟨10, 0, 0, 1⟩, 5555⟩)
      (stoppedInBatch 0)).get (by decide)
    (∀ as t, (sessionMachine id 1).run s as = some t →
        as.length ≤ 6 + 13 * 1 + 2 * as.countP SessionLabel.isRefusal ∧
          ∀ w, t.inLoop w = true → ∃ a u, a.worker = some w ∧ t.next id a = some u) ∧
      ∃ t, (sessionMachine id 1).Leads (fun _ a => a.isRefusal = false) s t ∧
        (∀ w, t.inLoop w = false) ∧ (∀ i, t.outgoing.senders i ≠ .fault) ∧
          t.incoming.sendPackets ≠ .fault :=
  stopped_session_ends id
    (Machine.reach_of_run ⟨4, _, by decide, rfl⟩ (Option.some_get (by decide)).symm) (by decide)

end NetShare
