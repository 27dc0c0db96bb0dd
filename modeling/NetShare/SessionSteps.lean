import NetShare.Session

/-!
# What one step of a worker can do

The step functions of a session read backwards: every case with the control point it leaves and the
path it yields.  The invariants of a session are derived from these cases.
-/

namespace NetShare

open Reasoning

variable {α : Type} {n : Nat}

/-! ## 1. From the tunnel to the sockets -/

namespace OutgoingPath

/-- The steps of a sender. -/
inductive SenderStep (packetSize : α → Nat) (isRunning : Bool) (o : OutgoingPath α n) (i : Fin n) :
    SenderAct → OutgoingPath α n → Prop where
  | test (hpc : o.senders i = .test) :
      SenderStep packetSize isRunning o i .run
        (o.setSender i (if isRunning then .enter else .returned .stopped))
  | enterReleased (uninitialised : Nat) (hpc : o.senders i = .enter)
      (hreleased : o.queue.released = true) :
      SenderStep packetSize isRunning o i (.enter uninitialised)
        (o.setSender i (.recheck none uninitialised))
  | enterWait (uninitialised : Nat) (hpc : o.senders i = .enter)
      (hreleased : o.queue.released = false) :
      SenderStep packetSize isRunning o i (.enter uninitialised)
        (o.setSender i (.wait uninitialised))
  | pop (elements : Nat) (hpc : o.senders i = .wait elements)
      (hdone : o.queue.waitDone = true) :
      SenderStep packetSize isRunning o i .run
        { o.setSender i (.recheck (o.queue.popSizeLocked 3).list
            ((o.queue.popSizeLocked 3).actualSize.getD elements)) with
          queue := (o.queue.popSizeLocked 3).queue }
  | recheck (packet : PacketList α) (elements : Nat)
      (hpc : o.senders i = .recheck packet elements) :
      SenderStep packetSize isRunning o i .run
        (o.setSender i (if isRunning then .loop packet elements 0 else .returned .stopped))
  | batchDone (packet : PacketList α) (elements idx : Nat)
      (hpc : o.senders i = .loop packet elements idx) (hidx : ¬ idx < elements) :
      SenderStep packetSize isRunning o i .run (o.setSender i .test)
  | sendto (iResult : SendtoResult) (packet : PacketList α) (elements idx : Nat) (p : α)
      (hpc : o.senders i = .loop packet elements idx) (hidx : idx < elements)
      (hp : packet.element idx = some p) :
      SenderStep packetSize isRunning o i (.sendto iResult)
        { o.setSender i (.sent packet elements idx iResult) with
          sent := if iResult = .success then o.sent ++ [p] else o.sent }
  | sendtoFault (iResult : SendtoResult) (packet : PacketList α) (elements idx : Nat)
      (hpc : o.senders i = .loop packet elements idx) (hidx : idx < elements)
      (hp : packet.element idx = none) :
      SenderStep packetSize isRunning o i (.sendto iResult) (o.setSender i .fault)
  | evaluate (packet : PacketList α) (elements idx : Nat) (iResult : SendtoResult) (p : α)
      (hpc : o.senders i = .sent packet elements idx iResult)
      (hp : packet.element idx = some p) :
      SenderStep packetSize isRunning o i .run
        { o.setSender i (afterSendto packet elements idx iResult) with
          statsSent := o.statsSent ++ [packetSize p] }
  | evaluateFault (packet : PacketList α) (elements idx : Nat) (iResult : SendtoResult)
      (hpc : o.senders i = .sent packet elements idx iResult)
      (hp : packet.element idx = none) :
      SenderStep packetSize isRunning o i .run (o.setSender i .fault)

theorem stepSender_cases {packetSize : α → Nat} {isRunning : Bool} {o o' : OutgoingPath α n}
    {i : Fin n} {a : SenderAct} (hstep : o.stepSender packetSize isRunning i a = some o') :
    SenderStep packetSize isRunning o i a o' := by
  cases a with
  | run =>
    simp only [stepSender] at hstep
    split at hstep
    next hpc =>
      rw [Option.some.injEq] at hstep
      exact hstep ▸ .test hpc
    next elements hpc =>
      split at hstep
      next hdone =>
        rw [Option.some.injEq] at hstep
        exact hstep ▸ .pop elements hpc hdone
      next => contradiction
    next packet elements hpc =>
      rw [Option.some.injEq] at hstep
      exact hstep ▸ .recheck packet elements hpc
    next packet elements idx hpc =>
      split at hstep
      next => contradiction
      next hidx =>
        rw [Option.some.injEq] at hstep
        exact hstep ▸ .batchDone packet elements idx hpc hidx
    next packet elements idx iResult hpc =>
      split at hstep <;> rw [Option.some.injEq] at hstep
      next p hp => exact hstep ▸ .evaluate packet elements idx iResult p hpc hp
      next hp => exact hstep ▸ .evaluateFault packet elements idx iResult hpc hp
    next => contradiction
  | enter uninitialised =>
    simp only [stepSender] at hstep
    split at hstep
    next hpc =>
      split at hstep <;> rw [Option.some.injEq] at hstep
      next hreleased => exact hstep ▸ .enterReleased uninitialised hpc hreleased
      next hreleased =>
        rw [Bool.not_eq_true] at hreleased
        exact hstep ▸ .enterWait uninitialised hpc hreleased
    next => contradiction
  | sendto iResult =>
    simp only [stepSender] at hstep
    split at hstep
    next packet elements idx hpc =>
      split at hstep
      next hidx =>
        split at hstep <;> rw [Option.some.injEq] at hstep
        next p hp => exact hstep ▸ .sendto iResult packet elements idx p hpc hidx hp
        next hp => exact hstep ▸ .sendtoFault iResult packet elements idx hpc hidx hp
      next => contradiction
    next => contradiction

/-- `ReceivePackets` queues the packet it holds, or moves inside its own code. -/
theorem stepReceive_cases {isRunning : Bool} {o o' : OutgoingPath α n} {a : ReceiveAct α}
    (hstep : o.stepReceive isRunning a = some o') :
    (∃ p, o' = (o.pushPacket p).setReceive .test) ∨
      ∃ receivePackets, o' = { o with receivePackets } := by
  cases a with
  | run =>
    simp only [stepReceive] at hstep
    split at hstep
    next =>
      rw [Option.some.injEq] at hstep
      exact .inr ⟨_, hstep.symm⟩
    next p _ =>
      rw [Option.some.injEq] at hstep
      exact .inl ⟨p, hstep.symm⟩
    next =>
      rw [Option.some.injEq] at hstep
      exact .inr ⟨_, hstep.symm⟩
    next => contradiction
  | read result =>
    simp only [stepReceive] at hstep
    repeat' split at hstep
    all_goals first
      | contradiction
      | (rw [Option.some.injEq] at hstep; exact .inr ⟨_, hstep.symm⟩)
  | throws =>
    simp only [stepReceive] at hstep
    split at hstep
    next =>
      rw [Option.some.injEq] at hstep
      exact .inr ⟨_, hstep.symm⟩
    next => contradiction

-- Either way it leaves the senders alone.
theorem stepReceive_senders {isRunning : Bool} {o o' : OutgoingPath α n} {a : ReceiveAct α}
    (hstep : o.stepReceive isRunning a = some o') : o'.senders = o.senders := by
  obtain ⟨p, rfl⟩ | ⟨receivePackets, rfl⟩ := stepReceive_cases hstep <;> rfl

end OutgoingPath

/-! ## 2. From the sockets to the tunnel -/

namespace IncomingPath

/-- The steps of `SendPackets`. -/
inductive SendStep (isRunning : Bool) (c : IncomingPath α n) :
    SendPacketsAct → IncomingPath α n → Prop where
  | test (hpc : c.sendPackets = .test) :
      SendStep isRunning c .run (c.setSend (if isRunning then .enter else .returned .stopped))
  | enterReleased (uninitialised : Nat) (hpc : c.sendPackets = .enter)
      (hreleased : c.queue.released = true) :
      SendStep isRunning c (.enter uninitialised) (c.setSend (.loop none uninitialised 0))
  | enterWait (uninitialised : Nat) (hpc : c.sendPackets = .enter)
      (hreleased : c.queue.released = false) :
      SendStep isRunning c (.enter uninitialised) (c.setSend (.wait uninitialised))
  | pop (size : Nat) (hpc : c.sendPackets = .wait size) (hdone : c.queue.waitDone = true) :
      SendStep isRunning c .run
        { c.setSend (.loop c.queue.popAllLocked.list
            (c.queue.popAllLocked.actualSize.getD size) 0) with
          queue := c.queue.popAllLocked.queue }
  | next (internalPacket : PacketList α) (size idx : Nat)
      (hpc : c.sendPackets = .loop internalPacket size idx) (hidx : idx < size) :
      SendStep isRunning c .run
        (c.setSend (if isRunning then .send internalPacket size idx else .returned .stopped))
  | batchDone (internalPacket : PacketList α) (size idx : Nat)
      (hpc : c.sendPackets = .loop internalPacket size idx) (hidx : ¬ idx < size) :
      SendStep isRunning c .run (c.setSend .test)
  | allocate (result : AllocateResult) (internalPacket : PacketList α) (size idx : Nat) (p : α)
      (hpc : c.sendPackets = .send internalPacket size idx)
      (hp : internalPacket.element idx = some p) :
      SendStep isRunning c (.allocate result) (c.setSend (.loop internalPacket size (sizeTInc idx)))
  | allocateFault (result : AllocateResult) (internalPacket : PacketList α) (size idx : Nat)
      (hpc : c.sendPackets = .send internalPacket size idx)
      (hp : internalPacket.element idx = none) :
      SendStep isRunning c (.allocate result) (c.setSend .fault)
  | throwsPop (size : Nat) (hpc : c.sendPackets = .wait size) :
      SendStep isRunning c .throws (c.setSend (.returned .exception))
  | throwsSend (internalPacket : PacketList α) (size idx : Nat)
      (hpc : c.sendPackets = .send internalPacket size idx) :
      SendStep isRunning c .throws (c.setSend (.returned .exception))

theorem stepSend_cases {isRunning : Bool} {c c' : IncomingPath α n} {a : SendPacketsAct}
    (hstep : c.stepSend isRunning a = some c') : SendStep isRunning c a c' := by
  cases a with
  | run =>
    simp only [stepSend] at hstep
    split at hstep
    next hpc =>
      rw [Option.some.injEq] at hstep
      exact hstep ▸ .test hpc
    next size hpc =>
      split at hstep
      next hdone =>
        rw [Option.some.injEq] at hstep
        exact hstep ▸ .pop size hpc hdone
      next => contradiction
    next internalPacket size idx hpc =>
      split at hstep <;> rw [Option.some.injEq] at hstep
      next hidx => exact hstep ▸ .next internalPacket size idx hpc hidx
      next hidx => exact hstep ▸ .batchDone internalPacket size idx hpc hidx
    next => contradiction
  | enter uninitialised =>
    simp only [stepSend] at hstep
    split at hstep
    next hpc =>
      split at hstep <;> rw [Option.some.injEq] at hstep
      next hreleased => exact hstep ▸ .enterReleased uninitialised hpc hreleased
      next hreleased =>
        rw [Bool.not_eq_true] at hreleased
        exact hstep ▸ .enterWait uninitialised hpc hreleased
    next => contradiction
  | allocate result =>
    simp only [stepSend] at hstep
    split at hstep
    next internalPacket size idx hpc =>
      split at hstep <;> rw [Option.some.injEq] at hstep
      next p hp => exact hstep ▸ .allocate result internalPacket size idx p hpc hp
      next hp => exact hstep ▸ .allocateFault result internalPacket size idx hpc hp
    next => contradiction
  | throws =>
    simp only [stepSend] at hstep
    split at hstep
    next size hpc =>
      rw [Option.some.injEq] at hstep
      exact hstep ▸ .throwsPop size hpc
    next internalPacket size idx hpc =>
      rw [Option.some.injEq] at hstep
      exact hstep ▸ .throwsSend internalPacket size idx hpc
    next => contradiction

-- `SendPackets` has nothing to do with the receivers.
theorem stepSend_receivers {isRunning : Bool} {c c' : IncomingPath α n} {a : SendPacketsAct}
    (hstep : c.stepSend isRunning a = some c') : c'.receivers = c.receivers := by
  cases stepSend_cases hstep <;> rfl

/-- A receiver queues the datagram it holds, or moves inside its own code. -/
theorem stepReceiver_cases {packetSize : α → Nat} {isRunning : Bool} {c c' : IncomingPath α n}
    {i : Fin n} {a : SocketReceiverAct α}
    (hstep : c.stepReceiver packetSize isRunning i a = some c') :
    (∃ p, c' = (c.pushPacket p).setReceiver i (.pushed p)) ∨
      ∃ receivers statsReceived, c' = { c with receivers, statsReceived } := by
  cases a with
  | run =>
    simp only [stepReceiver] at hstep
    split at hstep
    next =>
      rw [Option.some.injEq] at hstep
      exact .inr ⟨_, _, hstep.symm⟩
    next =>
      rw [Option.some.injEq] at hstep
      exact .inr ⟨_, _, hstep.symm⟩
    next p _ =>
      rw [Option.some.injEq] at hstep
      exact .inl ⟨p, hstep.symm⟩
    next =>
      rw [Option.some.injEq] at hstep
      exact .inr ⟨_, _, hstep.symm⟩
    next => contradiction
  | select total =>
    simp only [stepReceiver] at hstep
    repeat' split at hstep
    all_goals first
      | contradiction
      | (rw [Option.some.injEq] at hstep; exact .inr ⟨_, _, hstep.symm⟩)
  | recvfrom iResult =>
    simp only [stepReceiver] at hstep
    repeat' split at hstep
    all_goals first
      | contradiction
      | (rw [Option.some.injEq] at hstep; exact .inr ⟨_, _, hstep.symm⟩)

end IncomingPath

/-! ## 3. The session -/

namespace Session

/-- The queues are released only after the workers have been told to stop. -/
def ReleaseOrdered (s : Session α n) : Prop :=
  s.isRunning = true → s.shutdown = .idle ∨ s.shutdown = .exitedSet

/-- What a step of a driver that still runs afterwards does: it ran before, and either one worker
moved or `exited` was set. -/
theorem next_cases {packetSize : α → Nat} {s t : Session α n} {a : SessionLabel α n}
    (hord : s.ReleaseOrdered) (hn : s.next packetSize a = some t) (ht : t.isRunning = true) :
    s.isRunning = true ∧
      ((∃ b, a = .receivePackets b ∧ ∃ o, s.outgoing.stepReceive true b = some o ∧
          t = { s with outgoing := o }) ∨
        (∃ i b, a = .sender i b ∧ ∃ o, s.outgoing.stepSender packetSize true i b = some o ∧
          t = { s with outgoing := o }) ∨
        (∃ b, a = .sendPackets b ∧ ∃ c, s.incoming.stepSend true b = some c ∧
          t = { s with incoming := c }) ∨
        (∃ i b, a = .receiver i b ∧ ∃ c, s.incoming.stepReceiver packetSize true i b = some c ∧
          t = { s with incoming := c }) ∨
        (a = .shutdown ∧ t = { s with exited := true, shutdown := .exitedSet })) := by
  cases a with
  | receivePackets b =>
    obtain ⟨o, ho, rfl⟩ := Option.map_eq_some_iff.mp hn
    have hrun : s.isRunning = true := ht
    exact ⟨hrun, .inl ⟨b, rfl, o, hrun ▸ ho, rfl⟩⟩
  | sender i b =>
    obtain ⟨o, ho, rfl⟩ := Option.map_eq_some_iff.mp hn
    have hrun : s.isRunning = true := ht
    exact ⟨hrun, .inr (.inl ⟨i, b, rfl, o, hrun ▸ ho, rfl⟩)⟩
  | sendPackets b =>
    obtain ⟨c, hc, rfl⟩ := Option.map_eq_some_iff.mp hn
    have hrun : s.isRunning = true := ht
    exact ⟨hrun, .inr (.inr (.inl ⟨b, rfl, c, hrun ▸ hc, rfl⟩))⟩
  | receiver i b =>
    obtain ⟨c, hc, rfl⟩ := Option.map_eq_some_iff.mp hn
    have hrun : s.isRunning = true := ht
    exact ⟨hrun, .inr (.inr (.inr (.inl ⟨i, b, rfl, c, hrun ▸ hc, rfl⟩)))⟩
  | shutdown =>
    simp only [next, stepShutdown] at hn
    split at hn
    next =>
      rw [Option.some.injEq] at hn
      subst hn
      exact ⟨ht, .inr (.inr (.inr (.inr ⟨rfl, rfl⟩)))⟩
    next =>
      rw [Option.some.injEq] at hn
      subst hn
      simp only [Bool.false_eq_true] at ht
    next hpc =>
      rw [Option.some.injEq] at hn
      subst hn
      have := hord ht
      simp only [hpc, reduceCtorEq, or_self] at this
    next hpc =>
      rw [Option.some.injEq] at hn
      subst hn
      have := hord ht
      simp only [hpc, reduceCtorEq, or_self] at this
    next => contradiction

-- `releaseAll` comes after `isRunning` has been cleared.
theorem next_releaseOrdered {packetSize : α → Nat} {s t : Session α n} {a : SessionLabel α n}
    (hord : s.ReleaseOrdered) (hn : s.next packetSize a = some t) : t.ReleaseOrdered := by
  intro ht
  obtain ⟨hrun, hcases⟩ := next_cases hord hn ht
  obtain ⟨_, _, _, _, rfl⟩ | ⟨_, _, _, _, _, rfl⟩ | ⟨_, _, _, _, rfl⟩ | ⟨_, _, _, _, _, rfl⟩ |
    ⟨_, rfl⟩ := hcases
  · exact hord hrun
  · exact hord hrun
  · exact hord hrun
  · exact hord hrun
  · exact .inr rfl

theorem releaseOrdered_of_reach {packetSize : α → Nat} {s : Session α n}
    (h : (sessionMachine packetSize n).Reach s) : s.ReleaseOrdered := by
  refine h.invariant ?_ fun s a t hs hn => next_releaseOrdered hs hn
  rintro s ⟨capacity, server, -, rfl⟩ -
  exact .inl rfl

end Session

end NetShare
