import NetShare.SessionFlow

/-!
# Which workers are alive

No worker tells anyone when it returns: the driver reports what its own flags say.  While these say
that it runs, a worker is inside its loop unless one of its own calls has failed for good, and then
it may be gone.
-/

namespace NetShare

open Reasoning

variable {α : Type} {n : Nat}

/-! ## 1. Workers and hard errors -/

/-- The thread has neither returned nor run into a fault. -/
def ReceivePc.inLoop : ReceivePc α → Bool
  | .returned _ => false
  | _ => true

def SenderPc.inLoop : SenderPc α → Bool
  | .returned _ | .fault => false
  | _ => true

def SendPacketsPc.inLoop : SendPacketsPc α → Bool
  | .returned _ | .fault => false
  | _ => true

def SocketReceiverPc.inLoop : SocketReceiverPc α → Bool
  | .returned _ => false
  | _ => true

def Session.inLoop (s : Session α n) : Worker n → Bool
  | .receivePackets => s.outgoing.receivePackets.pc.inLoop
  | .sendPackets => s.incoming.sendPackets.inLoop
  | .sender i => (s.outgoing.senders i).inLoop
  | .receiver i => (s.incoming.receivers i).pc.inLoop

/-- The answers on which a worker gives up: every error but the one its loop retries, and an
exception where its loop catches one. -/
def HardError : Worker n → SessionLabel α n → Prop
  | .receivePackets, a =>
    a = .receivePackets .throws ∨
      ∃ lastError, lastError ≠ ERROR_NO_MORE_ITEMS ∧
        a = .receivePackets (.read (.failed lastError))
  | .sendPackets, a => a = .sendPackets .throws
  | .sender i, a => a = .sender i (.sendto .error)
  | .receiver i, a => a = .receiver i (.select .error) ∨ a = .receiver i (.recvfrom .error)

/-! ## 2. `SendPackets` on a running driver -/

/-- As `SenderPc.Intact`. -/
def SendPacketsPc.Intact : SendPacketsPc α → Prop
  | .loop internalPacket size _ => ∃ batch, IsBatch internalPacket size batch
  | .send internalPacket size i => ∃ batch, IsBatch internalPacket size batch ∧ i < batch.length
  | .returned cause => cause = .exception
  | .fault => False
  | _ => True

theorem SendPacketsPc.Safe.intact {pc : SendPacketsPc α} (h : pc.Safe true)
    (hcause : ∀ cause, pc = .returned cause → cause = .exception) : pc.Intact := by
  cases pc with
  | loop internalPacket size i => exact h.resolve_right fun hnull => absurd hnull.2 (by decide)
  | returned cause => exact hcause cause rfl
  | _ => exact h

theorem SendPacketsPc.inLoop_of_intact {pc : SendPacketsPc α} (hintact : pc.Intact)
    (hpc : ∀ cause, pc ≠ .returned cause) : pc.inLoop = true := by
  cases pc with
  | returned cause => exact absurd rfl (hpc cause)
  | fault => exact False.elim hintact
  | _ => rfl

namespace IncomingPath

/-- The path while the driver runs. -/
structure Sound (c : IncomingPath α n) : Prop where
  holds : c.queue.Holds c.queue.packets
  notReleased : c.queue.released = false
  intact : c.sendPackets.Intact

theorem Valid.sound {c : IncomingPath α n} (h : c.Valid true)
    (hcause : ∀ cause, c.sendPackets = .returned cause → cause = .exception) : c.Sound := by
  refine ⟨h.holds, ?_, h.safe.intact hcause⟩
  rw [← Bool.not_eq_true]
  exact fun hreleased => absurd (h.stopped hreleased) (by decide)

/-- A step of a receiver that meets no hard error leaves it in its loop. -/
theorem stepReceiver_inLoop {packetSize : α → Nat} {c c' : IncomingPath α n} {i : Fin n}
    {a : SocketReceiverAct α} (hstep : c.stepReceiver packetSize true i a = some c') :
    c'.sendPackets = c.sendPackets ∧
      (∀ j, j ≠ i → c'.receivers j = c.receivers j) ∧
      (a ≠ .select .error → a ≠ .recvfrom .error → (c'.receivers i).pc.inLoop = true) := by
  have hother : ∀ (r : SocketReceiver α) (j : Fin n), j ≠ i →
      Function.update c.receivers i r j = c.receivers j :=
    fun _ _ hj => Function.update_of_ne hj _ _
  have hset : ∀ r : SocketReceiver α, (Function.update c.receivers i r i).pc.inLoop = r.pc.inLoop :=
    fun r => by rw [Function.update_self]
  cases a with
  | run =>
    simp only [stepReceiver] at hstep
    split at hstep <;> first
      | contradiction
      | (rw [Option.some.injEq] at hstep; subst hstep
         exact ⟨rfl, hother _, fun _ _ => hset _⟩)
  | select total =>
    simp only [stepReceiver] at hstep
    split at hstep
    · cases total <;> (rw [Option.some.injEq] at hstep; subst hstep)
      case error => exact ⟨rfl, hother _, fun hne => absurd rfl hne⟩
      all_goals exact ⟨rfl, hother _, fun _ _ => hset _⟩
    · contradiction
  | recvfrom iResult =>
    simp only [stepReceiver] at hstep
    split at hstep
    · cases iResult <;> (simp only [Option.some.injEq] at hstep; subst hstep)
      case error => exact ⟨rfl, hother _, fun _ hne => absurd rfl hne⟩
      all_goals exact ⟨rfl, hother _, fun _ _ => hset _⟩
    · contradiction

/-- `SendPackets` of a running driver returns only when it throws. -/
theorem stepSend_returned {c c' : IncomingPath α n} {a : SendPacketsAct}
    (hstep : c.stepSend true a = some c') {cause : ExitCause}
    (hpc : c'.sendPackets = .returned cause) : a = .throws ∧ cause = .exception := by
  cases stepSend_cases hstep with
  | throwsPop size _ =>
    cases hpc
    exact ⟨rfl, rfl⟩
  | throwsSend internalPacket size idx _ =>
    cases hpc
    exact ⟨rfl, rfl⟩
  | _ => cases hpc

end IncomingPath

/-! ## 3. The worker that pushes what the tunnel hands out -/

/-- A step of `ReceivePackets` that meets no hard error leaves it in its loop. -/
theorem OutgoingPath.stepReceive_inLoop {o o' : OutgoingPath α n} {a : ReceiveAct α}
    (hstep : o.stepReceive true a = some o') (hthrow : a ≠ .throws)
    (hread : ∀ lastError, lastError ≠ ERROR_NO_MORE_ITEMS → a ≠ .read (.failed lastError)) :
    o'.receivePackets.pc.inLoop = true := by
  cases a with
  | run =>
    simp only [stepReceive] at hstep
    split at hstep <;> first | contradiction | (rw [Option.some.injEq] at hstep; subst hstep; rfl)
  | read result =>
    simp only [stepReceive] at hstep
    split at hstep
    · cases result with
      | packet p =>
        simp only [Option.some.injEq] at hstep
        subst hstep
        rfl
      | failed lastError =>
        simp only at hstep
        split at hstep
        · split at hstep <;> (rw [Option.some.injEq] at hstep; subst hstep; rfl)
        next hne => exact absurd rfl (hread lastError hne)
    · contradiction
  | throws => exact absurd rfl hthrow

/-- A sender that is intact and healthy is in its loop. -/
theorem SenderPc.inLoop_of_healthy {pc : SenderPc α} (hintact : pc.Intact) (hgood : pc.Healthy) :
    pc.inLoop = true := by
  cases pc with
  | returned cause => exact absurd hintact hgood
  | fault => exact False.elim hintact
  | _ => rfl

/-! ## 4. Sessions -/

namespace Session

/-- **So is its incoming path.** -/
theorem incoming_sound_of_reach {packetSize : α → Nat} {s : Session α n}
    (h : (sessionMachine packetSize n).Reach s) (hrun : s.isRunning = true) :
    s.incoming.Sound := by
  have hcause : s.isRunning = true →
      ∀ cause, s.incoming.sendPackets = .returned cause → cause = .exception := by
    refine h.invariant_of (I := fun s => s.isRunning = true →
      ∀ cause, s.incoming.sendPackets = .returned cause → cause = .exception)
      (fun _ => releaseOrdered_of_reach) ?_ ?_
    · rintro s ⟨capacity, server, -, rfl⟩ - cause hpc
      cases hpc
    · intro s a t hs hord _ _ hn ht
      obtain ⟨hrun, hcases⟩ := next_cases hord hn ht
      obtain ⟨_, _, _, _, rfl⟩ | ⟨_, _, _, _, _, rfl⟩ | ⟨_, _, c, hc, rfl⟩ |
        ⟨_, _, _, c, hc, rfl⟩ | ⟨_, rfl⟩ := hcases
      · exact hs hrun
      · exact hs hrun
      · exact fun cause hpc => (IncomingPath.stepSend_returned hc hpc).2
      · intro cause hpc
        rw [(IncomingPath.stepReceiver_inLoop hc).1] at hpc
        exact hs hrun cause hpc
      · exact hs hrun
  have hvalid := (valid_of_reach h).incoming
  rw [hrun] at hvalid
  exact hvalid.sound (hcause hrun)

/-- A worker of a driver that still runs leaves its loop only in a hard error of its own. -/
theorem next_inLoop {packetSize : α → Nat} {s t : Session α n} {a : SessionLabel α n}
    (hs : (sessionMachine packetSize n).Reach s) (hn : s.next packetSize a = some t)
    (ht : t.isRunning = true) {w : Worker n} (hw : ∀ i, w ≠ .sender i) (hok : ¬ HardError w a)
    (hin : s.inLoop w = true) : t.inLoop w = true := by
  have hcases := (next_cases (releaseOrdered_of_reach hs) hn ht).2
  have hsound := incoming_sound_of_reach (Machine.ReachWhile.next hs trivial hn) ht
  obtain ⟨b, rfl, o, ho, rfl⟩ | ⟨i, b, rfl, o, ho, rfl⟩ | ⟨b, rfl, c, hc, rfl⟩ |
    ⟨i, b, rfl, c, hc, rfl⟩ | ⟨_, rfl⟩ := hcases
  · cases w with
    | receivePackets =>
      refine OutgoingPath.stepReceive_inLoop ho ?_ ?_
      · rintro rfl
        exact hok (.inl rfl)
      · rintro e he rfl
        exact hok (.inr ⟨e, he, rfl⟩)
    | sender j => exact absurd rfl (hw j)
    | sendPackets => exact hin
    | receiver j => exact hin
  · cases w with
    | receivePackets =>
      show o.receivePackets.pc.inLoop = true
      rw [(OutgoingPath.stepSender_senders ho).1]
      exact hin
    | sender j => exact absurd rfl (hw j)
    | sendPackets => exact hin
    | receiver j => exact hin
  · cases w with
    | receivePackets => exact hin
    | sender j => exact absurd rfl (hw j)
    | sendPackets =>
      apply SendPacketsPc.inLoop_of_intact hsound.intact
      exact fun cause hpc => hok (congrArg _ (IncomingPath.stepSend_returned hc hpc).1)
    | receiver j =>
      show (c.receivers j).pc.inLoop = true
      rw [IncomingPath.stepSend_receivers hc]
      exact hin
  · obtain ⟨hsend, hother, hown⟩ := IncomingPath.stepReceiver_inLoop hc
    cases w with
    | receivePackets => exact hin
    | sender j => exact absurd rfl (hw j)
    | sendPackets =>
      show c.sendPackets.inLoop = true
      rw [hsend]
      exact hin
    | receiver j =>
      show (c.receivers j).pc.inLoop = true
      by_cases hj : j = i
      · subst hj
        exact hown (fun hb => hok (.inl (congrArg _ hb))) fun hb => hok (.inr (congrArg _ hb))
      · rw [hother j hj]
        exact hin
  · exact hin

end Session

/-- **A worker of a running driver is inside its loop unless it has met a hard error.**  So it
returns only after the driver has been told to stop or after an error of its own. -/
theorem worker_inLoop (packetSize : α → Nat) (w : Worker n) {s : Session α n}
    (h : (sessionMachine packetSize n).ReachWhile (fun _ a => ¬ HardError w a) s)
    (hrun : s.isRunning = true) : s.inLoop w = true := by
  by_cases hw : ∃ i, w = .sender i
  · obtain ⟨i, rfl⟩ := hw
    have hgood : (s.outgoing.senders i).Healthy := by
      refine h.invariant ?_ fun s a t hs hok hn => Session.next_healthy hok hn hs
      rintro s ⟨capacity, server, -, rfl⟩
      trivial
    exact SenderPc.inLoop_of_healthy ((Session.sound_of_reach h.reach hrun).intact i) hgood
  · have hinv : s.isRunning = true → s.inLoop w = true := by
      refine h.invariant_of (I := fun s => s.isRunning = true → s.inLoop w = true)
        (J := fun s => (sessionMachine packetSize n).Reach s) (fun _ => Machine.ReachWhile.reach)
        ?_ ?_
      · rintro s ⟨capacity, server, -, rfl⟩ -
        cases w <;> rfl
      · intro s a t hs hreach _ hok hn ht
        have hrun' := (Session.next_cases (Session.releaseOrdered_of_reach hreach) hn ht).1
        exact Session.next_inLoop hreach hn ht (fun i hi => hw ⟨i, hi⟩) hok (hs hrun')
    exact hinv hrun

/-- A sender takes a packet and its `sendto` fails for good: it returns 2819. -/
def senderGivesUp (i : Fin n) : List (SessionLabel Nat n) :=
  [.receivePackets .run, .receivePackets (.read (.packet 7)), .receivePackets .run,
    .sender i .run, .sender i (.enter 0), .sender i .run, .sender i .run,
    .sender i (.sendto .error), .sender i .run]

/-- The driver says that it runs and has no sender left. -/
theorem running_without_sender :
    ¬ ∀ (α : Type) (packetSize : α → Nat) (n : Nat), 1 ≤ n → ∀ s : Session α n,
      (sessionMachine packetSize n).Reach s → s.isRunning = true →
      s.applicationIsRunning = true → ∀ w : Worker n, s.inLoop w = true := by
  intro hclaim
  have hrun : (sessionMachine id 1).run (.start 4 ⟨⟨10, 0, 0, 1⟩, 5555⟩) (senderGivesUp 0) =
      some (((sessionMachine id 1).run (.start 4 ⟨⟨10, 0, 0, 1⟩, 5555⟩)
        (senderGivesUp 0)).get (by decide)) :=
    (Option.some_get _).symm
  have hsender := hclaim Nat id 1 (Nat.le_refl 1) _
    (Machine.reach_of_run ⟨4, _, by decide, rfl⟩ hrun) (by decide) (by decide) (.sender 0)
  revert hsender
  decide

instance [DecidableEq α] (i : Fin n) (a : SessionLabel α n) :
    Decidable (HardError (.receiver i) a) :=
  inferInstanceAs (Decidable
    (a = .receiver i (.select .error) ∨ a = .receiver i (.recvfrom .error)))

/-- The receiver of that run is still there. -/
theorem worker_inLoop_receiver :
    let s := ((sessionMachine id 1).runWhile (fun _ a => ¬ HardError (.receiver 0) a)
      (.start 4 ⟨⟨10, 0, 0, 1⟩, 5555⟩) (senderGivesUp 0)).get (by decide)
    s.inLoop (.receiver 0) = true :=
  worker_inLoop id (.receiver 0)
    ⟨_, ⟨4, _, by decide, rfl⟩, Machine.leads_of_runWhile (Option.some_get (by decide)).symm⟩
    (by decide)

end NetShare
