import NetShare.SessionBatches
import NetShare.Reasoning.Relay

/-!
# No packet is lost or sent twice

The way out of the tunnel is a relay: packets are accepted into the queue, taken in batches of up to
three by the senders and sent.  As long as the driver runs and no `sendto` fails for good, every
step of the session is a move of that relay.
-/

namespace NetShare

open Reasoning

variable {α : Type} {n : Nat}

/-! ## 1. Senders of a running driver -/

namespace SenderPc

/-- The packets of its current batch that the sender has not sent yet. -/
def unsent : SenderPc α → List α
  | .recheck packet _ => packet.packets
  | .loop packet _ i => packet.packets.drop i
  | .sent packet _ i iResult => packet.packets.drop (if iResult = .success then i + 1 else i)
  | _ => []

/-- A sender of a running driver: its list and count describe a batch, its index lies in it, and
it has returned only after a hard error. -/
def Intact : SenderPc α → Prop
  | .recheck packet elements => ∃ batch, IsSenderBatch packet elements batch
  | .loop packet elements i => ∃ batch, IsSenderBatch packet elements batch ∧ i ≤ batch.length
  | .sent packet elements i _ => ∃ batch, IsSenderBatch packet elements batch ∧ i < batch.length
  | .returned cause => cause = .sendFailed
  | .fault => False
  | _ => True

/-- No `sendto` has failed for good and made it give up its batch. -/
def Healthy : SenderPc α → Prop
  | .sent _ _ _ iResult => iResult ≠ .error
  | .returned cause => cause ≠ .sendFailed
  | _ => True

-- What `Safe` leaves open is why it has returned.
theorem Safe.intact {pc : SenderPc α} (h : pc.Safe true)
    (hcause : ∀ cause, pc = .returned cause → cause = .sendFailed) : pc.Intact := by
  cases pc with
  | recheck packet elements => exact h.resolve_right fun hnull => absurd hnull.2 (by decide)
  | returned cause => exact hcause cause rfl
  | _ => exact h

end SenderPc

namespace OutgoingPath

/-! ## 2. The relay of a state -/

/-- What the outgoing path has done and holds, without its control points. -/
def relay (o : OutgoingPath α n) : Relay α (Fin n) where
  accepted := o.accepted
  queued := o.queue.packets
  held i := (o.senders i).unsent
  sent := o.sent

-- Only the packets in the hands of this one sender change.
theorem relay_setSender (o : OutgoingPath α n) (i : Fin n) (pc : SenderPc α) :
    (o.setSender i pc).relay =
      { o.relay with held := Function.update o.relay.held i pc.unsent } := by
  unfold relay setSender
  congr 1
  funext j
  by_cases hj : j = i
  · subst hj
    simp only [Function.update_self]
  · simp only [Function.update_of_ne hj]

/-- A sender that moves without touching its batch leaves the relay alone. -/
theorem relay_setSender_of_eq {o : OutgoingPath α n} {i : Fin n} {pc : SenderPc α}
    (h : pc.unsent = (o.senders i).unsent) : (o.setSender i pc).relay = o.relay := by
  rw [relay_setSender, h, show (o.senders i).unsent = o.relay.held i from rfl,
    Function.update_eq_self]

/-- The path while the driver runs: the queue is sound and not released, and so is every batch. -/
structure Sound (o : OutgoingPath α n) : Prop where
  holds : o.queue.Holds o.queue.packets
  notReleased : o.queue.released = false
  intact : ∀ i, (o.senders i).Intact

/-- The senders that have returned met a hard error. -/
def ReturnedInError (o : OutgoingPath α n) : Prop :=
  ∀ i cause, o.senders i = .returned cause → cause = .sendFailed

theorem Valid.sound {o : OutgoingPath α n} (h : o.Valid true) (hcause : o.ReturnedInError) :
    o.Sound := by
  refine ⟨h.holds, ?_, fun i => (h.safe i).intact (hcause i)⟩
  rw [← Bool.not_eq_true]
  exact fun hreleased => absurd (h.stopped hreleased) (by decide)

/-! ## 3. Every step is a move -/

-- A push on a full queue is no move at all, any other is an acceptance.
theorem pushPacket_move {o : OutgoingPath α n} (h : o.Sound) (p : α) :
    o.relay.Move (o.pushPacket p).relay := by
  obtain ⟨-, ⟨hacc, hpackets⟩ | ⟨hacc, hpackets⟩⟩ := Workqueue.push_cases h.holds p
  · have hrelay : (o.pushPacket p).relay =
        { o.relay with
          accepted := o.relay.accepted ++ [p]
          queued := o.relay.queued ++ [p] } := by
      simp only [relay, pushPacket, hacc, hpackets, if_true]
    rw [hrelay]
    exact .accept _ p
  · have hrelay : (o.pushPacket p).relay = o.relay := by
      simp only [relay, pushPacket, hacc, hpackets, Bool.false_eq_true, if_false]
    rw [hrelay]
    exact .stay _

theorem stepReceive_move {isRunning : Bool} {o o' : OutgoingPath α n} (h : o.Sound)
    {a : ReceiveAct α} (hstep : o.stepReceive isRunning a = some o') : o.relay.Move o'.relay := by
  obtain ⟨p, rfl⟩ | ⟨receivePackets, rfl⟩ := stepReceive_cases hstep
  · exact pushPacket_move h p
  · exact .stay _

/-- The locked part of `popSize(3)`: an idle sender takes the oldest packets. -/
theorem popSize_move {o : OutgoingPath α n} (h : o.Sound) {i : Fin n} (elements : Nat)
    (hidle : (o.senders i).unsent = []) :
    let r := o.queue.popSizeLocked 3
    let o' := { o.setSender i (.recheck r.list (r.actualSize.getD elements)) with queue := r.queue }
    o.relay.Move o'.relay := by
  intro r o'
  obtain ⟨-, ⟨-, hbatch, hqueue⟩ | ⟨hreleased, -⟩⟩ :=
    Workqueue.popSizeLocked_cases h.holds elements
  · have hrelay : o'.relay =
        { o.relay with
          queued := o.relay.queued.drop 3
          held := Function.update o.relay.held i (o.relay.queued.take 3) } := by
      have htaken : PacketList.packets r.list = o.queue.packets.take 3 := hbatch.packets_eq
      have hset := o.relay_setSender i (.recheck r.list (r.actualSize.getD elements))
      simp only [SenderPc.unsent, htaken] at hset
      calc o'.relay
          = { (o.setSender i (.recheck r.list (r.actualSize.getD elements))).relay with
              queued := r.queue.packets } := rfl
        _ = _ := by rw [hset, hqueue]; rfl
    rw [hrelay]
    exact .take _ i 3 hidle
  · exact absurd (h.notReleased.symm.trans hreleased) (by decide)

/-- A `sendto` on element `i` of a batch is on the first packet not sent yet. -/
theorem sendto_move {o : OutgoingPath α n} (h : o.Sound) {i : Fin n} {packet : PacketList α}
    {elements idx : Nat} (iResult : SendtoResult) {p : α}
    (hpc : o.senders i = .loop packet elements idx) (hp : packet.element idx = some p) :
    let o' := { o.setSender i (.sent packet elements idx iResult) with
      sent := if iResult = SendtoResult.success then o.sent ++ [p] else o.sent }
    o.relay.Move o'.relay := by
  intro o'
  have hintact := h.intact i
  rw [hpc] at hintact
  obtain ⟨batch, hbatch, -⟩ := hintact
  rw [hbatch.element_eq, List.getElem?_eq_some_iff] at hp
  obtain ⟨hlt, hget⟩ := hp
  have hheld : o.relay.held i = p :: batch.drop (idx + 1) := by
    show (o.senders i).unsent = _
    rw [hpc, SenderPc.unsent, hbatch.packets_eq, List.drop_eq_getElem_cons hlt, hget]
  have hset := o.relay_setSender i (.sent packet elements idx iResult)
  simp only [SenderPc.unsent, hbatch.packets_eq] at hset
  have hkept : iResult ≠ .success → o.relay.Move (o.setSender i (.sent packet elements idx
      iResult)).relay := by
    intro hne
    have heq : (SenderPc.sent packet elements idx iResult).unsent = (o.senders i).unsent := by
      simp only [SenderPc.unsent, hpc, hne, if_false]
    rw [relay_setSender_of_eq heq]
    exact .stay _
  cases iResult with
  | success =>
    have hrelay : o'.relay =
        { o.relay with
          held := Function.update o.relay.held i (batch.drop (idx + 1))
          sent := o.relay.sent ++ [p] } := by
      calc o'.relay
          = { (o.setSender i (.sent packet elements idx .success)).relay with
              sent := o.sent ++ [p] } := rfl
        _ = _ := by rw [hset]; rfl
    rw [hrelay]
    exact .send _ i p _ hheld
  | wouldBlock => exact hkept (by decide)
  | error => exact hkept (by decide)

/-- The evaluation of a result that is no hard error moves on to the first packet not sent yet. -/
theorem afterSendto_unsent {packet : PacketList α} {elements idx : Nat} {iResult : SendtoResult}
    (h : (SenderPc.sent packet elements idx iResult).Intact) (hne : iResult ≠ .error) :
    (afterSendto packet elements idx iResult).unsent =
      (SenderPc.sent packet elements idx iResult).unsent := by
  obtain ⟨batch, hbatch, hlt⟩ := h
  have hsmall := hbatch.length_le
  cases iResult with
  | success =>
    rw [afterSendto, sizeTInc_of_lt (by omega)]
    rfl
  | wouldBlock =>
    rw [afterSendto, sizeTInc_sizeTDec (by omega)]
    rfl
  | error => exact absurd rfl hne

-- A sender takes a batch, sends one packet of it, or changes neither.
theorem stepSender_move {packetSize : α → Nat} {o o' : OutgoingPath α n} (h : o.Sound) {i : Fin n}
    {a : SenderAct} (hgood : (o.senders i).Healthy)
    (hstep : o.stepSender packetSize true i a = some o') : o.relay.Move o'.relay := by
  have hstay (pc : SenderPc α) (heq : pc.unsent = (o.senders i).unsent) :
      o.relay.Move (o.setSender i pc).relay := by
    rw [relay_setSender_of_eq heq]
    exact .stay _
  have hintact := h.intact i
  cases stepSender_cases hstep with
  | test hpc => exact hstay _ (by rw [hpc]; rfl)
  | enterReleased u hpc hreleased => exact hstay _ (by rw [hpc]; rfl)
  | enterWait u hpc hreleased => exact hstay _ (by rw [hpc]; rfl)
  | pop elements hpc hdone => exact popSize_move h elements (by rw [hpc]; rfl)
  | recheck packet elements hpc => exact hstay _ (by rw [hpc]; rfl)
  | batchDone packet elements idx hpc hidx =>
    rw [hpc] at hintact
    obtain ⟨batch, hbatch, -⟩ := hintact
    have hlen := hbatch.elements_eq
    have hempty : batch.drop idx = [] := List.drop_eq_nil_of_le (by omega)
    apply hstay
    show ([] : List α) = (o.senders i).unsent
    rw [hpc, SenderPc.unsent, hbatch.packets_eq, hempty]
  | sendto iResult packet elements idx p hpc hidx hp => exact sendto_move h iResult hpc hp
  | sendtoFault iResult packet elements idx hpc hidx hp =>
    rw [hpc] at hintact
    obtain ⟨batch, hbatch, -⟩ := hintact
    exact absurd hp (hbatch.element_ne_none (hbatch.elements_eq ▸ hidx))
  | evaluate packet elements idx iResult p hpc hp =>
    rw [hpc] at hintact hgood
    exact hstay _ (by rw [hpc]; exact afterSendto_unsent hintact hgood)
  | evaluateFault packet elements idx iResult hpc hp =>
    rw [hpc] at hintact
    obtain ⟨batch, hbatch, hidx⟩ := hintact
    exact absurd hp (hbatch.element_ne_none hidx)

/-- A step of a sender changes no other worker, and only a `sendto` that fails for good makes it
unhealthy. -/
theorem stepSender_senders {packetSize : α → Nat} {isRunning : Bool} {o o' : OutgoingPath α n}
    {i : Fin n} {a : SenderAct} (hstep : o.stepSender packetSize isRunning i a = some o') :
    o'.receivePackets = o.receivePackets ∧
      ∃ pc, o'.senders = Function.update o.senders i pc ∧
        (a ≠ .sendto .error → (o.senders i).Healthy → pc.Healthy) ∧
        (isRunning = true → ∀ cause, pc = .returned cause → cause = .sendFailed) := by
  have hnot (pc : SenderPc α) (hpc : ∀ cause, pc ≠ .returned cause) :
      isRunning = true → ∀ cause, pc = .returned cause → cause = .sendFailed :=
    fun _ cause heq => absurd heq (hpc cause)
  -- the two tests of `isRunning`
  have htest (pc : SenderPc α) (hpc : ∀ cause, pc ≠ .returned cause) (hgood : pc.Healthy) :
      (if isRunning then pc else .returned .stopped).Healthy ∧
        (isRunning = true → ∀ cause,
          (if isRunning then pc else .returned .stopped) = .returned cause →
            cause = .sendFailed) := by
    cases isRunning with
    | false =>
      refine ⟨?_, fun hrun => absurd hrun (by decide)⟩
      show ExitCause.stopped ≠ .sendFailed
      decide
    | true => exact ⟨hgood, hnot pc hpc⟩
  cases stepSender_cases hstep with
  | test hpc =>
    obtain ⟨hgood, hcause⟩ := htest .enter (by simp) trivial
    exact ⟨rfl, _, rfl, fun _ _ => hgood, hcause⟩
  | enterReleased u hpc hreleased =>
    exact ⟨rfl, _, rfl, fun _ _ => trivial, hnot _ (by simp)⟩
  | enterWait u hpc hreleased => exact ⟨rfl, _, rfl, fun _ _ => trivial, hnot _ (by simp)⟩
  | pop elements hpc hdone => exact ⟨rfl, _, rfl, fun _ _ => trivial, hnot _ (by simp)⟩
  | recheck packet elements hpc =>
    obtain ⟨hgood, hcause⟩ := htest (.loop packet elements 0) (by simp) trivial
    exact ⟨rfl, _, rfl, fun _ _ => hgood, hcause⟩
  | batchDone packet elements idx hpc hidx =>
    exact ⟨rfl, _, rfl, fun _ _ => trivial, hnot _ (by simp)⟩
  | sendto iResult packet elements idx p hpc hidx hp =>
    exact ⟨rfl, _, rfl, fun ha _ heq => ha (congrArg _ heq), hnot _ (by simp)⟩
  | sendtoFault iResult packet elements idx hpc hidx hp =>
    exact ⟨rfl, _, rfl, fun _ _ => trivial, hnot _ (by simp)⟩
  | evaluate packet elements idx iResult p hpc hp =>
    refine ⟨rfl, _, rfl, fun _ hgood => ?_, fun _ cause hcause => ?_⟩
    · rw [hpc] at hgood
      cases iResult with
      | error => exact absurd rfl hgood
      | _ => trivial
    · cases iResult <;> cases hcause
      rfl
  | evaluateFault packet elements idx iResult hpc hp =>
    exact ⟨rfl, _, rfl, fun _ _ => trivial, hnot _ (by simp)⟩

end OutgoingPath

/-! ## 4. Sessions -/

namespace Session

theorem next_returnedInError {packetSize : α → Nat} {s t : Session α n} {a : SessionLabel α n}
    (hord : s.ReleaseOrdered) (hs : s.isRunning = true → s.outgoing.ReturnedInError)
    (hn : s.next packetSize a = some t) (ht : t.isRunning = true) :
    t.outgoing.ReturnedInError := by
  obtain ⟨hrun, hcases⟩ := next_cases hord hn ht
  have hcause := hs hrun
  obtain ⟨_, _, o, ho, rfl⟩ | ⟨j, _, _, o, ho, rfl⟩ | ⟨_, _, _, _, rfl⟩ | ⟨_, _, _, _, _, rfl⟩ |
    ⟨_, rfl⟩ := hcases
  · intro i cause hpc
    rw [OutgoingPath.stepReceive_senders ho] at hpc
    exact hcause i cause hpc
  · intro i cause hpc
    obtain ⟨-, pc, hsenders, -, hown⟩ := OutgoingPath.stepSender_senders ho
    rw [hsenders] at hpc
    by_cases hij : i = j
    · subst hij
      rw [Function.update_self] at hpc
      exact hown rfl cause hpc
    · rw [Function.update_of_ne hij] at hpc
      exact hcause i cause hpc
  · exact hcause
  · exact hcause
  · exact hcause

/-- **The outgoing path of a running driver is sound**, whatever the sockets answer. -/
theorem sound_of_reach {packetSize : α → Nat} {s : Session α n}
    (h : (sessionMachine packetSize n).Reach s) (hrun : s.isRunning = true) :
    s.outgoing.Sound := by
  have hcause : s.isRunning = true → s.outgoing.ReturnedInError := by
    refine h.invariant_of (I := fun s => s.isRunning = true → s.outgoing.ReturnedInError)
      (fun _ => releaseOrdered_of_reach) ?_ ?_
    · rintro s ⟨capacity, server, -, rfl⟩ - i cause hpc
      cases hpc
    · intro s a t hs hord _ _ hn
      exact next_returnedInError hord hs hn
  have hvalid := (valid_of_reach h).outgoing
  rw [hrun] at hvalid
  exact hvalid.sound (hcause hrun)

/-- A driver that still runs after a step has made a move, unless the step is that of a sender which
gives up. -/
theorem next_move {packetSize : α → Nat} {s t : Session α n} {a : SessionLabel α n}
    (hord : s.ReleaseOrdered) (hs : s.outgoing.Sound) (hgood : ∀ i, (s.outgoing.senders i).Healthy)
    (hn : s.next packetSize a = some t) (ht : t.isRunning = true) :
    s.outgoing.relay.Move t.outgoing.relay := by
  obtain ⟨-, hcases⟩ := next_cases hord hn ht
  obtain ⟨_, _, o, ho, rfl⟩ | ⟨i, _, _, o, ho, rfl⟩ | ⟨_, _, _, _, rfl⟩ | ⟨_, _, _, _, _, rfl⟩ |
    ⟨_, rfl⟩ := hcases
  · exact OutgoingPath.stepReceive_move hs ho
  · exact OutgoingPath.stepSender_move hs (hgood i) ho
  · exact .stay _
  · exact .stay _
  · exact .stay _

/-- A sender stays healthy in every step but its own `sendto` that fails for good. -/
theorem next_healthy {packetSize : α → Nat} {s t : Session α n} {a : SessionLabel α n} {i : Fin n}
    (ha : a ≠ .sender i (.sendto .error)) (hn : s.next packetSize a = some t)
    (h : (s.outgoing.senders i).Healthy) : (t.outgoing.senders i).Healthy := by
  cases a with
  | receivePackets b =>
    obtain ⟨o, ho, rfl⟩ := Option.map_eq_some_iff.mp hn
    show (o.senders i).Healthy
    rw [OutgoingPath.stepReceive_senders ho]
    exact h
  | sender j b =>
    obtain ⟨o, ho, rfl⟩ := Option.map_eq_some_iff.mp hn
    obtain ⟨-, pc, hpc, hgood, -⟩ := OutgoingPath.stepSender_senders ho
    show (o.senders i).Healthy
    rw [hpc]
    by_cases hij : i = j
    · subst hij
      rw [Function.update_self]
      exact hgood (fun hb => ha (congrArg _ hb)) h
    · rw [Function.update_of_ne hij]
      exact h
  | sendPackets b =>
    obtain ⟨c, -, rfl⟩ := Option.map_eq_some_iff.mp hn
    exact h
  | receiver j b =>
    obtain ⟨c, -, rfl⟩ := Option.map_eq_some_iff.mp hn
    exact h
  | shutdown =>
    simp only [next, stepShutdown] at hn
    split at hn <;> first | contradiction | (rw [Option.some.injEq] at hn; subst hn; exact h)

end Session

/-! ## 5. No loss, no duplication -/

/-- No `sendto` of the run fails with anything but `WSAEWOULDBLOCK`. -/
def SendtoRetried (_ : Session α n) (a : SessionLabel α n) : Prop :=
  ∀ i, a ≠ .sender i (.sendto .error)

namespace Session

/-- The senders retry, and for as long as the driver runs the packets are conserved. -/
structure FlowSound (s : Session α n) : Prop where
  healthy : ∀ i, (s.outgoing.senders i).Healthy
  conserved : s.isRunning = true → s.outgoing.relay.Conserved
  inOrder : s.isRunning = true → s.outgoing.relay.InOrder

theorem start_flowSound {capacity : Nat} (hcap : 1 ≤ capacity) (server : SockAddr) :
    (start capacity server : Session α n).FlowSound := by
  have hnew : (Workqueue.new capacity : Workqueue α).packets = [] :=
    (Workqueue.new_holds hcap).packets_eq
  refine ⟨fun _ => trivial, fun _ => ?_, fun _ => ?_⟩
  · show ((([] : List α) : Multiset α)) =
      ([] : List α) + ((Workqueue.new capacity : Workqueue α).packets : Multiset α) +
        ∑ _i : Fin n, (([] : List α) : Multiset α)
    rw [hnew]
    simp
  · intro i _
    show ([] : List α) = [] ++ [] ++ (Workqueue.new capacity : Workqueue α).packets
    rw [hnew]
    rfl

-- Both parts together, since the packets are conserved only if no sender gives up.
theorem flowSound_of_reach {packetSize : α → Nat} {s : Session α n}
    (h : (sessionMachine packetSize n).ReachWhile SendtoRetried s) : s.FlowSound := by
  refine h.invariant_of (J := fun s => (sessionMachine packetSize n).Reach s)
    (fun _ => Machine.ReachWhile.reach) ?_ ?_
  · rintro s ⟨capacity, server, hcap, rfl⟩
    exact start_flowSound hcap server
  · intro s a t hs hreach _ hok hn
    have hord := releaseOrdered_of_reach hreach
    have hmove : t.isRunning = true →
        s.isRunning = true ∧ s.outgoing.relay.Move t.outgoing.relay := by
      intro ht
      have hrun := (next_cases hord hn ht).1
      exact ⟨hrun, next_move hord (sound_of_reach hreach hrun) hs.healthy hn ht⟩
    refine ⟨fun i => next_healthy (hok i) hn (hs.healthy i), fun ht => ?_, fun ht => ?_⟩
    · exact (hmove ht).2.conserved (hs.conserved (hmove ht).1)
    · exact (hmove ht).2.inOrder (hs.inOrder (hmove ht).1)

end Session

/-- **No packet is lost or sent twice.**  While the driver runs and no `sendto` has failed for good,
the packets accepted are the disjoint union of those sent, those in the queue and those of the
senders' current batches that are not sent yet; with a single sender they go out in order. -/
theorem outgoing_conserved (packetSize : α → Nat) {s : Session α n}
    (h : (sessionMachine packetSize n).ReachWhile SendtoRetried s) (hrun : s.isRunning = true) :
    (s.outgoing.accepted : Multiset α) =
        s.outgoing.sent + s.outgoing.queue.packets +
          ∑ i, ((s.outgoing.senders i).unsent : Multiset α) ∧
      ∀ i, n = 1 → s.outgoing.accepted =
        s.outgoing.sent ++ (s.outgoing.senders i).unsent ++ s.outgoing.queue.packets := by
  have hflow := Session.flowSound_of_reach h
  refine ⟨hflow.conserved hrun, ?_⟩
  rintro i rfl
  exact hflow.inOrder hrun i fun j => Subsingleton.elim j i

instance [DecidableEq α] (s : Session α n) (a : SessionLabel α n) :
    Decidable (SendtoRetried s a) :=
  inferInstanceAs (Decidable (∀ i, a ≠ .sender i (.sendto .error)))

/-- One sender takes two packets, is refused once and sends the first. -/
def refusedOnce (i : Fin n) : List (SessionLabel Nat n) :=
  [.receivePackets .run, .receivePackets (.read (.packet 7)), .receivePackets .run,
    .receivePackets .run, .receivePackets (.read (.packet 8)), .receivePackets .run,
    .sender i .run, .sender i (.enter 0), .sender i .run, .sender i .run,
    .sender i (.sendto .wouldBlock), .sender i .run, .sender i (.sendto .success),
    .receivePackets .run, .receivePackets (.read (.packet 9)), .receivePackets .run]

theorem outgoing_conserved_refusedOnce :
    let s := ((sessionMachine id 1).runWhile SendtoRetried (.start 4 ⟨⟨10, 0, 0, 1⟩, 5555⟩)
      (refusedOnce 0)).get (by decide)
    (s.outgoing.sent = [7] ∧ (s.outgoing.senders 0).unsent = [8] ∧
        s.outgoing.queue.packets = [9]) ∧
      (s.outgoing.accepted : Multiset Nat) = s.outgoing.sent + s.outgoing.queue.packets +
        ∑ i, ((s.outgoing.senders i).unsent : Multiset Nat) ∧
      ∀ i, 1 = 1 → s.outgoing.accepted =
        s.outgoing.sent ++ (s.outgoing.senders i).unsent ++ s.outgoing.queue.packets :=
  ⟨by decide, outgoing_conserved id
    ⟨_, ⟨4, _, by decide, rfl⟩, Machine.leads_of_runWhile (Option.some_get (by decide)).symm⟩
    (by decide)⟩

end NetShare
