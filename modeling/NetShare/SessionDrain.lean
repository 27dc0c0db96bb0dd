import NetShare.IncomingFlow
import NetShare.SessionEnd

/-!
# What is queued gets out

While the driver runs, the workers at the end of each path empty it: the senders send whatever
`ReceivePackets` has queued, and `SendPackets` hands whatever the receivers have queued to Wintun.
Left to themselves they stop only when nothing is left, and after so many steps.
-/

namespace NetShare

open Reasoning Finset

variable {α : Type} {n : Nat}

/-! ## 1. The senders -/

/-- A step of a sender whose `sendto` does not fail for good. -/
def SessionLabel.sends : SessionLabel α n → Bool
  | .sender _ a => a ≠ .sendto .error
  | _ => false

theorem SenderPc.nextAct_sends (pc : SenderPc α) (i : Fin n) :
    (SessionLabel.sender i pc.nextAct : SessionLabel α n).sends = true := by
  cases pc with
  | loop packet elements idx =>
    rw [SenderPc.nextAct]
    split <;> rfl
  | _ => rfl

/-- How many steps a sender takes before it waits for a packet that it does not have yet. -/
def SenderPc.backlog : SenderPc α → Nat
  | .wait _ | .returned _ | .fault => 0
  | .enter => 1
  | .test => 2
  | .recheck _ elements => 2 * elements + 4
  | .loop _ elements i => 2 * (elements - i) + 3
  | .sent _ elements i iResult => 2 * (elements - i) + if iResult = .wouldBlock then 4 else 2

/-- On a queue that has not been released a worker waits for a packet. -/
theorem Workqueue.waitDone_iff {q : Workqueue α} (h : q.Holds q.packets)
    (hreleased : q.released = false) : q.waitDone = true ↔ q.packets ≠ [] := by
  rw [waitDone, hreleased, Bool.or_false, Bool.not_eq_true', h.empty_eq, ← Bool.not_eq_true,
    List.isEmpty_iff]

namespace OutgoingPath

/-- A packet in the queue costs its sender seven steps at most, with those around its batch. -/
def backlog (o : OutgoingPath α n) : Nat :=
  7 * o.queue.packets.length + ∑ i, (o.senders i).backlog

theorem backlog_setSender {o o' : OutgoingPath α n} {i : Fin n} {pc : SenderPc α}
    (h : o'.senders = Function.update o.senders i pc) :
    o'.backlog + (7 * o.queue.packets.length + (o.senders i).backlog) =
      o.backlog + (7 * o'.queue.packets.length + pc.backlog) := by
  have hsum := sum_update_add SenderPc.backlog o.senders i pc
  rw [backlog, backlog, h]
  omega

-- Only the sender moves, and what it does lowers its own part of the sum.
theorem backlog_of_step {o o' : OutgoingPath α n} {i : Fin n} {pc : SenderPc α} {gain : Nat}
    (hsenders : o'.senders = Function.update o.senders i pc) (hqueue : o'.queue = o.queue)
    (h : pc.backlog + 1 ≤ (o.senders i).backlog + gain) : o'.backlog + 1 ≤ o.backlog + gain := by
  have heq := backlog_setSender hsenders
  rw [hqueue] at heq
  omega

theorem afterSendto_backlog {packet : PacketList α} {elements i : Nat} {iResult : SendtoResult}
    (hi : i < elements) (hle : elements ≤ 3) :
    (afterSendto packet elements i iResult).backlog + 1 ≤
      (SenderPc.sent packet elements i iResult).backlog := by
  cases iResult with
  | success =>
    rw [afterSendto, sizeTInc_of_lt (by omega)]
    show 2 * (elements - (i + 1)) + 3 + 1 ≤ 2 * (elements - i) + 2
    omega
  | wouldBlock =>
    rw [afterSendto, sizeTInc_sizeTDec (by omega)]
    exact Nat.le_refl _
  | error =>
    show 0 + 1 ≤ 2 * (elements - i) + 2
    omega

-- A batch of one packet costs as much as it can cost.
theorem popSize_backlog {o : OutgoingPath α n} (h : o.Sound) {i : Fin n} (elements : Nat)
    (hpc : o.senders i = .wait elements) (hdone : o.queue.waitDone = true) :
    let r := o.queue.popSizeLocked 3
    let o' := { o.setSender i (.recheck r.list (r.actualSize.getD elements)) with queue := r.queue }
    o'.backlog + 1 ≤ o.backlog := by
  intro r o'
  have hpos := List.length_pos_iff.mpr ((Workqueue.waitDone_iff h.holds h.notReleased).mp hdone)
  obtain ⟨-, ⟨-, hbatch, hqueue⟩ | ⟨hreleased, -⟩⟩ :=
    Workqueue.popSizeLocked_cases h.holds elements
  · have hlen : r.actualSize.getD elements = (o.queue.packets.take 3).length := hbatch.elements_eq
    have hrest : o'.queue.packets = o.queue.packets.drop 3 := hqueue
    have heq : o'.backlog + (7 * o.queue.packets.length + (o.senders i).backlog) =
        o.backlog + (7 * o'.queue.packets.length +
          (SenderPc.recheck r.list (r.actualSize.getD elements)).backlog) :=
      backlog_setSender rfl
    rw [hpc, hrest, SenderPc.backlog, SenderPc.backlog, hlen, List.length_drop,
      List.length_take] at heq
    omega
  · exact absurd (h.notReleased.symm.trans hreleased) (by decide)

/-- **A sender brings the queue closer to its end with every step**, a refusal apart, and accepts
nothing itself. -/
theorem stepSender_backlog {packetSize : α → Nat} {o o' : OutgoingPath α n} (h : o.Sound)
    {i : Fin n} {a : SenderAct} (hstep : o.stepSender packetSize true i a = some o') :
    o'.accepted = o.accepted ∧ o'.backlog + 1 ≤ o.backlog + 2 * a.isRefusal.toNat := by
  have hintact := h.intact i
  cases stepSender_cases hstep with
  | test hpc => exact ⟨rfl, backlog_of_step rfl rfl (by rw [hpc]; exact Nat.le_refl _)⟩
  | enterReleased u hpc hreleased => exact absurd (h.notReleased.symm.trans hreleased) (by decide)
  | enterWait u hpc hreleased =>
    exact ⟨rfl, backlog_of_step rfl rfl (by rw [hpc]; exact Nat.le_refl _)⟩
  | pop elements hpc hdone => exact ⟨rfl, popSize_backlog h elements hpc hdone⟩
  | recheck packet elements hpc =>
    exact ⟨rfl, backlog_of_step rfl rfl (by rw [hpc]; exact Nat.le_refl _)⟩
  | batchDone packet elements idx hpc hidx =>
    refine ⟨rfl, backlog_of_step rfl rfl ?_⟩
    rw [hpc]
    show 2 + 1 ≤ 2 * (elements - idx) + 3 + 0
    omega
  | sendto iResult packet elements idx p hpc hidx hp =>
    refine ⟨rfl, backlog_of_step rfl rfl ?_⟩
    rw [hpc]
    cases iResult <;> exact Nat.le_refl _
  | sendtoFault iResult packet elements idx hpc hidx hp =>
    rw [hpc] at hintact
    obtain ⟨batch, hbatch, -⟩ := hintact
    exact absurd hp (hbatch.element_ne_none (hbatch.elements_eq ▸ hidx))
  | evaluate packet elements idx iResult p hpc hp =>
    refine ⟨rfl, backlog_of_step rfl rfl ?_⟩
    rw [hpc] at hintact ⊢
    obtain ⟨batch, hbatch, hidx⟩ := hintact
    rw [← hbatch.elements_eq] at hidx
    exact afterSendto_backlog hidx (hbatch.elements_eq ▸ hbatch.length_le)
  | evaluateFault packet elements idx iResult hpc hp =>
    rw [hpc] at hintact
    obtain ⟨batch, hbatch, hidx⟩ := hintact
    exact absurd hp (hbatch.element_ne_none hidx)

theorem backlog_le {o : OutgoingPath α n} (h : o.Sound) :
    o.backlog ≤ 7 * o.queue.packets.length + 10 * n := by
  have hsenders (i : Fin n) : (o.senders i).backlog ≤ 10 := by
    have hintact := h.intact i
    cases hpc : o.senders i with
    | recheck packet elements =>
      rw [hpc] at hintact
      obtain ⟨batch, hbatch⟩ := hintact
      have hlen := hbatch.elements_eq
      have hle := hbatch.length_le
      show 2 * elements + 4 ≤ 10
      omega
    | loop packet elements idx =>
      rw [hpc] at hintact
      obtain ⟨batch, hbatch, -⟩ := hintact
      have hlen := hbatch.elements_eq
      have hle := hbatch.length_le
      show 2 * (elements - idx) + 3 ≤ 10
      omega
    | sent packet elements idx iResult =>
      rw [hpc] at hintact
      obtain ⟨batch, hbatch, -⟩ := hintact
      have hlen := hbatch.elements_eq
      have hle := hbatch.length_le
      show 2 * (elements - idx) + _ ≤ 10
      split <;> omega
    | _ => simp [SenderPc.backlog]
  have hsum : ∑ i, (o.senders i).backlog ≤ n * 10 := by
    simpa using Finset.sum_le_card_nsmul Finset.univ _ 10 fun i _ => hsenders i
  rw [backlog]
  omega

-- Whatever step a sender can take, there is one that is no refusal.
theorem nextAct_isSome {packetSize : α → Nat} {o o' : OutgoingPath α n} {i : Fin n}
    {a : SenderAct} (hstep : o.stepSender packetSize true i a = some o') :
    (o.stepSender packetSize true i (o.senders i).nextAct).isSome = true := by
  apply stepSender_isSome
  · intro elements hpc
    cases stepSender_cases hstep with
    | pop _ _ hdone => exact hdone
    | _ => simp_all only [reduceCtorEq]
  · cases stepSender_cases hstep <;> simp only [SenderPc.inLoop, *]

/-- Senders none of which can move are waiting at an empty queue. -/
theorem idle_of_stuck {packetSize : α → Nat} {o : OutgoingPath α n} (h : o.Sound)
    (hgood : ∀ i, (o.senders i).Healthy)
    (hstuck : ∀ i, o.stepSender packetSize true i (o.senders i).nextAct = none) (i : Fin n) :
    (o.senders i).unsent = [] ∧ o.queue.packets = [] := by
  by_cases hwait : ∀ elements, o.senders i = .wait elements → o.queue.waitDone = true
  · have hsome : (o.stepSender packetSize true i (o.senders i).nextAct).isSome = true :=
      stepSender_isSome hwait (SenderPc.inLoop_of_healthy (h.intact i) (hgood i))
    rw [hstuck i] at hsome
    contradiction
  · simp only [not_forall] at hwait
    obtain ⟨elements, hpc, hdone⟩ := hwait
    rw [Workqueue.waitDone_iff h.holds h.notReleased, not_not] at hdone
    exact ⟨by rw [hpc]; rfl, hdone⟩

end OutgoingPath

/-! ## 2. The way out of a session -/

namespace Session

/-- A state of a driver that runs and whose senders are all there. -/
structure Sending (packetSize : α → Nat) (accepted : List α) (s : Session α n) : Prop where
  reach : (sessionMachine packetSize n).ReachWhile SendtoRetried s
  isRunning : s.isRunning = true
  accepted_eq : s.outgoing.accepted = accepted

theorem Sending.sound {packetSize : α → Nat} {accepted : List α} {s : Session α n}
    (h : s.Sending packetSize accepted) : s.outgoing.Sound :=
  sound_of_reach h.reach.reach h.isRunning

theorem Sending.next {packetSize : α → Nat} {accepted : List α} {s t : Session α n}
    {a : SessionLabel α n} (h : s.Sending packetSize accepted) (ha : a.sends = true)
    (hn : s.next packetSize a = some t) :
    t.Sending packetSize accepted ∧
      t.outgoing.backlog + 1 ≤ s.outgoing.backlog + a.gain := by
  cases a with
  | sender i b =>
    have hb : b ≠ .sendto .error := of_decide_eq_true ha
    have hretried : SendtoRetried s (.sender i b) := by
      rintro j hj
      exact hb (SessionLabel.sender.inj hj).2
    have hreach := h.reach.next hretried hn
    obtain ⟨o, ho, rfl⟩ := Option.map_eq_some_iff.mp hn
    rw [h.isRunning] at ho
    obtain ⟨haccepted, hbacklog⟩ := OutgoingPath.stepSender_backlog h.sound ho
    exact ⟨⟨hreach, h.isRunning, haccepted.trans h.accepted_eq⟩, hbacklog⟩
  | _ => contradiction

/-- If no sender can move, all that was accepted has been sent. -/
theorem Sending.sent_of_stuck {packetSize : α → Nat} {accepted : List α} {s : Session α n}
    (h : s.Sending packetSize accepted) (hn : 1 ≤ n)
    (hstuck : ∀ i, s.next packetSize (.sender i (s.outgoing.senders i).nextAct) = none) :
    (accepted : Multiset α) = s.outgoing.sent ∧ (n = 1 → accepted = s.outgoing.sent) := by
  have hflow := flowSound_of_reach h.reach
  have hnone (i : Fin n) : s.outgoing.stepSender packetSize true i
      (s.outgoing.senders i).nextAct = none := by
    have hnext := hstuck i
    rwa [Session.next, h.isRunning, Option.map_eq_none_iff] at hnext
  have hidle := OutgoingPath.idle_of_stuck h.sound hflow.healthy hnone
  have hempty : s.outgoing.queue.packets = [] := (hidle ⟨0, hn⟩).2
  have hheld (i : Fin n) : s.outgoing.relay.held i = [] := (hidle i).1
  have hqueued : s.outgoing.relay.queued = [] := hempty
  constructor
  · have hconserved := hflow.conserved h.isRunning
    simp only [Relay.Conserved, hheld, hqueued, Multiset.coe_nil, sum_const_zero, add_zero]
      at hconserved
    rw [← h.accepted_eq]
    exact hconserved
  · rintro rfl
    have hinOrder := hflow.inOrder h.isRunning 0 fun j => Subsingleton.elim j 0
    rw [hheld, hqueued, List.append_nil, List.append_nil] at hinOrder
    exact h.accepted_eq.symm.trans hinOrder

/-- A sender that can move can do so without a refusal. -/
theorem Sending.progress {packetSize : α → Nat} {accepted : List α} {s t : Session α n}
    {a : SessionLabel α n} (h : s.Sending packetSize accepted) (ha : a.sends = true)
    (hn : s.next packetSize a = some t) :
    ∃ b u, (b.sends = true ∧ b.isRefusal = false) ∧ s.next packetSize b = some u ∧
      u.Sending packetSize accepted ∧ u.outgoing.backlog < s.outgoing.backlog := by
  cases a with
  | sender i c =>
    obtain ⟨o, ho, -⟩ := Option.map_eq_some_iff.mp hn
    rw [h.isRunning] at ho
    obtain ⟨o', ho'⟩ := Option.isSome_iff_exists.mp (OutgoingPath.nextAct_isSome ho)
    have hu : s.next packetSize (.sender i (s.outgoing.senders i).nextAct) =
        some { s with outgoing := o' } := by
      rw [Session.next, h.isRunning, ho', Option.map_some]
    have hsends := (s.outgoing.senders i).nextAct_sends i
    have hno := SenderPc.nextAct_isRefusal (s.outgoing.senders i)
    obtain ⟨hsending, hbacklog⟩ := h.next hsends hu
    rw [SessionLabel.gain, SessionLabel.isRefusal, hno] at hbacklog
    exact ⟨_, _, ⟨hsends, hno⟩, hu, hsending, hbacklog⟩
  | _ => contradiction

end Session

/-- **The senders send all that has been accepted.**  While the driver runs, and if no `sendto` has
failed for good up to the state or does so afterwards, the senders by themselves take at most seven
steps for each packet in the queue and ten each, and two for every refusal, and where none of them
can move every packet accepted has been sent, by a single sender in order.  Without refusals they
get there. -/
theorem outgoing_drains (packetSize : α → Nat) (hn : 1 ≤ n) {s : Session α n}
    (h : (sessionMachine packetSize n).ReachWhile SendtoRetried s) (hrun : s.isRunning = true) :
    (∀ as t, (sessionMachine packetSize n).run s as = some t → (∀ a ∈ as, a.sends = true) →
        as.length ≤ 7 * s.outgoing.queue.packets.length + 10 * n +
            2 * as.countP SessionLabel.isRefusal ∧
          ((∀ a : SessionLabel α n, a.sends = true → t.next packetSize a = none) →
            (s.outgoing.accepted : Multiset α) = t.outgoing.sent ∧
              (n = 1 → s.outgoing.accepted = t.outgoing.sent))) ∧
      ∃ t, (sessionMachine packetSize n).Leads
          (fun _ a => a.sends = true ∧ a.isRefusal = false) s t ∧
        (s.outgoing.accepted : Multiset α) = t.outgoing.sent ∧
          (n = 1 → s.outgoing.accepted = t.outgoing.sent) := by
  have hsending : s.Sending packetSize s.outgoing.accepted := ⟨h, hrun, rfl⟩
  refine ⟨fun as t hrun' hok => ?_, ?_⟩
  · obtain ⟨ht, hlength⟩ := Machine.length_le_of_rank (fun s : Session α n => s.outgoing.backlog)
      (fun s a t hs ha hn => hs.next ha hn) hsending hok hrun'
    rw [Session.sum_gain] at hlength
    have hbacklog := OutgoingPath.backlog_le hsending.sound
    exact ⟨by omega,
      fun hstuck => ht.sent_of_stuck hn fun i => hstuck _ (SenderPc.nextAct_sends _ i)⟩
  · have hprogress (u : Session α n) (hu : u.Sending packetSize s.outgoing.accepted)
        (hmore : ¬ ∀ a : SessionLabel α n, a.sends = true → u.next packetSize a = none) :
        ∃ a t, (a.sends = true ∧ a.isRefusal = false) ∧ u.next packetSize a = some t ∧
          t.Sending packetSize s.outgoing.accepted ∧
          t.outgoing.backlog < u.outgoing.backlog := by
      simp only [not_forall] at hmore
      obtain ⟨a, ha, hstep⟩ := hmore
      obtain ⟨t, ht⟩ := Option.ne_none_iff_exists'.mp hstep
      exact hu.progress ha ht
    have hend : ∃ t, (sessionMachine packetSize n).Leads
        (fun _ a => a.sends = true ∧ a.isRefusal = false) s t ∧
          t.Sending packetSize s.outgoing.accepted ∧
          ∀ a : SessionLabel α n, a.sends = true → t.next packetSize a = none :=
      Machine.leads_of_rank (fun s : Session α n => s.outgoing.backlog) _ hprogress hsending
    obtain ⟨t, hleads, ht, hdone⟩ := hend
    exact ⟨t, hleads, ht.sent_of_stuck hn fun i => hdone _ (SenderPc.nextAct_sends _ i)⟩

/-- Two packets have come in, one of them is in the hands of the sender, which is refused. -/
theorem outgoing_drains_refusedOnce :
    let s := ((sessionMachine id 1).runWhile SendtoRetried (.start 4 ⟨⟨10, 0, 0, 1⟩, 5555⟩)
      (refusedOnce 0)).get (by decide)
    (∀ as t, (sessionMachine id 1).run s as = some t → (∀ a ∈ as, a.sends = true) →
        as.length ≤ 7 * s.outgoing.queue.packets.length + 10 * 1 +
            2 * as.countP SessionLabel.isRefusal ∧
          ((∀ a : SessionLabel Nat 1, a.sends = true → t.next id a = none) →
            (s.outgoing.accepted : Multiset Nat) = t.outgoing.sent ∧
              (1 = 1 → s.outgoing.accepted = t.outgoing.sent))) ∧
      ∃ t, (sessionMachine id 1).Leads (fun _ a => a.sends = true ∧ a.isRefusal = false) s t ∧
        (s.outgoing.accepted : Multiset Nat) = t.outgoing.sent ∧
          (1 = 1 → s.outgoing.accepted = t.outgoing.sent) :=
  outgoing_drains id (Nat.le_refl 1)
    ⟨_, ⟨4, _, by decide, rfl⟩, Machine.leads_of_runWhile (Option.some_get (by decide)).symm⟩
    (by decide)

/-! ## 3. The way into the tunnel -/

/-- A step of `SendPackets` that does not throw. -/
def SessionLabel.injects : SessionLabel α n → Bool
  | .sendPackets a => a ≠ .throws
  | _ => false

theorem SendPacketsPc.nextAct_injects (pc : SendPacketsPc α) :
    (SessionLabel.sendPackets pc.nextAct : SessionLabel α n).injects = true := by
  cases pc <;> rfl

def SendPacketsPc.backlog : SendPacketsPc α → Nat
  | .wait _ | .returned _ | .fault => 0
  | .enter => 1
  | .test => 2
  | .loop _ size i => 2 * (size - i) + 3
  | .send _ size i => 2 * (size - i) + 2

namespace IncomingPath

def backlog (c : IncomingPath α n) : Nat := 6 * c.queue.packets.length + c.sendPackets.backlog

theorem backlog_setSend {c : IncomingPath α n} {pc : SendPacketsPc α}
    (h : pc.backlog + 1 ≤ c.sendPackets.backlog) : (c.setSend pc).backlog + 1 ≤ c.backlog := by
  show 6 * c.queue.packets.length + pc.backlog + 1 ≤ 6 * c.queue.packets.length + _
  omega

theorem popAll_backlog {c : IncomingPath α n} (h : c.Sound) (size : Nat)
    (hpc : c.sendPackets = .wait size) (hdone : c.queue.waitDone = true) :
    let r := c.queue.popAllLocked
    let c' := { c.setSend (.loop r.list (r.actualSize.getD size) 0) with queue := r.queue }
    c'.backlog + 1 ≤ c.backlog := by
  intro r c'
  have hpos := List.length_pos_iff.mpr ((Workqueue.waitDone_iff h.holds h.notReleased).mp hdone)
  obtain ⟨-, ⟨-, hbatch, hqueue⟩ | ⟨hreleased, -⟩⟩ := Workqueue.popAllLocked_cases h.holds size
  · have hlen : r.actualSize.getD size = c.queue.packets.length := hbatch.elements_eq
    have hrest : r.queue.packets = [] := hqueue
    show 6 * r.queue.packets.length + (2 * (r.actualSize.getD size - 0) + 3) + 1 ≤
      6 * c.queue.packets.length + c.sendPackets.backlog
    rw [hlen, hrest, hpc, SendPacketsPc.backlog, List.length_nil]
    omega
  · exact absurd (h.notReleased.symm.trans hreleased) (by decide)

/-- `SendPackets` brings the queue closer to its end with every step. -/
theorem stepSend_backlog {c c' : IncomingPath α n} {log : IncomingLog α} (h : c.Sound)
    (hordered : c.Ordered log) {a : SendPacketsAct} (ha : a ≠ .throws)
    (hstep : c.stepSend true a = some c') :
    c'.sendPackets.inLoop = true ∧ c'.backlog + 1 ≤ c.backlog := by
  have hintact := h.intact
  cases stepSend_cases hstep with
  | test hpc => exact ⟨rfl, backlog_setSend (by rw [hpc]; exact Nat.le_refl _)⟩
  | enterReleased u hpc hreleased => exact absurd (h.notReleased.symm.trans hreleased) (by decide)
  | enterWait u hpc hreleased => exact ⟨rfl, backlog_setSend (by rw [hpc]; exact Nat.le_refl _)⟩
  | pop size hpc hdone => exact ⟨rfl, popAll_backlog h size hpc hdone⟩
  | next internalPacket size idx hpc hidx =>
    exact ⟨rfl, backlog_setSend (by rw [hpc]; exact Nat.le_refl _)⟩
  | batchDone internalPacket size idx hpc hidx =>
    refine ⟨rfl, backlog_setSend ?_⟩
    rw [hpc]
    show 2 + 1 ≤ 2 * (size - idx) + 3
    omega
  | allocate result internalPacket size idx p hpc hp =>
    have hfits := hordered.fits
    rw [hpc] at hintact hfits
    obtain ⟨batch, hbatch, hidx⟩ := hintact
    have hlen := hbatch.elements_eq
    have hfits' : batch.length < 2 ^ 64 := hbatch.packets_eq ▸ hfits
    refine ⟨rfl, backlog_setSend ?_⟩
    rw [hpc, sizeTInc_of_lt (by omega)]
    show 2 * (size - (idx + 1)) + 3 + 1 ≤ 2 * (size - idx) + 2
    omega
  | allocateFault result internalPacket size idx hpc hp =>
    rw [hpc] at hintact
    obtain ⟨batch, hbatch, hidx⟩ := hintact
    exact absurd hp (hbatch.element_ne_none hidx)
  | throwsPop => exact absurd rfl ha
  | throwsSend => exact absurd rfl ha

theorem nextAct_isSome {c c' : IncomingPath α n} {a : SendPacketsAct} (ha : a ≠ .throws)
    (hstep : c.stepSend true a = some c') :
    (c.stepSend true c.sendPackets.nextAct).isSome = true := by
  apply stepSend_isSome
  · intro size hpc
    cases stepSend_cases hstep with
    | pop _ _ hdone => exact hdone
    | throwsPop => exact absurd rfl ha
    | _ => simp_all only [reduceCtorEq]
  · cases stepSend_cases hstep <;> simp only [SendPacketsPc.inLoop, *]

/-- A `SendPackets` that cannot move is waiting at an empty queue. -/
theorem idle_of_stuck {c : IncomingPath α n} (h : c.Sound) (hin : c.sendPackets.inLoop = true)
    (hstuck : c.stepSend true c.sendPackets.nextAct = none) :
    c.sendPackets.unsent = [] ∧ c.queue.packets = [] := by
  by_cases hwait : ∀ size, c.sendPackets = .wait size → c.queue.waitDone = true
  · have hsome : (c.stepSend true c.sendPackets.nextAct).isSome = true := stepSend_isSome hwait hin
    rw [hstuck] at hsome
    contradiction
  · simp only [not_forall] at hwait
    obtain ⟨size, hpc, hdone⟩ := hwait
    rw [Workqueue.waitDone_iff h.holds h.notReleased, not_not] at hdone
    exact ⟨by rw [hpc]; rfl, hdone⟩

theorem backlog_le {c : IncomingPath α n} (h : c.Sound) :
    c.backlog ≤ 6 * c.queue.packets.length + 2 * c.sendPackets.unsent.length + 3 := by
  have hsend : c.sendPackets.backlog ≤ 2 * c.sendPackets.unsent.length + 3 := by
    have hintact := h.intact
    cases hpc : c.sendPackets with
    | loop internalPacket size idx =>
      rw [hpc] at hintact
      obtain ⟨batch, hbatch⟩ := hintact
      have hlen := hbatch.elements_eq
      rw [SendPacketsPc.unsent, hbatch.packets_eq, List.length_drop]
      show 2 * (size - idx) + 3 ≤ _
      omega
    | send internalPacket size idx =>
      rw [hpc] at hintact
      obtain ⟨batch, hbatch, -⟩ := hintact
      have hlen := hbatch.elements_eq
      rw [SendPacketsPc.unsent, hbatch.packets_eq, List.length_drop]
      show 2 * (size - idx) + 2 ≤ _
      omega
    | _ => simp [SendPacketsPc.backlog]
  rw [backlog]
  omega

end IncomingPath

namespace RecordedSession

/-- A state of a driver that runs and whose `SendPackets` is there. -/
structure Injecting (packetSize : α → Nat) (kept : List α) (r : RecordedSession α n) : Prop where
  reach : (recordedMachine packetSize n).Reach r
  isRunning : r.session.isRunning = true
  inLoop : r.session.incoming.sendPackets.inLoop = true
  kept_eq : r.log.kept = kept

variable {packetSize : α → Nat} {kept : List α} {r r' : RecordedSession α n}

theorem Injecting.sound (h : r.Injecting packetSize kept) : r.session.incoming.Sound :=
  Session.incoming_sound_of_reach (reach_session h.reach) h.isRunning

-- What has been pushed is no matter of `SendPackets`.
theorem record_kept (log : IncomingLog α) (isRunning : Bool) (c : IncomingPath α n)
    (a : SendPacketsAct) : (log.record isRunning c (.sendPackets a)).kept = log.kept := by
  cases a <;> simp only [IncomingLog.record] <;> (repeat' split) <;> rfl

theorem Injecting.next {a : SessionLabel α n} (h : r.Injecting packetSize kept)
    (ha : a.injects = true) (hn : (recordedMachine packetSize n).next r a = some r') :
    r'.Injecting packetSize kept ∧
      r'.session.incoming.backlog + 1 ≤ r.session.incoming.backlog := by
  cases a with
  | sendPackets b =>
    have hb : b ≠ .throws := of_decide_eq_true ha
    have hreach := h.reach.next trivial hn
    obtain ⟨s, hs, rfl⟩ := Option.map_eq_some_iff.mp hn
    obtain ⟨c, hc, rfl⟩ := Option.map_eq_some_iff.mp hs
    rw [h.isRunning] at hc
    obtain ⟨hin, hbacklog⟩ :=
      IncomingPath.stepSend_backlog h.sound (ordered_of_reach h.reach) hb hc
    exact ⟨⟨hreach, h.isRunning, hin, (record_kept _ _ _ _).trans h.kept_eq⟩, hbacklog⟩
  | _ => contradiction

/-- If `SendPackets` cannot move, it has handled all that was kept. -/
theorem Injecting.handled_of_stuck (h : r.Injecting packetSize kept)
    (hstuck : (recordedMachine packetSize n).next r
      (.sendPackets r.session.incoming.sendPackets.nextAct) = none) :
    kept = r.log.handled.map Prod.fst := by
  have hidle := IncomingPath.idle_of_stuck h.sound h.inLoop (by
    simpa only [recordedMachine, Session.next, h.isRunning, Option.map_eq_none_iff] using hstuck)
  have hordered := ordered_of_reach h.reach
  have hkept : r.log.kept = r.log.handled.map Prod.fst ++
      (r.log.abandoned ++ r.session.incoming.sendPackets.unsent) ++
        r.session.incoming.queue.packets := hordered.inOrder () fun _ => rfl
  rw [hidle.1, hidle.2, hordered.abandoned h.inLoop, List.append_nil, List.append_nil,
    List.append_nil] at hkept
  exact h.kept_eq.symm.trans hkept

theorem Injecting.progress {a : SessionLabel α n} (h : r.Injecting packetSize kept)
    (ha : a.injects = true) (hn : (recordedMachine packetSize n).next r a = some r') :
    ∃ b r'', b.injects = true ∧ (recordedMachine packetSize n).next r b = some r'' ∧
      r''.Injecting packetSize kept ∧
        r''.session.incoming.backlog < r.session.incoming.backlog := by
  cases a with
  | sendPackets b =>
    have hb : b ≠ .throws := of_decide_eq_true ha
    obtain ⟨s, hs, -⟩ := Option.map_eq_some_iff.mp hn
    obtain ⟨c, hc, -⟩ := Option.map_eq_some_iff.mp hs
    rw [h.isRunning] at hc
    obtain ⟨c', hc'⟩ := Option.isSome_iff_exists.mp (IncomingPath.nextAct_isSome hb hc)
    have hinjects :=
      (r.session.incoming.sendPackets.nextAct_injects : SessionLabel.injects (n := n) _ = true)
    obtain ⟨r'', hr''⟩ : ∃ r'', (recordedMachine packetSize n).next r
        (.sendPackets r.session.incoming.sendPackets.nextAct) = some r'' := by
      simp only [recordedMachine, Session.next, h.isRunning, hc', Option.map_some]
      exact ⟨_, rfl⟩
    obtain ⟨hinjecting, hbacklog⟩ := h.next hinjects hr''
    exact ⟨_, _, hinjects, hr'', hinjecting, hbacklog⟩
  | _ => contradiction

end RecordedSession

/-- **`SendPackets` hands all that has been kept to Wintun.**  While the driver runs, `SendPackets`
is still in its loop and none of its steps throws, it takes by itself at most six steps for each
packet in the queue and two for each in its batch, and three.  Where it cannot move it has handled
every packet kept, in order: injected it, or given it up because the ring of Wintun was full or the
allocation failed for another reason.  Steps that do not throw lead there. -/
theorem incoming_drains (packetSize : α → Nat) {r : RecordedSession α n}
    (h : (recordedMachine packetSize n).Reach r) (hrun : r.session.isRunning = true)
    (hin : r.session.inLoop .sendPackets = true) :
    (∀ as r', (recordedMachine packetSize n).run r as = some r' → (∀ a ∈ as, a.injects = true) →
        as.length ≤ 6 * r.session.incoming.queue.packets.length +
            2 * r.session.incoming.sendPackets.unsent.length + 3 ∧
          ((∀ a : SessionLabel α n, a.injects = true →
              (recordedMachine packetSize n).next r' a = none) →
            r.log.kept = r'.log.handled.map Prod.fst)) ∧
      ∃ r', (recordedMachine packetSize n).Leads (fun _ a => a.injects = true) r r' ∧
        r.log.kept = r'.log.handled.map Prod.fst := by
  have hinjecting : r.Injecting packetSize r.log.kept := ⟨h, hrun, hin, rfl⟩
  refine ⟨fun as r' hrun' hok => ?_, ?_⟩
  · have hstep (s : RecordedSession α n) (a : SessionLabel α n) (t : RecordedSession α n)
        (hs : s.Injecting packetSize r.log.kept) (ha : a.injects = true)
        (ht : (recordedMachine packetSize n).next s a = some t) :
        t.Injecting packetSize r.log.kept ∧
          t.session.incoming.backlog + 1 ≤ s.session.incoming.backlog + (fun _ => 0) a :=
      hs.next ha ht
    obtain ⟨hr', hlength⟩ :=
      Machine.length_le_of_rank (fun r : RecordedSession α n => r.session.incoming.backlog)
        hstep hinjecting hok hrun'
    have hnone : (as.map fun _ => 0).sum = 0 := by simp
    have hbacklog := IncomingPath.backlog_le hinjecting.sound
    exact ⟨by omega,
      fun hstuck => hr'.handled_of_stuck (hstuck _ (SendPacketsPc.nextAct_injects _))⟩
  · have hprogress (u : RecordedSession α n) (hu : u.Injecting packetSize r.log.kept)
        (hmore : ¬ ∀ a : SessionLabel α n, a.injects = true →
          (recordedMachine packetSize n).next u a = none) :
        ∃ a t, a.injects = true ∧ (recordedMachine packetSize n).next u a = some t ∧
          t.Injecting packetSize r.log.kept ∧
          t.session.incoming.backlog < u.session.incoming.backlog := by
      simp only [not_forall] at hmore
      obtain ⟨a, ha, hstep⟩ := hmore
      obtain ⟨t, ht⟩ := Option.ne_none_iff_exists'.mp hstep
      exact hu.progress ha ht
    have hend : ∃ r', (recordedMachine packetSize n).Leads (fun _ a => a.injects = true) r r' ∧
        r'.Injecting packetSize r.log.kept ∧ ∀ a : SessionLabel α n, a.injects = true →
          (recordedMachine packetSize n).next r' a = none :=
      Machine.leads_of_rank (fun r : RecordedSession α n => r.session.incoming.backlog) _
        hprogress hinjecting
    obtain ⟨r', hleads, hr', hdone⟩ := hend
    exact ⟨r', hleads, hr'.handled_of_stuck (hdone _ (SendPacketsPc.nextAct_injects _))⟩

/-- A datagram has been queued and handed to Wintun, which had no room for it. -/
theorem incoming_drains_overflowed :
    let r := ((recordedMachine id 1).run { session := .start 4 ⟨⟨10, 0, 0, 1⟩, 5555⟩ }
      (overflowed 0)).get (by decide)
    (∀ as r', (recordedMachine id 1).run r as = some r' → (∀ a ∈ as, a.injects = true) →
        as.length ≤ 6 * r.session.incoming.queue.packets.length +
            2 * r.session.incoming.sendPackets.unsent.length + 3 ∧
          ((∀ a : SessionLabel Nat 1, a.injects = true →
              (recordedMachine id 1).next r' a = none) →
            r.log.kept = r'.log.handled.map Prod.fst)) ∧
      ∃ r', (recordedMachine id 1).Leads (fun _ a => a.injects = true) r r' ∧
        r.log.kept = r'.log.handled.map Prod.fst :=
  incoming_drains id
    (Machine.reach_of_run ⟨4, _, by decide, by decide, rfl⟩ (Option.some_get (by decide)).symm)
    (by decide) (by decide)

end NetShare
