import NetShare.SessionSteps
import NetShare.Reasoning.Mealy

/-!
# What a socket receiver puts into the tunnel

One receiver by itself: the answers of `select` and `recvfrom` and what the tests of `isRunning`
find come in, the packets handed to `recievingPacketQueue->push` go out.  The source that `recvfrom`
reports goes into `RecvAddr`, which nobody reads.
-/

namespace NetShare

open Reasoning

variable {α : Type} {n : Nat}

/-! ## 1. One receiver -/

namespace SocketReceiver

/-- A receiver that has just been started. -/
def start (server : SockAddr) : SocketReceiver α := { recvAddr := server }

/-- One step: the packets pushed and the receiver after it. -/
def step (isRunning : Bool) (r : SocketReceiver α) :
    SocketReceiverAct α → Option (List α × SocketReceiver α)
  | .run =>
    match r.pc with
    | .test => some ([], { r with pc := if isRunning then .select else .returned .stopped })
    | .timedOut => some ([], { r with pc := if isRunning then .test else .returned .stopped })
    | .copy p => some ([p], { r with pc := .pushed p })
    | .pushed _ => some ([], { r with pc := if isRunning then .test else .returned .stopped })
    | _ => none
  | .select total =>
    match r.pc with
    | .select =>
      match total with
      | .ready => some ([], { r with pc := .recvfrom })
      | .timeout => some ([], { r with pc := .timedOut })
      | .wouldBlock => some ([], { r with pc := .test })
      | .error => some ([], { r with pc := .returned .selectFailed })
    | _ => none
  | .recvfrom iResult =>
    match r.pc with
    | .recvfrom =>
      match iResult with
      | .datagram source p => some ([], { pc := .copy p, recvAddr := source })
      | .empty source => some ([], { pc := .test, recvAddr := source })
      | .wouldBlock => some ([], { r with pc := .test })
      | .error => some ([], { r with pc := .returned .recvFailed })
    | _ => none

/-- The datagram that has been received and not been pushed yet. -/
def inHand (r : SocketReceiver α) : List α :=
  match r.pc with
  | .copy p => [p]
  | _ => []

end SocketReceiver

/-- A receiver, driven by what its test of `isRunning` would find and by the step it takes. -/
def receiverMachine : Mealy (SocketReceiver α) (Bool × SocketReceiverAct α) (List α) where
  next r input := r.step input.1 input.2

/-! ## 2. The receivers of a session -/

namespace IncomingPath

theorem pushPacket_receivers (c : IncomingPath α n) (p : α) :
    (c.pushPacket p).receivers = c.receivers := rfl

/-- Pushes packets one after the other. -/
def pushPackets (c : IncomingPath α n) (ps : List α) : IncomingPath α n := ps.foldl pushPacket c

/-- A step of a receiver in a session is the same step of that receiver alone, and what it pushes
goes into the queue. -/
theorem stepReceiver_alone {packetSize : α → Nat} {isRunning : Bool} {c c' : IncomingPath α n}
    {i : Fin n} {a : SocketReceiverAct α}
    (hstep : c.stepReceiver packetSize isRunning i a = some c') :
    ∃ pushed, (c.receivers i).step isRunning a = some (pushed, c'.receivers i) ∧
      c'.queue = (c.pushPackets pushed).queue ∧
      ∀ j, j ≠ i → c'.receivers j = c.receivers j := by
  have hother : ∀ (r : SocketReceiver α) (j : Fin n), j ≠ i →
      Function.update c.receivers i r j = c.receivers j :=
    fun _ _ hj => Function.update_of_ne hj _ _
  have hself : ∀ r : SocketReceiver α, Function.update c.receivers i r i = r :=
    fun _ => Function.update_self _ _ _
  cases a with
  | run =>
    simp only [stepReceiver] at hstep
    split at hstep
    next hpc =>
      rw [Option.some.injEq] at hstep
      subst hstep
      refine ⟨[], ?_, rfl, hother _⟩
      simp only [SocketReceiver.step, hpc, setReceiver, hself]
    next hpc =>
      rw [Option.some.injEq] at hstep
      subst hstep
      refine ⟨[], ?_, rfl, hother _⟩
      simp only [SocketReceiver.step, hpc, setReceiver, hself]
    next p hpc =>
      rw [Option.some.injEq] at hstep
      subst hstep
      refine ⟨[p], ?_, rfl, hother _⟩
      simp only [SocketReceiver.step, hpc, setReceiver, pushPacket_receivers, hself]
    next p hpc =>
      rw [Option.some.injEq] at hstep
      subst hstep
      refine ⟨[], ?_, rfl, hother _⟩
      simp only [SocketReceiver.step, hpc, setReceiver, hself]
    next => contradiction
  | select total =>
    simp only [stepReceiver] at hstep
    split at hstep
    next hpc =>
      cases total <;>
        (rw [Option.some.injEq] at hstep
         subst hstep
         refine ⟨[], ?_, rfl, hother _⟩
         simp only [SocketReceiver.step, hpc, setReceiver, hself])
    next => contradiction
  | recvfrom iResult =>
    simp only [stepReceiver] at hstep
    split at hstep
    next hpc =>
      cases iResult <;>
        (simp only [Option.some.injEq] at hstep
         subst hstep
         refine ⟨[], ?_, rfl, hother _⟩
         simp only [SocketReceiver.step, hpc, setReceiver, setReceiverFrom, hself])
    next => contradiction

end IncomingPath

/-- **Each receiver of a session makes a run of its own.** -/
theorem receiver_of_session {packetSize : α → Nat} {capacity : Nat} {server : SockAddr}
    {s : Session α n} (h : (sessionMachine packetSize n).Leads (fun _ _ => True)
      (.start capacity server) s) (i : Fin n) :
    ∃ is outs, receiverMachine.run (.start server) is = some (outs, s.incoming.receivers i) := by
  induction h with
  | refl => exact ⟨[], [], rfl⟩
  | @tail s t _ hlast ih =>
    obtain ⟨is, outs, hrun⟩ := ih
    obtain ⟨a, -, hn⟩ := hlast
    -- a step that leaves this receiver where it is
    have hstay (heq : t.incoming.receivers i = s.incoming.receivers i) :
        ∃ is outs, receiverMachine.run (.start server) is =
          some (outs, t.incoming.receivers i) := ⟨is, outs, heq ▸ hrun⟩
    cases a with
    | receivePackets b =>
      obtain ⟨o, -, rfl⟩ := Option.map_eq_some_iff.mp hn
      exact hstay rfl
    | sender j b =>
      obtain ⟨o, -, rfl⟩ := Option.map_eq_some_iff.mp hn
      exact hstay rfl
    | sendPackets b =>
      obtain ⟨c, hc, rfl⟩ := Option.map_eq_some_iff.mp hn
      exact hstay (congrFun (IncomingPath.stepSend_receivers hc) i)
    | receiver j b =>
      obtain ⟨c, hc, rfl⟩ := Option.map_eq_some_iff.mp hn
      obtain ⟨pushed, hown, -, hother⟩ := IncomingPath.stepReceiver_alone hc
      by_cases hij : i = j
      · subst hij
        exact ⟨is ++ [(s.isRunning, b)], outs ++ [pushed], Mealy.run_concat hrun hown⟩
      · exact hstay (hother i hij)
    | shutdown =>
      simp only [sessionMachine, Session.next, Session.stepShutdown] at hn
      split at hn <;> first
        | contradiction
        | (rw [Option.some.injEq] at hn; subst hn; exact hstay rfl)

/-! ## 3. Datagrams and pushes -/

/-- The source of the datagram that a step receives, and what is in it. -/
def SocketReceiverAct.received : SocketReceiverAct α → Option (SockAddr × Option α)
  | .recvfrom (.datagram source p) => some (source, some p)
  | .recvfrom (.empty source) => some (source, none)
  | _ => none

/-- The incoming datagrams of a run. -/
def datagrams (is : List (Bool × SocketReceiverAct α)) : List (SockAddr × Option α) :=
  is.filterMap fun input => input.2.received

/-- The payloads of those that are not empty. -/
def payloads (ds : List (SockAddr × Option α)) : List α := ds.filterMap Prod.snd

/-- The datagrams that the server has sent. -/
def fromServer (server : SockAddr) (ds : List (SockAddr × Option α)) : List (SockAddr × Option α) :=
  ds.filter fun d => d.1 = server

/-- One step takes in what it receives and gives out what it pushes. -/
theorem SocketReceiver.step_payload {isRunning : Bool} {r r' : SocketReceiver α}
    {a : SocketReceiverAct α} {pushed : List α} (hstep : r.step isRunning a = some (pushed, r')) :
    pushed ++ r'.inHand = r.inHand ++ payloads a.received.toList := by
  cases a with
  | run =>
    simp only [step] at hstep
    split at hstep <;> first
      | contradiction
      | (rename_i hpc
         simp only [Option.some.injEq, Prod.mk.injEq] at hstep
         obtain ⟨rfl, rfl⟩ := hstep
         cases isRunning <;> simp only [inHand, hpc] <;> rfl)
  | select total =>
    simp only [step] at hstep
    split at hstep
    next hpc =>
      cases total <;>
        (simp only [Option.some.injEq, Prod.mk.injEq] at hstep
         obtain ⟨rfl, rfl⟩ := hstep
         simp only [inHand, hpc]
         rfl)
    next => contradiction
  | recvfrom iResult =>
    simp only [step] at hstep
    split at hstep
    next hpc =>
      cases iResult <;>
        (simp only [Option.some.injEq, Prod.mk.injEq] at hstep
         obtain ⟨rfl, rfl⟩ := hstep
         simp only [inHand, hpc]
         rfl)
    next => contradiction

/-- **Everything received is pushed**, whoever has sent it. -/
theorem receiverMachine_payloads {r r' : SocketReceiver α} {is : List (Bool × SocketReceiverAct α)}
    {outs : List (List α)} (h : receiverMachine.run r is = some (outs, r')) :
    outs.flatten ++ r'.inHand = r.inHand ++ payloads (datagrams is) := by
  induction is generalizing r outs with
  | nil =>
    simp only [Mealy.run, Option.some.injEq, Prod.mk.injEq] at h
    obtain ⟨rfl, rfl⟩ := h
    exact (List.append_nil _).symm
  | cons input is ih =>
    simp only [Mealy.run, Option.bind_eq_some_iff, Option.map_eq_some_iff, Prod.mk.injEq] at h
    obtain ⟨⟨pushed, u⟩, hstep, ⟨rest, v⟩, hrest, rfl, rfl⟩ := h
    have hone := SocketReceiver.step_payload hstep
    have hsplit : payloads (datagrams (input :: is)) =
        payloads input.2.received.toList ++ payloads (datagrams is) := by
      simp only [payloads, datagrams, List.filterMap_cons]
      cases input.2.received with
      | none => rfl
      | some d => rw [Option.toList_some, ← List.filterMap_append, List.singleton_append]
    calc (pushed :: rest).flatten ++ v.inHand
        = pushed ++ (rest.flatten ++ v.inHand) := by
          rw [List.flatten_cons, List.append_assoc]
      _ = (pushed ++ u.inHand) ++ payloads (datagrams is) := by rw [ih hrest, List.append_assoc]
      _ = r.inHand ++ payloads (datagrams (input :: is)) := by
          rw [hone, hsplit, List.append_assoc]

/-! ## 4. Two runs -/

-- Datagrams without payload make no difference.
theorem payloads_fromServer {server : SockAddr} {ds : List (SockAddr × Option α)}
    (h : ∀ d ∈ ds, d.1 ≠ server → d.2 = none) : payloads (fromServer server ds) = payloads ds := by
  induction ds with
  | nil => rfl
  | cons d ds ih =>
    have hrest := ih fun e he => h e (List.mem_cons_of_mem d he)
    unfold payloads fromServer at hrest ⊢
    by_cases hd : d.1 = server
    · rw [List.filter_cons_of_pos (by exact decide_eq_true hd), List.filterMap_cons,
        List.filterMap_cons, hrest]
    · rw [List.filter_cons_of_neg (by rwa [decide_eq_true_eq]), List.filterMap_cons,
        h d List.mem_cons_self hd, hrest]

/-- **Two runs push the same packets exactly if the datagrams they receive carry the same
payloads.**  That the server has sent the same in both decides it only if nobody else sends any
payload. -/
theorem pushes_eq_iff {server : SockAddr} {is₁ is₂ : List (Bool × SocketReceiverAct α)}
    {outs₁ outs₂ : List (List α)} {r₁ r₂ : SocketReceiver α}
    (hrun₁ : receiverMachine.run (.start server) is₁ = some (outs₁, r₁)) (hidle₁ : r₁.inHand = [])
    (hrun₂ : receiverMachine.run (.start server) is₂ = some (outs₂, r₂)) (hidle₂ : r₂.inHand = [])
    (hserver : fromServer server (datagrams is₁) = fromServer server (datagrams is₂)) :
    (outs₁.flatten = outs₂.flatten ↔ payloads (datagrams is₁) = payloads (datagrams is₂)) ∧
      ((∀ d ∈ datagrams is₁ ++ datagrams is₂, d.1 ≠ server → d.2 = none) →
        outs₁.flatten = outs₂.flatten) := by
  have hpushed₁ : outs₁.flatten = payloads (datagrams is₁) := by
    have hall := receiverMachine_payloads hrun₁
    rwa [hidle₁, List.append_nil] at hall
  have hpushed₂ : outs₂.flatten = payloads (datagrams is₂) := by
    have hall := receiverMachine_payloads hrun₂
    rwa [hidle₂, List.append_nil] at hall
  rw [hpushed₁, hpushed₂]
  refine ⟨Iff.rfl, fun hsilent => ?_⟩
  rw [← payloads_fromServer fun d hd => hsilent d (List.mem_append_left _ hd),
    ← payloads_fromServer fun d hd => hsilent d (List.mem_append_right _ hd), hserver]

/-- One turn of the loop around a datagram. -/
def receiveOne (source : SockAddr) (p : Nat) : List (Bool × SocketReceiverAct Nat) :=
  [(true, .run), (true, .select .ready), (true, .recvfrom (.datagram source p)), (true, .run),
    (true, .run)]

-- The second run also gets an empty datagram from somebody else.
theorem pushes_eq_iff_empty :
    let server : SockAddr := ⟨⟨178, 63, 3, 159⟩, 5555⟩
    let is₁ := receiveOne server 7
    let is₂ := [(true, .run), (true, .select .ready),
      (true, .recvfrom (.empty ⟨⟨10, 0, 0, 9⟩, 53⟩))] ++ receiveOne server 7
    ([[], [], [], [7], []].flatten = [[], [], [], [], [], [], [7], []].flatten ↔
        payloads (datagrams is₁) = payloads (datagrams is₂)) ∧
      ((∀ d ∈ datagrams is₁ ++ datagrams is₂, d.1 ≠ server → d.2 = none) →
        [[], [], [], [7], []].flatten = [[], [], [], [], [], [], [7], []].flatten) := by
  intro server is₁ is₂
  have hrun₁ : receiverMachine.run (.start server) is₁ =
      some ([[], [], [], [7], []], ⟨.test, server⟩) := rfl
  have hrun₂ : receiverMachine.run (.start server) is₂ =
      some ([[], [], [], [], [], [], [7], []], ⟨.test, server⟩) := rfl
  exact pushes_eq_iff hrun₁ rfl hrun₂ rfl rfl

/-- A datagram from somebody else goes into the tunnel as well. -/
theorem otherSource_pushed :
    ¬ ∀ (server : SockAddr) (is₁ is₂ : List (Bool × SocketReceiverAct Nat))
        (outs₁ outs₂ : List (List Nat)) (r₁ r₂ : SocketReceiver Nat),
      receiverMachine.run (.start server) is₁ = some (outs₁, r₁) → r₁.inHand = [] →
      receiverMachine.run (.start server) is₂ = some (outs₂, r₂) → r₂.inHand = [] →
      fromServer server (datagrams is₁) = fromServer server (datagrams is₂) →
      (∀ input ∈ is₁ ++ is₂, input.2 ≠ .select .error ∧ input.2 ≠ .recvfrom .error) →
      outs₁.flatten = outs₂.flatten := by
  intro hclaim
  let server : SockAddr := ⟨⟨178, 63, 3, 159⟩, 5555⟩
  let other : SockAddr := ⟨⟨10, 0, 0, 9⟩, 53⟩
  have hpushed := hclaim server (receiveOne other 7) [] [[], [], [], [7], []] [] ⟨.test, other⟩
    (.start server) rfl rfl rfl rfl rfl (by decide)
  revert hpushed
  decide

end NetShare
