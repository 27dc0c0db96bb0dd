import NetShare.SessionSteps
import Mathlib.Data.List.TakeDrop

/-!
# Sending one batch

The `for` loop of a sender over the packets of one `popSize`, against every sequence of answers of
`sendto`.  A refusal takes the `size_t` index back before the loop increments it, through 2^64 - 1
if it was 0.
-/

namespace NetShare

open Reasoning

variable {α : Type}

/-! ## 1. The loop -/

/-- One call of `sendto`. -/
structure Attempt (α : Type) where
  index : Nat
  packet : α
  iResult : SendtoResult
deriving DecidableEq

/-- The attempts from a control point on and where the thread is after them, as long as there are
answers. -/
def sendLoop : SenderPc α → List SendtoResult → List (Attempt α) × SenderPc α
  | .loop packet elements i, [] =>
    ([], if i < elements then .loop packet elements i else .test)
  | .loop packet elements i, iResult :: iResults =>
    if i < elements then
      match packet.element i with
      | some p =>
        let (attempts, pc) :=
          sendLoop (OutgoingPath.afterSendto packet elements i iResult) iResults
        (⟨i, p, iResult⟩ :: attempts, pc)
      | none => ([], .fault)
    else ([], .test)
  | pc, _ => ([], pc)

/-- The packets of the successful attempts. -/
def succeeded (attempts : List (Attempt α)) : List α :=
  (attempts.filter (·.iResult = .success)).map (·.packet)

/-- What the loop makes of a batch of which `start` packets have been sent.  Every attempt is on the
first packet not yet sent, the successful ones are the next packets in order; the loop goes back to
its head exactly when all have been sent, leaves the worker exactly at the first other error, and
otherwise has used up the answers. -/
structure SendsFrom (packets : List α) (iResults : List SendtoResult) (start : Nat)
    (attempts : List (Attempt α)) (pc : SenderPc α) : Prop where
  answers : attempts.map (·.iResult) <+: iResults
  firstUnsent : ∀ before attempt behind, attempts = before ++ attempt :: behind →
    attempt.index = start + (succeeded before).length ∧ attempt.index < packets.length ∧
      packets[attempt.index]? = some attempt.packet
  inOrder : succeeded attempts <+: packets.drop start
  finishes : pc = .test ↔ start + (succeeded attempts).length = packets.length
  leaves : pc = .returned .sendFailed ↔
    ∃ before attempt, attempts = before ++ [attempt] ∧ attempt.iResult = .error
  onlyLast : ∀ before attempt behind, attempts = before ++ attempt :: behind →
    attempt.iResult = .error → behind = []
  ends : pc = .test ∨ pc = .returned .sendFailed ∨ attempts.map (·.iResult) = iResults

-- An entry of the array is a packet of the batch.
theorem element_map_some (packets : List α) {i : Nat} (h : i < packets.length) :
    PacketList.element (some (packets.map some)) i = packets[i]? := by
  show (packets.map some)[i]?.join = packets[i]?
  rw [List.getElem?_map, List.getElem?_eq_getElem h]
  rfl

-- One round of the loop.
theorem sendLoop_cons {packet : PacketList α} {elements i : Nat} {p : α} (hi : i < elements)
    (hp : packet.element i = some p) (iResult : SendtoResult) (iResults : List SendtoResult) :
    sendLoop (.loop packet elements i) (iResult :: iResults) =
      (⟨i, p, iResult⟩ ::
          (sendLoop (OutgoingPath.afterSendto packet elements i iResult) iResults).1,
        (sendLoop (OutgoingPath.afterSendto packet elements i iResult) iResults).2) := by
  rw [sendLoop, if_pos hi, hp]

-- The loop that makes no attempt.
theorem SendsFrom.none {packets : List α} {iResults : List SendtoResult} {start : Nat}
    {pc : SenderPc α} (htest : pc = .test ↔ start = packets.length)
    (hreturned : pc ≠ .returned .sendFailed) (hends : pc = .test ∨ iResults = []) :
    SendsFrom packets iResults start [] pc := by
  have hempty {P : Prop} {before behind : List (Attempt α)} {attempt : Attempt α}
      (h : [] = before ++ attempt :: behind) : P := by
    have := congrArg List.length h
    rw [List.length_append, List.length_cons, List.length_nil] at this
    omega
  constructor
  case answers => exact List.nil_prefix
  case firstUnsent => exact fun _ _ _ h => hempty h
  case inOrder => exact List.nil_prefix
  case finishes => exact htest
  case leaves =>
    constructor
    · exact fun h => absurd h hreturned
    · rintro ⟨before, attempt, h, -⟩
      exact hempty h
  case onlyLast => exact fun _ _ _ h => hempty h
  case ends => exact hends.imp_right fun h => .inr h.symm

theorem succeeded_cons (attempt : Attempt α) (attempts : List (Attempt α)) :
    succeeded (attempt :: attempts) = succeeded [attempt] ++ succeeded attempts := by
  show succeeded ([attempt] ++ attempts) = _
  rw [succeeded, List.filter_append, List.map_append]
  rfl

-- The packet that was sent is the first of those left.
theorem succeeded_prefix {packets : List α} {start : Nat} {attempt : Attempt α}
    (hpacket : packets[start]? = some attempt.packet) :
    succeeded [attempt] <+: packets.drop start := by
  obtain ⟨hlt, hget⟩ := List.getElem?_eq_some_iff.mp hpacket
  obtain ⟨i, p, iResult⟩ := attempt
  rw [List.drop_eq_getElem_cons hlt, hget]
  cases iResult
  case success => exact ⟨_, rfl⟩
  case wouldBlock => exact List.nil_prefix
  case error => exact List.nil_prefix

/-- An attempt on the first packet not yet sent, before a loop that goes on behind it. -/
theorem SendsFrom.cons {packets : List α} {iResults : List SendtoResult} {start : Nat}
    {attempts : List (Attempt α)} {pc : SenderPc α} (attempt : Attempt α)
    (hindex : attempt.index = start) (hpacket : packets[start]? = some attempt.packet)
    (herror : attempt.iResult ≠ .error)
    (h : SendsFrom packets iResults (start + (succeeded [attempt]).length) attempts pc) :
    SendsFrom packets (attempt.iResult :: iResults) start (attempt :: attempts) pc := by
  have hlength : start + (succeeded (attempt :: attempts)).length =
      start + (succeeded [attempt]).length + (succeeded attempts).length := by
    rw [succeeded_cons, List.length_append, Nat.add_assoc]
  constructor
  case answers => exact (List.prefix_cons_inj _).mpr h.answers
  case firstUnsent =>
    intro before attempt' behind hsplit
    cases before with
    | nil =>
      obtain rfl : attempt = attempt' := (List.cons.inj hsplit).1
      rw [hindex]
      exact ⟨rfl, (List.getElem?_eq_some_iff.mp hpacket).1, hpacket⟩
    | cons first before =>
      obtain ⟨rfl, hrest⟩ := List.cons.inj hsplit
      have hfirst := h.firstUnsent before attempt' behind hrest
      rwa [Nat.add_assoc, ← List.length_append, ← succeeded_cons] at hfirst
  case inOrder =>
    obtain ⟨left, hleft⟩ := succeeded_prefix hpacket
    have hdrop : packets.drop (start + (succeeded [attempt]).length) = left := by
      rw [← List.drop_drop, ← hleft, List.drop_left]
    have hrest := h.inOrder
    rw [hdrop] at hrest
    rw [succeeded_cons, ← hleft]
    exact (List.prefix_append_right_inj _).mpr hrest
  case finishes =>
    rw [hlength]
    exact h.finishes
  case leaves =>
    rw [h.leaves]
    constructor
    · rintro ⟨before, last, rfl, hlast⟩
      exact ⟨attempt :: before, last, rfl, hlast⟩
    · rintro ⟨before, last, hsplit, hlast⟩
      cases before with
      | nil =>
        obtain rfl : attempt = last := (List.cons.inj hsplit).1
        exact absurd hlast herror
      | cons first before => exact ⟨before, last, (List.cons.inj hsplit).2, hlast⟩
  case onlyLast =>
    intro before attempt' behind hsplit hlast
    cases before with
    | nil =>
      obtain rfl : attempt = attempt' := (List.cons.inj hsplit).1
      exact absurd hlast herror
    | cons first before => exact h.onlyLast before attempt' behind (List.cons.inj hsplit).2 hlast
  case ends =>
    rw [List.map_cons, List.cons.injEq]
    exact h.ends.imp_right (Or.imp_right fun hall => ⟨rfl, hall⟩)

/-- An attempt that fails is the last. -/
theorem SendsFrom.failed {packets : List α} {start : Nat} {p : α}
    (hpacket : packets[start]? = some p) (iResults : List SendtoResult) :
    SendsFrom packets (.error :: iResults) start [⟨start, p, .error⟩] (.returned .sendFailed) := by
  have hlt := (List.getElem?_eq_some_iff.mp hpacket).1
  have hsingle {before behind : List (Attempt α)} {attempt : Attempt α}
      (h : [⟨start, p, .error⟩] = before ++ attempt :: behind) :
      before = [] ∧ attempt = ⟨start, p, .error⟩ ∧ behind = [] := by
    cases before with
    | nil => exact ⟨rfl, (List.cons.inj h).1.symm, (List.cons.inj h).2.symm⟩
    | cons first before =>
      have hlength := congrArg List.length h
      simp only [List.length_append, List.length_cons, List.length_nil] at hlength
      omega
  constructor
  case answers => exact (List.prefix_cons_inj _).mpr List.nil_prefix
  case firstUnsent =>
    intro before attempt behind h
    obtain ⟨rfl, rfl, rfl⟩ := hsingle h
    exact ⟨rfl, hlt, hpacket⟩
  case inOrder => exact List.nil_prefix
  case finishes =>
    show _ ↔ start + 0 = packets.length
    exact iff_of_false (fun h => by cases h) (by omega)
  case leaves => exact iff_of_true rfl ⟨[], _, rfl, rfl⟩
  case onlyLast =>
    intro before attempt behind h _
    exact (hsingle h).2.2
  case ends => exact .inr (.inl rfl)

/-- The loop from any index on: the refused attempts leave the index, the others move it by one. -/
theorem sendsFrom_sendLoop {packets : List α} (hfits : packets.length < 2 ^ 64)
    (iResults : List SendtoResult) {start : Nat} (hstart : start ≤ packets.length) :
    SendsFrom packets iResults start
      (sendLoop (.loop (some (packets.map some)) packets.length start) iResults).1
      (sendLoop (.loop (some (packets.map some)) packets.length start) iResults).2 := by
  induction iResults generalizing start with
  | nil =>
    rw [sendLoop]
    apply SendsFrom.none ?_ ?_ (.inr rfl)
    · split
      next hlt => exact iff_of_false (fun h => by cases h) (by omega)
      next hlt => exact iff_of_true rfl (by omega)
    · split <;> exact fun h => by cases h
  | cons iResult iResults ih =>
    by_cases hlt : start < packets.length
    · have hpacket := List.getElem?_eq_getElem hlt
      rw [sendLoop_cons hlt ((element_map_some packets hlt).trans hpacket)]
      cases iResult with
      | success =>
        have hinc : sizeTInc start = start + 1 := sizeTInc_of_lt (by omega)
        have hne : SendtoResult.success ≠ .error := by decide
        rw [OutgoingPath.afterSendto, hinc]
        exact .cons ⟨start, packets[start], .success⟩ rfl hpacket hne (ih hlt)
      | wouldBlock =>
        have hsame : sizeTInc (sizeTDec start) = start := sizeTInc_sizeTDec (by omega)
        have hne : SendtoResult.wouldBlock ≠ .error := by decide
        rw [OutgoingPath.afterSendto, hsame]
        exact .cons ⟨start, packets[start], .wouldBlock⟩ rfl hpacket hne (ih hstart)
      | error =>
        have hleft : sendLoop (.returned .sendFailed : SenderPc α) iResults =
            ([], .returned .sendFailed) := by
          cases iResults <;> rfl
        rw [OutgoingPath.afterSendto, hleft]
        exact .failed hpacket iResults
    · rw [sendLoop, if_neg hlt]
      exact .none (iff_of_true rfl (by omega)) (fun h => by cases h) (.inl rfl)

/-- **A batch is sent in order, each packet once.** -/
theorem sendLoop_inOrder (packets : List α) (hfits : packets.length < 2 ^ 64)
    (iResults : List SendtoResult) :
    SendsFrom packets iResults 0
      (sendLoop (.loop (some (packets.map some)) packets.length 0) iResults).1
      (sendLoop (.loop (some (packets.map some)) packets.length 0) iResults).2 :=
  sendsFrom_sendLoop hfits iResults (Nat.zero_le _)

theorem sendLoop_inOrder_firstRefused :
    let iResults : List SendtoResult := [.wouldBlock, .wouldBlock, .success, .wouldBlock, .success]
    SendsFrom ['a', 'b'] iResults 0
      (sendLoop (.loop (some ['a', 'b']) 2 0) iResults).1
      (sendLoop (.loop (some ['a', 'b']) 2 0) iResults).2 :=
  sendLoop_inOrder ['a', 'b'] (by decide)
    [.wouldBlock, .wouldBlock, .success, .wouldBlock, .success]

/-! ## 2. The loop in a session -/

namespace OutgoingPath

variable {n : Nat}

/-- What a sender that makes these attempts has done to the path when it stands at `pc`. -/
def afterAttempts (packetSize : α → Nat) (o : OutgoingPath α n) (i : Fin n)
    (attempts : List (Attempt α)) (pc : SenderPc α) : OutgoingPath α n :=
  { o.setSender i pc with
    sent := o.sent ++ succeeded attempts
    statsSent := o.statsSent ++ attempts.map fun attempt => packetSize attempt.packet }

/-- The steps of one sender of a session. -/
def senderMachine (packetSize : α → Nat) (isRunning : Bool) (i : Fin n) :
    Machine (OutgoingPath α n) SenderAct where
  init _ := True
  next o a := o.stepSender packetSize isRunning i a

theorem afterAttempts_nil (packetSize : α → Nat) (o : OutgoingPath α n) (i : Fin n) :
    o.afterAttempts packetSize i [] (o.senders i) = o := by
  rw [afterAttempts, setSender, Function.update_eq_self]
  show { o with sent := o.sent ++ [], statsSent := o.statsSent ++ [] } = o
  rw [List.append_nil, List.append_nil]

theorem afterAttempts_cons (packetSize : α → Nat) (o : OutgoingPath α n) (i : Fin n)
    (attempt : Attempt α) (attempts : List (Attempt α)) (pc pc' : SenderPc α) :
    (o.afterAttempts packetSize i [attempt] pc).afterAttempts packetSize i attempts pc' =
      o.afterAttempts packetSize i (attempt :: attempts) pc' := by
  simp only [afterAttempts, setSender, Function.update_idem, succeeded_cons attempt attempts,
    List.map_cons, List.map_nil, List.append_assoc, List.singleton_append]

/-- The two steps of one attempt, `sendto` and the evaluation of its result. -/
theorem leads_attempt {packetSize : α → Nat} {isRunning : Bool} {o : OutgoingPath α n} {i : Fin n}
    {packet : PacketList α} {elements idx : Nat} {p : α}
    (hpc : o.senders i = .loop packet elements idx) (hidx : idx < elements)
    (hp : packet.element idx = some p) (iResult : SendtoResult) :
    (senderMachine packetSize isRunning i).Leads (fun _ _ => True) o
      (o.afterAttempts packetSize i [⟨idx, p, iResult⟩]
        (afterSendto packet elements idx iResult)) := by
  let o₁ : OutgoingPath α n := { o.setSender i (.sent packet elements idx iResult) with
    sent := if iResult = .success then o.sent ++ [p] else o.sent }
  have hsendto : o.stepSender packetSize isRunning i (.sendto iResult) = some o₁ := by
    simp only [stepSender, hpc, hidx, if_true, hp]
    rfl
  have hpc₁ : o₁.senders i = .sent packet elements idx iResult := Function.update_self i _ _
  have hevaluate : o₁.stepSender packetSize isRunning i .run =
      some (o.afterAttempts packetSize i [⟨idx, p, iResult⟩]
        (afterSendto packet elements idx iResult)) := by
    simp only [stepSender, hpc₁, hp]
    simp only [o₁, afterAttempts, setSender, Function.update_idem]
    cases iResult
    case success => rfl
    all_goals
      show _ = some { o with
        senders := _, sent := o.sent ++ [], statsSent := o.statsSent ++ [packetSize p] }
      rw [List.append_nil]
      rfl
  have hfirst : (senderMachine packetSize isRunning i).Step (fun _ _ => True) o o₁ :=
    ⟨.sendto iResult, trivial, hsendto⟩
  have hsecond : (senderMachine packetSize isRunning i).Step (fun _ _ => True) o₁ _ :=
    ⟨.run, trivial, hevaluate⟩
  exact .head hfirst (.single hsecond)

-- A step that makes no attempt.
theorem leads_noAttempt {packetSize : α → Nat} {isRunning : Bool} {o : OutgoingPath α n} {i : Fin n}
    {a : SenderAct} {pc : SenderPc α}
    (hstep : o.stepSender packetSize isRunning i a = some (o.setSender i pc)) :
    (senderMachine packetSize isRunning i).Leads (fun _ _ => True) o
      (o.afterAttempts packetSize i [] pc) := by
  have hafter : o.afterAttempts packetSize i [] pc = o.setSender i pc := by
    show { o.setSender i pc with sent := o.sent ++ [], statsSent := o.statsSent ++ [] } = _
    rw [List.append_nil, List.append_nil]
    rfl
  rw [hafter]
  exact .single ⟨a, trivial, hstep⟩

-- No step at all.
theorem leads_stays {packetSize : α → Nat} {isRunning : Bool} {o : OutgoingPath α n} {i : Fin n}
    {pc : SenderPc α} (hpc : o.senders i = pc) :
    (senderMachine packetSize isRunning i).Leads (fun _ _ => True) o
      (o.afterAttempts packetSize i [] pc) := by
  rw [← hpc, afterAttempts_nil]
  exact .refl

/-- **The loop is what a sender does in a session**: it takes the path through the attempts and
leaves the thread where the loop ends. -/
theorem leads_sendLoop (packetSize : α → Nat) (isRunning : Bool) (o : OutgoingPath α n) (i : Fin n)
    (iResults : List SendtoResult) :
    (senderMachine packetSize isRunning i).Leads (fun _ _ => True) o
      (o.afterAttempts packetSize i (sendLoop (o.senders i) iResults).1
        (sendLoop (o.senders i) iResults).2) := by
  induction iResults generalizing o with
  | nil =>
    cases hpc : o.senders i
    case loop packet elements idx =>
      rw [sendLoop]
      by_cases hidx : idx < elements
      · rw [if_pos hidx]
        exact leads_stays hpc
      · rw [if_neg hidx]
        exact leads_noAttempt (a := .run) (by simp only [stepSender, hpc, hidx, if_false])
    all_goals exact leads_stays hpc
  | cons iResult iResults ih =>
    cases hpc : o.senders i
    case loop packet elements idx =>
      by_cases hidx : idx < elements
      · cases hp : packet.element idx with
        | some p =>
          have hrest := ih (o.afterAttempts packetSize i [⟨idx, p, iResult⟩]
            (afterSendto packet elements idx iResult))
          have hpc' : (o.afterAttempts packetSize i [⟨idx, p, iResult⟩]
              (afterSendto packet elements idx iResult)).senders i =
              afterSendto packet elements idx iResult := Function.update_self i _ _
          rw [hpc', afterAttempts_cons] at hrest
          rw [sendLoop_cons hidx hp]
          exact (leads_attempt hpc hidx hp iResult).trans hrest
        | none =>
          rw [sendLoop, if_pos hidx, hp]
          exact leads_noAttempt (a := .sendto iResult)
            (by simp only [stepSender, hpc, hidx, if_true, hp])
      · rw [sendLoop, if_neg hidx]
        exact leads_noAttempt (a := .run) (by simp only [stepSender, hpc, hidx, if_false])
    all_goals exact leads_stays hpc

end OutgoingPath

end NetShare
