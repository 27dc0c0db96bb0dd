import NetShare.WorkqueueFifo
import NetShare.WorkqueueWait

/-!
# The work queue with waiting consumers

The calls of any number of consumers and the pushes between them overlap, wait and are woken.  A
history kept beside the queue has one entry for each call, made while the call lasts.  The entries
in their order are a run of the bounded list, and every consumer is given what this run gives it.
-/

namespace NetShare

open Reasoning

variable {α : Type} {k : Nat}

/-! ## 1. The history -/

def PopCall.op : PopCall → QueueOp α
  | .popSize size _ => .popSize size
  | .popAll => .popAll

/-- The packet that a call puts into the queue. -/
def QueueOp.kept {β : Type} : QueueOp α → QueueAnswer β → Option α
  | .push p, .pushed true => some p
  | _, _ => none

/-- The packets that an answer hands to the caller. -/
def QueueAnswer.taken : QueueAnswer α → List α
  | .packets list => list
  | _ => []

/-- A call that has taken effect, of this consumer (`none`: a producer, or whoever released the
queue), and what it showed its caller. -/
structure QueueEvent (α : Type) (k : Nat) where
  caller : Option (Fin k)
  op : QueueOp α
  answer : QueueAnswer (Option α)

/-- `begun` is the length of the history when a consumer made its last call. -/
structure QueueHistory (α : Type) (k : Nat) where
  events : List (QueueEvent α k) := []
  call : Fin k → Option PopCall := fun _ => none
  begun : Fin k → Nat := fun _ => 0

namespace QueueHistory

def add (h : QueueHistory α k) (caller : Option (Fin k)) (op : QueueOp α)
    (answer : QueueAnswer (Option α)) : QueueHistory α k :=
  { h with events := h.events ++ [{ caller, op, answer }] }

def begin (h : QueueHistory α k) (i : Fin k) (call : PopCall) : QueueHistory α k where
  events := h.events
  call := Function.update h.call i (some call)
  begun := Function.update h.begun i h.events.length

/-- A consumer that holds `m` takes effect if its wait is over. -/
def evaluate (h : QueueHistory α k) (q : Workqueue α) (i : Fin k) (call : PopCall) :
    QueueHistory α k :=
  if q.waitDone then h.add (some i) call.op (.ofList (call.locked q).list) else h

/-- The history after a step taken from this state. -/
def record (h : QueueHistory α k) (s : WaitState α k) : WaitLabel α k → QueueHistory α k
  | .push p _ => h.add none (.push p) (.pushed (s.queue.push p).accepted)
  | .releaseAll => h.add none .releaseAll .released
  | .call i call =>
    if s.queue.released then
      (h.begin i call).add (some i) call.op (.ofList s.queue.popReleased.list)
    else h.begin i call
  | .lock i =>
    match s.consumers i with
    | .locking call => h.evaluate s.queue i call
    | _ => h
  | .resume i =>
    match s.consumers i with
    | .woken call => h.evaluate s.queue i call
    | _ => h
  | .spurious _ => h

/-- What consumer `i` has done since it made its last call. -/
def since (h : QueueHistory α k) (i : Fin k) : List (QueueEvent α k) :=
  (h.events.drop (h.begun i)).filter fun event => event.caller = some i

/-- The packets kept and the packets handed out, in the order of the history. -/
def accepted (h : QueueHistory α k) : List α :=
  h.events.filterMap fun event => event.op.kept event.answer

def handedOut (h : QueueHistory α k) : List (Option α) := h.events.flatMap (·.answer.taken)

end QueueHistory

/-- A queue with its consumers and what has happened to it. -/
structure RecordedQueue (α : Type) (k : Nat) where
  state : WaitState α k
  history : QueueHistory α k := {}

def recordedQueueMachine (α : Type) (k capacity : Nat) :
    Machine (RecordedQueue α k) (WaitLabel α k) where
  init r := r = { state := { queue := Workqueue.new capacity, consumers := fun _ => .outside } }
  next r a := (r.state.next a).map fun s => { state := s, history := r.history.record r.state a }

/-! ## 2. The entries are a run of the list -/

namespace QueueHistory

/-- The entries are a run of the list, which is then in the state `f`. -/
def Legal {bound : Nat} (h : QueueHistory α k) (f : BoundedFifo α bound) : Prop :=
  ∃ answers, (fifoMachine bound).run BoundedFifo.empty (h.events.map (·.op)) = some (answers, f) ∧
    h.events.map (·.answer) = answers.map (·.map some)

/-- One more call that the ring answers. -/
theorem Legal.add {capacity : Nat} {h : QueueHistory α k} {q q' : Workqueue α}
    {f : BoundedFifo α (capacity - 1)} (hlegal : h.Legal f) (hq : Represents capacity q f)
    {op : QueueOp α} {answer : QueueAnswer (Option α)} {accessed : List Nat}
    (hcall : q.call op = some ((answer, accessed), q')) (caller : Option (Fin k)) :
    ∃ f' : BoundedFifo α (capacity - 1), (h.add caller op answer).Legal f' ∧
      Represents capacity q' f' := by
  obtain ⟨answers, hrun, hanswers⟩ := hlegal
  have hstep := ring_simulates_fifo capacity q f op hq
  rw [show ringMachine.next q op = _ from hcall] at hstep
  cases hnext : (fifoMachine (capacity - 1)).next f op with
  | none =>
    rw [hnext] at hstep
    nomatch hstep
  | some r =>
    rw [hnext] at hstep
    obtain ⟨halike, hrep⟩ : AnswersAlike capacity (answer, accessed) r.1 ∧
        Represents capacity q' r.2 := by
      cases hstep
      assumption
    refine ⟨r.2, ⟨answers ++ [r.1], ?_, ?_⟩, hrep⟩
    · rw [QueueHistory.add, List.map_append]
      exact Mealy.run_concat hrun hnext
    · rw [QueueHistory.add, List.map_append, List.map_append, hanswers]
      exact congrArg (answers.map (·.map some) ++ [·]) halike.1

/-! ## 3. What each consumer has done -/

/-- Where a consumer stands, against its entries: none before its first call, none yet during a
call, and one entry with what it was given once the call has returned. -/
def Settled (h : QueueHistory α k) (i : Fin k) : Consumer α → Prop
  | .outside => ∀ event ∈ h.events, event.caller ≠ some i
  | .returned list _ =>
    ∃ call, h.call i = some call ∧ h.since i = [⟨some i, call.op, .ofList list⟩]
  | .locking call | .blocked call | .woken call => h.call i = some call ∧ h.since i = []

variable {h : QueueHistory α k} {i j : Fin k} {c : Consumer α} {op : QueueOp α}
  {answer : QueueAnswer (Option α)}

theorem since_add (hbegun : h.begun i ≤ h.events.length) (caller : Option (Fin k)) :
    (h.add caller op answer).since i =
      h.since i ++ if caller = some i then [⟨caller, op, answer⟩] else [] := by
  rw [since, add, List.drop_append_of_le_length hbegun, List.filter_append, since]
  refine congrArg _ ?_
  by_cases hcaller : caller = some i
  · rw [if_pos hcaller, List.filter_singleton, decide_eq_true hcaller, cond_true]
  · rw [if_neg hcaller, List.filter_singleton, decide_eq_false hcaller, cond_false]

theorem since_begin (h : QueueHistory α k) (i : Fin k) (call : PopCall) :
    (h.begin i call).since i = [] := by
  have hbegun : (h.begin i call).begun i = h.events.length := Function.update_self i _ _
  have hdrop : h.events.drop h.events.length = [] := List.drop_length
  rw [since, hbegun]
  exact congrArg (List.filter _) hdrop

theorem Settled.add (hsettled : h.Settled i c) (hbegun : h.begun i ≤ h.events.length)
    {caller : Option (Fin k)} (hcaller : caller ≠ some i) :
    (h.add caller op answer).Settled i c := by
  have hsince : (h.add caller op answer).since i = h.since i := by
    rw [since_add hbegun, if_neg hcaller, List.append_nil]
  cases c with
  | outside =>
    intro event hevent
    rcases List.mem_append.mp hevent with hold | hnew
    · exact hsettled event hold
    · rw [List.mem_singleton.mp hnew]
      exact hcaller
  | returned list actualSize =>
    obtain ⟨call, hcall, hone⟩ := hsettled
    exact ⟨call, hcall, hsince.trans hone⟩
  | locking call | blocked call | woken call => exact ⟨hsettled.1, hsince.trans hsettled.2⟩

-- A consumer that takes effect returns with what its entry says.
theorem Settled.addSelf {call : PopCall} (hcall : h.call i = some call) (hnone : h.since i = [])
    (hbegun : h.begun i ≤ h.events.length) (list : Option (List (Option α)))
    (actualSize : Option Nat) :
    (h.add (some i) call.op (.ofList list)).Settled i (.returned list actualSize) := by
  refine ⟨call, hcall, ?_⟩
  rw [since_add hbegun, if_pos rfl, hnone, List.nil_append]

theorem Settled.begin_other (hsettled : h.Settled i c) (hij : i ≠ j) (call : PopCall) :
    (h.begin j call).Settled i c := by
  have hcall : (h.begin j call).call i = h.call i := Function.update_of_ne hij _ _
  have hbegun : (h.begin j call).begun i = h.begun i := Function.update_of_ne hij _ _
  have hsince : (h.begin j call).since i = h.since i := by
    rw [since, hbegun, since]
    rfl
  cases c with
  | outside => exact hsettled
  | returned list actualSize =>
    obtain ⟨call', hcall', hone⟩ := hsettled
    exact ⟨call', hcall.trans hcall', hsince.trans hone⟩
  | locking call' | blocked call' | woken call' =>
    exact ⟨hcall.trans hsettled.1, hsince.trans hsettled.2⟩

theorem Settled.wake (hsettled : h.Settled i c) : h.Settled i c.wake := by
  cases c <;> exact hsettled

end QueueHistory

namespace RecordedQueue

open QueueHistory

/-- The history explains the queue and its consumers. -/
structure Linear (capacity : Nat) (r : RecordedQueue α k) : Prop where
  legal : ∃ f : BoundedFifo α (capacity - 1), r.history.Legal f ∧
    Represents capacity r.state.queue f
  begun : ∀ i, r.history.begun i ≤ r.history.events.length
  settled : ∀ i, r.history.Settled i (r.state.consumers i)

variable {capacity : Nat} {s : WaitState α k} {h : QueueHistory α k}

theorem begun_add (hbegun : ∀ i, h.begun i ≤ h.events.length) (caller : Option (Fin k))
    (op : QueueOp α) (answer : QueueAnswer (Option α)) (i : Fin k) :
    (h.add caller op answer).begun i ≤ (h.add caller op answer).events.length := by
  have hold := hbegun i
  show h.begun i ≤ (h.events ++ [_]).length
  rw [List.length_append]
  omega

theorem begun_begin (hbegun : ∀ i, h.begun i ≤ h.events.length) (j : Fin k) (call : PopCall)
    (i : Fin k) : (h.begin j call).begun i ≤ (h.begin j call).events.length := by
  show Function.update h.begun j h.events.length i ≤ h.events.length
  by_cases hij : i = j
  · rw [hij, Function.update_self]
  · rw [Function.update_of_ne hij]
    exact hbegun i

/-- The wait of a consumer is over: its call is one call on the ring. -/
theorem call_of_waitDone {q : Workqueue α} (hdone : q.waitDone = true) (call : PopCall) :
    ∃ accessed, q.call call.op =
      some ((.ofList (call.locked q).list, accessed), (call.locked q).queue) := by
  cases call with
  | popSize size pos =>
    simp only [PopCall.op, Workqueue.call, hdone, if_true]
    unfold Workqueue.popSize PopCall.locked
    cases hrel : q.released with
    | true =>
      refine ⟨[], ?_⟩
      simp only [Workqueue.popReleased, Workqueue.popSizeLocked, hrel, if_true]
    | false => exact ⟨_, rfl⟩
  | popAll =>
    simp only [PopCall.op, Workqueue.call, hdone, if_true]
    unfold Workqueue.popAll PopCall.locked
    cases hrel : q.released with
    | true =>
      refine ⟨[], ?_⟩
      simp only [Workqueue.popReleased, Workqueue.popAllLocked, hrel, if_true]
    | false => exact ⟨_, rfl⟩

-- Whoever is notified, a push changes the queue and wakes at most sleepers.
theorem push_wakes {s s' : WaitState α k} {p : α} {notified : Option (Fin k)}
    (hs : s.next (.push p notified) = some s') :
    ∃ consumers, s' = { queue := (s.queue.push p).queue, consumers } ∧
      ∀ i, consumers i = s.consumers i ∨ consumers i = (s.consumers i).wake := by
  have hsame : ∀ i, s.consumers i = s.consumers i ∨ s.consumers i = (s.consumers i).wake :=
    fun _ => .inl rfl
  cases notified with
  | none =>
    simp only [WaitState.next] at hs
    split at hs
    · split at hs
      · exact ⟨s.consumers, (Option.some.inj hs).symm, hsame⟩
      · contradiction
    · exact ⟨s.consumers, (Option.some.inj hs).symm, hsame⟩
  | some i =>
    simp only [WaitState.next] at hs
    split at hs
    · split at hs
      · refine ⟨_, (Option.some.inj hs).symm, fun j => ?_⟩
        by_cases hij : j = i
        · exact .inr (by rw [hij]; exact Function.update_self i _ _)
        · exact .inl (Function.update_of_ne hij _ _)
      · contradiction
    · contradiction

/-- A producer's call, which may wake consumers. -/
theorem Linear.producer (hlinear : Linear capacity ⟨s, h⟩) {op : QueueOp α}
    {answer : QueueAnswer (Option α)} {accessed : List Nat} {q' : Workqueue α}
    (hcall : s.queue.call op = some ((answer, accessed), q')) {consumers : Fin k → Consumer α}
    (hwake : ∀ i, consumers i = s.consumers i ∨ consumers i = (s.consumers i).wake) :
    Linear capacity ⟨{ queue := q', consumers }, h.add none op answer⟩ := by
  obtain ⟨f, hlegal, hrep⟩ := hlinear.legal
  refine ⟨hlegal.add hrep hcall none, begun_add hlinear.begun none op answer, fun i => ?_⟩
  have hsettled := hlinear.settled i
  have hnot : (none : Option (Fin k)) ≠ some i := nofun
  show (h.add none op answer).Settled i (consumers i)
  rcases hwake i with heq | heq
  · rw [heq]
    exact hsettled.add (hlinear.begun i) hnot
  · rw [heq]
    exact hsettled.wake.add (hlinear.begun i) hnot

/-- A consumer takes effect and returns. -/
theorem Linear.returns (hlinear : Linear capacity ⟨s, h⟩) {i : Fin k} {call : PopCall}
    (hcalled : h.call i = some call) (hnone : h.since i = []) {list : Option (List (Option α))}
    {accessed : List Nat} {q' : Workqueue α}
    (hcall : s.queue.call call.op = some ((.ofList list, accessed), q'))
    (actualSize : Option Nat) :
    Linear capacity ⟨{ s.set i (.returned list actualSize) with queue := q' },
      h.add (some i) call.op (.ofList list)⟩ := by
  obtain ⟨f, hlegal, hrep⟩ := hlinear.legal
  refine ⟨hlegal.add hrep hcall (some i), begun_add hlinear.begun _ _ _, fun j => ?_⟩
  show (h.add (some i) call.op (.ofList list)).Settled j
    (Function.update s.consumers i (.returned list actualSize) j)
  by_cases hij : j = i
  · obtain rfl := hij
    rw [Function.update_self]
    exact Settled.addSelf hcalled hnone (hlinear.begun j) list actualSize
  · rw [Function.update_of_ne hij]
    exact (hlinear.settled j).add (hlinear.begun j) (fun heq => hij (Option.some.inj heq).symm)

/-- A consumer moves without taking effect. -/
theorem Linear.set (hlinear : Linear capacity ⟨s, h⟩) {i : Fin k} {c : Consumer α}
    (hc : h.Settled i c) : Linear capacity ⟨s.set i c, h⟩ := by
  refine ⟨hlinear.legal, hlinear.begun, fun j => ?_⟩
  show h.Settled j (Function.update s.consumers i c j)
  by_cases hij : j = i
  · rw [hij, Function.update_self]
    exact hc
  · rw [Function.update_of_ne hij]
    exact hlinear.settled j

theorem Linear.evaluate (hlinear : Linear capacity ⟨s, h⟩) {i : Fin k} {call : PopCall}
    (hcalled : h.call i = some call) (hnone : h.since i = []) :
    Linear capacity ⟨s.evaluate i call, h.evaluate s.queue i call⟩ := by
  rw [WaitState.evaluate, QueueHistory.evaluate]
  cases hdone : s.queue.waitDone with
  | true =>
    obtain ⟨accessed, hcall⟩ := call_of_waitDone hdone call
    simp only [if_true]
    exact hlinear.returns hcalled hnone hcall _
  | false =>
    simp only [Bool.false_eq_true, if_false]
    exact hlinear.set ⟨hcalled, hnone⟩

/-- A consumer makes a call; on a released queue it returns at once. -/
theorem Linear.call (hlinear : Linear capacity ⟨s, h⟩) (i : Fin k) (call : PopCall) :
    Linear capacity
      (if s.queue.released then
        ⟨s.set i (.returned s.queue.popReleased.list s.queue.popReleased.actualSize),
          (h.begin i call).add (some i) call.op (.ofList s.queue.popReleased.list)⟩
      else ⟨s.set i (.locking call), h.begin i call⟩) := by
  have hcalled : (h.begin i call).call i = some call := Function.update_self i _ _
  have hnone := since_begin h i call
  have hlocking : Linear capacity ⟨s.set i (.locking call), h.begin i call⟩ := by
    refine ⟨hlinear.legal, begun_begin hlinear.begun i call, fun j => ?_⟩
    show (h.begin i call).Settled j (Function.update s.consumers i (.locking call) j)
    by_cases hij : j = i
    · rw [hij, Function.update_self]
      exact ⟨hcalled, hnone⟩
    · rw [Function.update_of_ne hij]
      exact (hlinear.settled j).begin_other hij call
  cases hrel : s.queue.released with
  | false => exact hlocking
  | true =>
    simp only [if_true]
    have hdone : s.queue.waitDone = true := by rw [Workqueue.waitDone, hrel, Bool.or_true]
    obtain ⟨accessed, hcall⟩ := call_of_waitDone hdone call
    have hlist : (call.locked s.queue).list = s.queue.popReleased.list ∧
        (call.locked s.queue).queue = s.queue := by
      cases call <;> simp only [PopCall.locked, Workqueue.popSizeLocked, Workqueue.popAllLocked,
        hrel, if_true, Workqueue.popReleased, and_self]
    rw [hlist.1, hlist.2] at hcall
    have hreturns := hlocking.returns hcalled hnone hcall s.queue.popReleased.actualSize
    rw [WaitState.set, WaitState.set] at hreturns
    dsimp only at hreturns
    rwa [Function.update_idem] at hreturns

/-- **Every step keeps it.** -/
theorem Linear.step {r r' : RecordedQueue α k} {a : WaitLabel α k} (hlinear : Linear capacity r)
    (hn : (recordedQueueMachine α k capacity).next r a = some r') : Linear capacity r' := by
  obtain ⟨s, h⟩ := r
  obtain ⟨s', hs, rfl⟩ := Option.map_eq_some_iff.mp hn
  dsimp only at hs ⊢
  cases a with
  | push p notified =>
    have hcall : s.queue.call (.push p) =
        some ((.pushed (s.queue.push p).accepted, (s.queue.push p).accessed),
          (s.queue.push p).queue) := rfl
    obtain ⟨consumers, rfl, hwake⟩ := push_wakes hs
    exact hlinear.producer hcall hwake
  | releaseAll =>
    obtain rfl := Option.some.inj hs
    have hcall : s.queue.call .releaseAll =
        some ((.released, []), s.queue.releaseAll) := rfl
    exact hlinear.producer hcall fun i => .inr rfl
  | call i call =>
    have hcalled := hlinear.call i call
    simp only [WaitState.next] at hs
    simp only [QueueHistory.record]
    split at hs
    next =>
      split at hs
      next hrel =>
        obtain rfl := Option.some.inj hs
        rw [if_pos hrel] at hcalled ⊢
        exact hcalled
      next hrel =>
        obtain rfl := Option.some.inj hs
        rw [if_neg hrel] at hcalled ⊢
        exact hcalled
    next => contradiction
  | lock i =>
    have hsettled := hlinear.settled i
    simp only [WaitState.next] at hs
    simp only [QueueHistory.record]
    split at hs
    next call hc =>
      obtain rfl := Option.some.inj hs
      simp only [hc] at hsettled ⊢
      exact hlinear.evaluate hsettled.1 hsettled.2
    next => contradiction
  | spurious i =>
    simp only [WaitState.next] at hs
    split at hs
    next =>
      obtain rfl := Option.some.inj hs
      exact hlinear.set (hlinear.settled i).wake
    next => contradiction
  | resume i =>
    have hsettled := hlinear.settled i
    simp only [WaitState.next] at hs
    simp only [QueueHistory.record]
    split at hs
    next call hc =>
      obtain rfl := Option.some.inj hs
      simp only [hc] at hsettled ⊢
      exact hlinear.evaluate hsettled.1 hsettled.2
    next => contradiction

theorem linear_of_reach (hcap : 1 ≤ capacity) {r : RecordedQueue α k}
    (h : (recordedQueueMachine α k capacity).Reach r) : Linear capacity r := by
  refine h.invariant (fun r hr => ?_) (fun _ _ _ hlinear hn => hlinear.step hn)
  obtain rfl := hr
  refine ⟨⟨BoundedFifo.empty, ⟨[], rfl, rfl⟩, Workqueue.new_holds hcap, rfl, rfl⟩,
    fun _ => Nat.le_refl _, fun _ _ h => absurd h List.not_mem_nil⟩

end RecordedQueue

/-- **The queue is linearizable.**  In every run, with any number of consumers that call, wait, are
woken, in time or spuriously, and find the queue released: the entries of the history in their order
are a run of the bounded list, whose packets are those in the ring at the end.  A call that is still
going on has no entry yet; one that has returned has one entry, made during the call, with the list
it was given.  The calls are `popAll` and `popSize` of at least one packet; `pop` is not among
them. -/
theorem queue_linearizable {α : Type} {k capacity : Nat} (hcap : 1 ≤ capacity)
    {r : RecordedQueue α k} (h : (recordedQueueMachine α k capacity).Reach r) :
    (∃ f : BoundedFifo α (capacity - 1), r.history.Legal f ∧
        Represents capacity r.state.queue f) ∧
      ∀ i, r.history.Settled i (r.state.consumers i) :=
  have hlinear := RecordedQueue.linear_of_reach hcap h
  ⟨hlinear.legal, hlinear.settled⟩

/-- The first consumer waits and is woken, gets two packets, and the second finds the queue
released with a packet in it. -/
def wokenOnce : List (WaitLabel Nat 2) :=
  [.call 0 .popAll, .lock 0, .push 7 (some 0), .call 1 (.popSize 1 (by decide)), .push 8 none,
    .resume 0, .push 9 none, .releaseAll, .lock 1]

/-- The state after these steps. -/
def afterWokenOnce : RecordedQueue Nat 2 :=
  ((recordedQueueMachine Nat 2 3).run
    { state := { queue := Workqueue.new 3, consumers := fun _ => .outside } } wokenOnce).get
    (by decide)

theorem afterWokenOnce_reach : (recordedQueueMachine Nat 2 3).Reach afterWokenOnce :=
  Machine.reach_of_run rfl (Option.some_get _).symm

theorem queue_linearizable_wokenOnce :
    (∃ f : BoundedFifo Nat 2, afterWokenOnce.history.Legal f ∧
        Represents 3 afterWokenOnce.state.queue f) ∧
      ∀ i, afterWokenOnce.history.Settled i (afterWokenOnce.state.consumers i) :=
  queue_linearizable (by decide) afterWokenOnce_reach

/-! ## 4. Every packet once, in order -/

section Packets

variable {bound : Nat} {f f' : BoundedFifo α bound}

theorem QueueOp.kept_map {β γ : Type} (op : QueueOp α) (answer : QueueAnswer β) (g : β → γ) :
    op.kept (answer.map g) = op.kept answer := by
  cases op with
  | push p =>
    cases answer with
    | pushed accepted => cases accepted <;> rfl
    | _ => rfl
  | _ => rfl

theorem QueueAnswer.taken_map {β : Type} (answer : QueueAnswer α) (g : α → β) :
    (answer.map g).taken = answer.taken.map g := by
  cases answer <;> rfl

-- What is taken is what was at the front, and what is kept goes to the back.
theorem take_items (f : BoundedFifo α bound) (n : Nat) :
    (QueueAnswer.ofList (f.take n).1).taken ++ (f.take n).2.items = f.items := by
  unfold BoundedFifo.take
  split
  · rfl
  · exact List.take_append_drop n f.items

theorem fifoCall_items {op : QueueOp α} {answer : QueueAnswer α}
    (h : fifoCall f op = some (answer, f')) :
    f.items ++ (op.kept answer).toList = answer.taken ++ f'.items := by
  cases op with
  | push p =>
    obtain ⟨rfl, rfl⟩ := Prod.mk.inj (Option.some.inj h)
    unfold BoundedFifo.push
    by_cases hroom : f.items.length < bound
    · rw [dif_pos hroom, decide_eq_true hroom]
      rfl
    · rw [dif_neg hroom, decide_eq_false hroom]
      exact List.append_nil f.items
  | popSize size =>
    rw [fifoCall] at h
    split at h
    · obtain ⟨rfl, rfl⟩ := Prod.mk.inj (Option.some.inj h)
      exact (List.append_nil f.items).trans (take_items f size).symm
    · contradiction
  | popAll =>
    rw [fifoCall] at h
    split at h
    · obtain ⟨rfl, rfl⟩ := Prod.mk.inj (Option.some.inj h)
      exact (List.append_nil f.items).trans (take_items f f.items.length).symm
    · contradiction
  | releaseAll =>
    obtain ⟨rfl, rfl⟩ := Prod.mk.inj (Option.some.inj h)
    exact List.append_nil f.items

/-- A run of the list only moves packets from the pushes to the answers. -/
theorem run_items {events : List (QueueEvent α k)} {answers : List (QueueAnswer α)}
    (hrun : (fifoMachine bound).run f (events.map (·.op)) = some (answers, f'))
    (hanswers : events.map (·.answer) = answers.map (·.map some)) :
    (f.items ++ events.filterMap fun event => event.op.kept event.answer).map some =
      events.flatMap (·.answer.taken) ++ f'.items.map some := by
  induction events generalizing f answers with
  | nil =>
    obtain ⟨-, rfl⟩ := Prod.mk.inj (Option.some.inj hrun)
    simp
  | cons event events ih =>
    simp only [List.map_cons, Mealy.run, Option.bind_eq_some_iff, Option.map_eq_some_iff,
      Prod.mk.injEq] at hrun
    obtain ⟨⟨answer, f₁⟩, hcall, ⟨answers₁, f₂⟩, hrest, rfl, rfl⟩ := hrun
    rw [List.map_cons, List.map_cons, List.cons.injEq] at hanswers
    obtain ⟨hanswer, hanswers₁⟩ := hanswers
    have hfirst := fifoCall_items hcall
    have hlater := ih hrest hanswers₁
    have hkept : (event :: events).filterMap (fun event => event.op.kept event.answer) =
        (event.op.kept answer).toList ++
          events.filterMap fun event => event.op.kept event.answer := by
      rw [List.filterMap_cons, hanswer, QueueOp.kept_map]
      cases event.op.kept answer <;> rfl
    rw [hkept, ← List.append_assoc, hfirst, List.append_assoc, List.map_append, hlater,
      List.flatMap_cons, hanswer, QueueAnswer.taken_map, List.append_assoc]

end Packets

/-- **Every packet is handed out once, in the order of the pushes.**  In every run, the packets that
were kept are those handed out, batch after batch whoever took it, and then those in the ring; and
the ring never holds as many as its capacity.  The batches are those of `popAll` and of `popSize`
with at least one packet asked for. -/
theorem queue_exactlyOnce {α : Type} {k capacity : Nat} (hcap : 1 ≤ capacity)
    {r : RecordedQueue α k} (h : (recordedQueueMachine α k capacity).Reach r) :
    r.history.accepted.map some = r.history.handedOut ++ r.state.queue.contents ∧
      r.state.queue.contents.length < capacity := by
  obtain ⟨f, ⟨answers, hrun, hanswers⟩, hrep⟩ := (RecordedQueue.linear_of_reach hcap h).legal
  have hcontents := hrep.holds.contents_eq
  have hitems := run_items hrun hanswers
  refine ⟨hcontents ▸ hitems, ?_⟩
  have hle := f.le_bound
  rw [hcontents, List.length_map]
  omega

theorem queue_exactlyOnce_wokenOnce :
    afterWokenOnce.history.handedOut = [some 7, some 8] ∧
      afterWokenOnce.history.accepted.map some =
        afterWokenOnce.history.handedOut ++ afterWokenOnce.state.queue.contents ∧
      afterWokenOnce.state.queue.contents.length < 3 :=
  ⟨by decide, queue_exactlyOnce (by decide) afterWokenOnce_reach⟩

end NetShare
