import NetShare.Workqueue
import NetShare.Reasoning.Machine
import NetShare.Reasoning.Threads

/-!
# Waiting on the work queue

The mutex `m` and the condition variable `hasPackets` of `Workqueue`, for any number of consumer
threads.  A locked section is one step, cut at the wait: a consumer that finds its predicate false
gives `m` up and sleeps, and evaluates the predicate again once it is woken and holds `m`.
-/

namespace NetShare

open Reasoning

/-- A call that may wait.  A `popSize` asks for at least one packet. -/
inductive PopCall where
  | popSize (size : Nat) (pos : 1 ≤ size)
  | popAll
deriving DecidableEq

/-- What the call does once its wait is over. -/
def PopCall.locked {α : Type} : PopCall → Workqueue α → PopResult α
  | .popSize size _, q => q.popSizeLocked size
  | .popAll, q => q.popAllLocked

/-- Where a consumer thread stands. -/
inductive Consumer (α : Type) where
  /-- No call made yet. -/
  | outside
  /-- Its last call returned this list, having stored this count (`none`: stored nothing). -/
  | returned (list : Option (List (Option α))) (actualSize : Option Nat)
  /-- Past the test of `released` in front of the lock, `m` not yet held. -/
  | locking (call : PopCall)
  /-- Asleep in `hasPackets.wait`. -/
  | blocked (call : PopCall)
  /-- Taken out of the wait set, `m` not yet held again. -/
  | woken (call : PopCall)

namespace Consumer

variable {α : Type}

def isBlocked : Consumer α → Bool
  | .blocked _ => true
  | _ => false

def isWoken : Consumer α → Bool
  | .woken _ => true
  | _ => false

def isOutside : Consumer α → Bool
  | .outside => true
  | .returned _ _ => true
  | _ => false

/-- What a notification does to a consumer it hits. -/
def wake : Consumer α → Consumer α
  | .blocked call => .woken call
  | c => c

end Consumer

/-- The queue and its `k` consumers. -/
structure WaitState (α : Type) (k : Nat) where
  queue : Workqueue α
  consumers : Fin k → Consumer α

/-- The atomic steps.  `push` names the sleeper its `notify_one` picks. -/
inductive WaitLabel (α : Type) (k : Nat) where
  | push (workPacket : α) (notified : Option (Fin k))
  | releaseAll
  | call (i : Fin k) (call : PopCall)
  | lock (i : Fin k)
  | spurious (i : Fin k)
  | resume (i : Fin k)

namespace WaitState

variable {α : Type} {k : Nat}

def set (s : WaitState α k) (i : Fin k) (c : Consumer α) : WaitState α k :=
  { s with consumers := Function.update s.consumers i c }

/-- Consumer `i` holds `m` and evaluates the predicate of its wait. -/
def evaluate (s : WaitState α k) (i : Fin k) (call : PopCall) : WaitState α k :=
  if s.queue.waitDone then
    let r := call.locked s.queue
    { s.set i (.returned r.list r.actualSize) with queue := r.queue }
  else
    s.set i (.blocked call)

def next (s : WaitState α k) : WaitLabel α k → Option (WaitState α k)
  | .push p notified =>
    let r := s.queue.push p
    if r.accepted then
      match notified with
      | some i =>
        if (s.consumers i).isBlocked then
          some { s.set i (s.consumers i).wake with queue := r.queue }
        else none
      | none =>
        -- `notify_one` finds nobody only when nobody sleeps
        if ∀ i, (s.consumers i).isBlocked = false then some { s with queue := r.queue } else none
    else
      match notified with
      | some _ => none
      | none => some { s with queue := r.queue }
  | .releaseAll =>
    some { queue := s.queue.releaseAll, consumers := fun i => (s.consumers i).wake }
  | .call i call =>
    if (s.consumers i).isOutside then
      if s.queue.released then
        some (s.set i (.returned s.queue.popReleased.list s.queue.popReleased.actualSize))
      else some (s.set i (.locking call))
    else none
  | .lock i =>
    match s.consumers i with
    | .locking call => some (s.evaluate i call)
    | _ => none
  | .spurious i =>
    if (s.consumers i).isBlocked then some (s.set i (s.consumers i).wake) else none
  | .resume i =>
    match s.consumers i with
    | .woken call => some (s.evaluate i call)
    | _ => none

end WaitState

/-- A fresh queue of any capacity from 1 on; no consumer has called yet. -/
def waitMachine (α : Type) (k : Nat) : Machine (WaitState α k) (WaitLabel α k) where
  init s := ∃ capacity, 1 ≤ capacity ∧
    s = { queue := Workqueue.new capacity, consumers := fun _ => .outside }
  next := WaitState.next

/-! ## What a locked section does to the size -/

namespace Workqueue

variable {α : Type} {q : Workqueue α}

theorem takeFront_size (q : Workqueue α) (n : Nat) : (q.takeFront n).2.1.size = q.size - n := by
  rw [takeFront_queue]

-- On a queue that is not released the size goes down by what is taken.
theorem popSizeLocked_size (q : Workqueue α) (n : Nat) (hrel : q.released = false) :
    (q.popSizeLocked n).queue.size = q.size - n := by
  simp only [popSizeLocked, hrel, Bool.false_eq_true, if_false, takeFront_size]
  split <;> omega

theorem popAllLocked_size (q : Workqueue α) (hrel : q.released = false) :
    q.popAllLocked.queue.size = 0 := by
  simp only [popAllLocked, hrel, Bool.false_eq_true, if_false, takeFront_size, Nat.sub_self]

end Workqueue

namespace PopCall

variable {α : Type} (call : PopCall) {q : Workqueue α}

theorem locked_released (q : Workqueue α) : (call.locked q).queue.released = q.released := by
  cases call with
  | popSize n _ => exact Workqueue.popSizeLocked_queue_released q n
  | popAll => exact Workqueue.popAllLocked_queue_released q

/-- A call that gets through on a queue that is not released takes at least one packet. -/
theorem locked_size (hrel : q.released = false) (hdone : q.waitDone = true) :
    (call.locked q).queue.size + 1 ≤ q.size := by
  have hpos : q.size ≠ 0 := by
    simpa [Workqueue.waitDone, Workqueue.empty, hrel] using hdone
  cases call with
  | popSize n hn =>
    show (q.popSizeLocked n).queue.size + 1 ≤ q.size
    rw [Workqueue.popSizeLocked_size q n hrel]
    omega
  | popAll =>
    show q.popAllLocked.queue.size + 1 ≤ q.size
    rw [Workqueue.popAllLocked_size q hrel]
    omega

end PopCall

/-! ## No wake-up is lost -/

namespace WaitState

variable {α : Type} {k : Nat}

/-- The consumers that were woken and do not hold `m` again yet. -/
def wokenCount (s : WaitState α k) : Nat := countThreads Consumer.isWoken s.consumers

/-- While a consumer sleeps, the queue is not released and every queued packet has a consumer on
its way to it. -/
def WakeupsKept (s : WaitState α k) : Prop :=
  ∀ i, (s.consumers i).isBlocked = true →
    s.queue.released = false ∧ s.queue.size ≤ s.wokenCount

-- One consumer changes, so the count changes by at most one.
theorem wokenCount_set (s : WaitState α k) (i : Fin k) (c : Consumer α) :
    (s.set i c).wokenCount + (s.consumers i).isWoken.toNat = s.wokenCount + c.isWoken.toNat :=
  countThreads_update _ _ _ _

theorem isBlocked_set {s : WaitState α k} {i j : Fin k} {c : Consumer α}
    (hc : c.isBlocked = false) (h : ((s.set i c).consumers j).isBlocked = true) :
    (s.consumers j).isBlocked = true := by
  by_cases hij : j = i
  · subst hij
    simp only [set, Function.update_self] at h
    rw [hc] at h
    contradiction
  · simpa only [set, Function.update_of_ne hij] using h

-- Waking ends the sleep, and only a sleeper is woken.
theorem wake_isBlocked (c : Consumer α) : c.wake.isBlocked = false := by
  cases c <;> rfl

theorem wake_isWoken {c : Consumer α} (h : c.isBlocked = true) :
    c.isWoken = false ∧ c.wake.isWoken = true := by
  cases c <;> first | contradiction | exact ⟨rfl, rfl⟩

/-- A consumer that evaluates its predicate keeps the property, whether it was woken (and was then
counted) or comes from outside. -/
theorem WakeupsKept.evaluate {s : WaitState α k} (h : s.WakeupsKept) (i : Fin k)
    (call : PopCall) : (s.evaluate i call).WakeupsKept := by
  intro j hj
  unfold WaitState.evaluate at hj ⊢
  cases hdone : s.queue.waitDone with
  | true =>
    simp only [hdone, if_true] at hj ⊢
    have hold := isBlocked_set (s := s) rfl hj
    obtain ⟨hrel, hsize⟩ := h j hold
    have hwoken := s.wokenCount_set i
      (.returned (call.locked s.queue).list (call.locked s.queue).actualSize)
    have htaken := call.locked_size hrel hdone
    refine ⟨by rw [call.locked_released]; exact hrel, ?_⟩
    show (call.locked s.queue).queue.size ≤ (s.set i _).wokenCount
    have hle : (s.consumers i).isWoken.toNat ≤ 1 := Bool.toNat_le _
    rw [show (Consumer.returned (call.locked s.queue).list
      (call.locked s.queue).actualSize).isWoken.toNat = 0 from rfl] at hwoken
    omega
  | false =>
    simp only [Bool.false_eq_true, if_false]
    have hempty : s.queue.size = 0 ∧ s.queue.released = false := by
      simpa [Workqueue.waitDone, Workqueue.empty] using hdone
    exact ⟨hempty.2, by show s.queue.size ≤ _; omega⟩

-- One more packet, and one more woken consumer if anyone sleeps.
theorem WakeupsKept.push {s t : WaitState α k} (h : s.WakeupsKept) {p : α}
    {notified : Option (Fin k)} (hn : s.next (.push p notified) = some t) : t.WakeupsKept := by
  cases hacc : (s.queue.push p).accepted with
  | false =>
    cases notified with
    | some i => simp [next, hacc] at hn
    | none =>
      simp only [next, hacc, Bool.false_eq_true, if_false, Option.some.injEq,
        Workqueue.push_queue_of_refused hacc] at hn
      rw [← hn]
      exact h
  | true =>
    cases notified with
    | some i =>
      simp only [next, hacc, if_true] at hn
      split at hn
      next hblocked =>
        rw [Option.some.injEq] at hn
        subst hn
        intro j hj
        obtain ⟨hrel, hsize⟩ := h j (isBlocked_set (wake_isBlocked _) hj)
        obtain ⟨hw, hw'⟩ := wake_isWoken hblocked
        have hwoken := s.wokenCount_set i (s.consumers i).wake
        rw [hw, hw'] at hwoken
        refine ⟨by rw [Workqueue.push_released]; exact hrel, ?_⟩
        show (s.queue.push p).queue.size ≤ (s.set i _).wokenCount
        rw [Workqueue.push_size_of_accepted hacc]
        simp only [Bool.toNat_false, Bool.toNat_true] at hwoken
        omega
      next => contradiction
    | none =>
      simp only [next, hacc, if_true] at hn
      split at hn
      next hnobody =>
        rw [Option.some.injEq] at hn
        subst hn
        intro j hj
        have := hnobody j
        rw [show (s.consumers j).isBlocked = true from hj] at this
        contradiction
      next => contradiction

-- A call changes neither the queue nor who sleeps.
theorem WakeupsKept.call {s t : WaitState α k} (h : s.WakeupsKept) {i : Fin k} {c : PopCall}
    (hn : s.next (.call i c) = some t) : t.WakeupsKept := by
  have hkeep : ∀ x : Consumer α, x.isBlocked = false → x.isWoken = false →
      (s.consumers i).isOutside = true → (s.set i x).WakeupsKept := by
    intro x hx hxw hout j hj
    obtain ⟨hrel, hsize⟩ := h j (isBlocked_set hx hj)
    have hwoken := s.wokenCount_set i x
    have hw : (s.consumers i).isWoken = false := by
      cases hc : s.consumers i <;> simp_all [Consumer.isOutside, Consumer.isWoken]
    rw [hw, hxw] at hwoken
    exact ⟨hrel, by show s.queue.size ≤ (s.set i x).wokenCount; omega⟩
  simp only [next] at hn
  split at hn
  next hout =>
    split at hn <;> rw [Option.some.injEq] at hn <;> subst hn
    · exact hkeep _ rfl rfl hout
    · exact hkeep _ rfl rfl hout
  next => contradiction

-- A spurious wake-up only adds to the woken.
theorem WakeupsKept.spurious {s t : WaitState α k} (h : s.WakeupsKept) {i : Fin k}
    (hn : s.next (.spurious i) = some t) : t.WakeupsKept := by
  simp only [next] at hn
  split at hn
  next hblocked =>
    rw [Option.some.injEq] at hn
    subst hn
    intro j hj
    obtain ⟨hrel, hsize⟩ := h j (isBlocked_set (wake_isBlocked _) hj)
    obtain ⟨hw, hw'⟩ := wake_isWoken hblocked
    have hwoken := s.wokenCount_set i (s.consumers i).wake
    rw [hw, hw'] at hwoken
    refine ⟨hrel, ?_⟩
    show s.queue.size ≤ (s.set i _).wokenCount
    simp only [Bool.toNat_false, Bool.toNat_true] at hwoken
    omega
  next => contradiction

-- One case for each label.
theorem WakeupsKept.step {s t : WaitState α k} (h : s.WakeupsKept) (a : WaitLabel α k)
    (hn : s.next a = some t) : t.WakeupsKept := by
  cases a with
  | push p notified => exact h.push hn
  | releaseAll =>
    simp only [next, Option.some.injEq] at hn
    subst hn
    intro j hj
    rw [show ((s.consumers j).wake).isBlocked = false from wake_isBlocked _] at hj
    contradiction
  | call i c => exact h.call hn
  | lock i =>
    simp only [next] at hn
    split at hn
    next c _ =>
      rw [Option.some.injEq] at hn
      subst hn
      exact h.evaluate i c
    next => contradiction
  | spurious i => exact h.spurious hn
  | resume i =>
    simp only [next] at hn
    split at hn
    next c _ =>
      rw [Option.some.injEq] at hn
      subst hn
      exact h.evaluate i c
    next => contradiction

end WaitState

/-- **No wake-up is lost.**  In every reachable state, if a consumer sleeps un-woken then the queue
is not released and holds at most as many packets as there are woken consumers still to resume; so
if it holds any, one of them is on its way. -/
theorem no_lost_wakeup {α : Type} {k : Nat} {s : WaitState α k} (h : (waitMachine α k).Reach s)
    (i : Fin k) (hi : (s.consumers i).isBlocked = true) :
    s.queue.released = false ∧ s.queue.size ≤ s.wokenCount ∧
      (0 < s.queue.size → ∃ j, (s.consumers j).isWoken = true) := by
  have hkept : s.WakeupsKept :=
    h.invariant
      (fun s hs j hj => by
        obtain ⟨capacity, -, rfl⟩ := hs
        contradiction)
      (fun s a t hI hn => hI.step a hn)
  obtain ⟨hrel, hsize⟩ := hkept i hi
  exact ⟨hrel, hsize, fun hpos => exists_of_countThreads_pos (Nat.lt_of_lt_of_le hpos hsize)⟩

/-- Two consumers go to sleep, then a push wakes the first. -/
def twoSleepers {k : Nat} (i j : Fin k) : List (WaitLabel Nat k) :=
  [.call i .popAll, .lock i, .call j (.popSize 3 (by decide)), .lock j, .push 7 (some i)]

theorem no_lost_wakeup_two_sleepers :
    let s := ((waitMachine Nat 2).run ⟨Workqueue.new 2, fun _ => .outside⟩
      (twoSleepers 0 1)).get (by decide)
    (s.consumers 1).isBlocked = true ∧ s.queue.size = 1 ∧
      s.queue.released = false ∧ s.queue.size ≤ s.wokenCount ∧
      (0 < s.queue.size → ∃ j, (s.consumers j).isWoken = true) :=
  ⟨by decide, by decide, no_lost_wakeup
    (Machine.reach_of_run ⟨2, by decide, rfl⟩ (Option.some_get (by decide)).symm) 1 (by decide)⟩

end NetShare
